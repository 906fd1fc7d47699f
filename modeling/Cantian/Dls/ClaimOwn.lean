import Cantian.Dls.Consistent

/-!
# A lock claim meets its own conversion

Every request message is handled by a worker of the master (a session of the
master's own instance is a worker as well): it requests the lock, waits until
its request is converted, asks the owners to give the lock up, and claims the
lock, or cancels the request when an owner does not. A waiting worker knows its
turn from the instance of the request that is converted, so two requests of
one instance may be taken for each other.

`stop` is the end of a call in a reform, which leaves its request where it is.
Requests that an instance sends again after a timeout are requests like any
other here: the master does not know that nobody waits for the first one.
-/

namespace Cantian.Dls

open Cantian.Lib Function List Option Entry Bitmap

/-- A worker that handles a request; it is `ready` once the request call was a success. -/
structure Worker where
  req : ReqInfo
  ready : Bool
deriving DecidableEq, Repr

structure Sys where
  entry : Option Entry
  worker : Nat → Option Worker

structure Sys.Fresh (s : Sys) : Prop where
  entry : FreshEntry s.entry
  worker : ∀ t, s.worker t = none

inductive Action where
  | request (t : Nat) (env : Env) (req : ReqInfo)
  | tryRequest (t : Nat) (env : Env) (req : ReqInfo)
  | poll (t : Nat)
  | stop (t : Nat)
  | giveUp (t : Nat)
  | claim (t : Nat)
  | reject (t : Nat) (cancels : Bool)
  | clear (inst : Inst)
  | release (inst : Inst)
  | recycle (reforming : Bool) (inst : Inst)
deriving DecidableEq, Repr

/-- The worker after the request call. -/
def Reply.worker (req : ReqInfo) : Reply → Option Worker
  | .error => none
  | .queued => some ⟨req, false⟩
  | _ => some ⟨req, true⟩

def Sys.answer (s : Sys) (t : Nat) (req : ReqInfo) (r : Option Entry × Reply) : Sys where
  entry := r.1
  worker := update s.worker t (r.2.worker req)

/-- The worker is done with its request. -/
def Sys.done (s : Sys) (t : Nat) (entry : Option Entry) : Sys where
  entry := entry
  worker := update s.worker t none

/-- A worker that waits looks at the entry. -/
def pollStep (s : Sys) (t : Nat) (req : ReqInfo) : Option Sys :=
  s.entry.bind fun e => (drcPollLockOwner e req).map fun reply => s.answer t req (some e, reply)

/-- `isTable`: the lock is a table lock. A panic has no next state. -/
def workerStep (isTable : Bool) (s : Sys) : Action → Option Sys
  | .request t env req =>
    if s.worker t = none then (drcRequestLockOwner env s.entry req).map (s.answer t req) else none
  | .tryRequest t env req =>
    if s.worker t = none then (drcTryRequestLockOwner env s.entry req).map (s.answer t req)
    else none
  | .poll t =>
    match s.worker t with
    | some ⟨req, false⟩ => pollStep s t req
    | _ => none
  | .stop t => (s.worker t).map fun _ => s.done t s.entry
  | .giveUp t =>
    match s.worker t with
    | some ⟨req, true⟩ => some (s.done t (drcCancelLockOwnerRequest s.entry req.instId).1)
    | _ => none
  | .claim t =>
    match s.worker t with
    | some ⟨req, true⟩ =>
      (drcClaimLockOwner isTable false s.entry req.instId req.reqMode).map fun r => s.done t r.1
    | _ => none
  | .reject t cancels =>
    match s.worker t with
    | some ⟨req, true⟩ =>
      some (s.done t
        (if cancels then (drcCancelLockOwnerRequest s.entry req.instId).1 else s.entry))
    | _ => none
  | .clear inst => some { s with entry := dlsClearGrantedMapForInst s.entry inst }
  | .release inst => some { s with entry := (drcReleaseLockOwner s.entry inst).1 }
  | .recycle reforming inst =>
    some { s with entry := (drcRecycleDlsMaster reforming s.entry inst).1 }

/-! ## The steps that keep requests apart -/

/-- The claim of the request will not find the instance among the owners already. -/
def notOwner (isTable : Bool) (e : Entry) (req : ReqInfo) : Bool :=
  isTable || req.reqMode = .exclusive || !Bitmap.hasBit e.grantedMap req.instId

/-- No request of the same instance is converted or waits. -/
def onlyRequest (e : Entry) (req : ReqInfo) : Bool :=
  e.requests.all fun r => r.instId ≠ req.instId

def stepOk (isTable : Bool) (s : Sys) : Action → Bool
  | .request _ _ req =>
    match s.entry with
    | none => true
    | some e =>
      if e.converting.isNone then notOwner isTable e req
      else Bitmap.hasBit e.grantedMap req.instId || onlyRequest e req
  | .tryRequest _ _ req =>
    match s.entry with
    | none => true
    | some e => e.converting.isSome || notOwner isTable e req
  | _ => true

/-! ## The invariant -/

/-- What the entry says about a worker's request. -/
structure WorkerOk (isTable : Bool) (e : Entry) (w : Worker) : Prop where
  known : w.req ∈ e.requests
  turn : w.ready = true → e.converting = some w.req
  notOwner : notOwner isTable e w.req = true

structure SysOk (isTable : Bool) (s : Sys) : Prop where
  apart : ∀ e, s.entry = some e → (e.requests.map ReqInfo.instId).Nodup
  queue : ∀ e, s.entry = some e → e.converting = none → e.convertQ = []
  worker : ∀ t w, s.worker t = some w → ∃ e, s.entry = some e ∧ WorkerOk isTable e w
  one : ∀ t t' w w', s.worker t = some w → s.worker t' = some w' →
    w.req.instId = w'.req.instId → t = t'

variable {e : Entry} {req : ReqInfo}

section
variable {isTable : Bool} {s : Sys}

lemma SysOk.fresh (h : s.Fresh) : SysOk isTable s where
  apart e he := by
    rcases h.entry with hn | hn
    · simp [hn] at he
    · cases hn.symm.trans he
      exact nodup_nil
  queue e he _ := by
    rcases h.entry with hn | hn
    · simp [hn] at he
    · cases hn.symm.trans he
      rfl
  worker t w hw := by simp [h.worker] at hw
  one t t' w w' hw := by simp [h.worker] at hw

lemma requests_of_converting {c} (h : e.converting = some c) : e.requests = c :: e.convertQ := by
  simp [requests, h]

lemma requests_convert (e : Entry) : (drcConvertLockOwner e).requests = e.convertQ := by
  unfold drcConvertLockOwner
  cases hq : e.convertQ with
  | nil | cons => simp [requests]

lemma queue_convert (e : Entry) (h : (drcConvertLockOwner e).converting = none) :
    (drcConvertLockOwner e).convertQ = [] := by
  unfold drcConvertLockOwner at *
  cases hq : e.convertQ with
  | nil => rfl
  | cons => simp [hq] at h

lemma convert_grantedMap (e : Entry) : (drcConvertLockOwner e).grantedMap = e.grantedMap := by
  unfold drcConvertLockOwner
  split <;> rfl

lemma notOwner_of_grantedMap {e'} (hmap : Bitmap.hasBit e'.grantedMap req.instId = true →
    Bitmap.hasBit e.grantedMap req.instId = true) (h : notOwner isTable e req = true) :
    notOwner isTable e' req = true := by
  unfold notOwner at *
  by_cases hbit : hasBit e'.grantedMap req.instId = true
  · rw [hmap hbit] at h
    rwa [hbit]
  · simp [hbit]

variable {t : Nat}

lemma worker_of_done {t' entry w} (h : (s.done t entry).worker t' = some w) :
    t' ≠ t ∧ s.worker t' = some w := by
  by_cases ht : t' = t
  · subst ht
    simp [Sys.done] at h
  · refine ⟨ht, ?_⟩
    simpa only [Sys.done, update_of_ne ht] using h

lemma SysOk.one_done (h : SysOk isTable s) (t : Nat) (entry : Option Entry) (t1 t2 : Nat)
    (w1 w2 : Worker) (h1 : (s.done t entry).worker t1 = some w1)
    (h2 : (s.done t entry).worker t2 = some w2) (hinst : w1.req.instId = w2.req.instId) : t1 = t2 :=
  h.one t1 t2 w1 w2 (worker_of_done h1).2 (worker_of_done h2).2 hinst

lemma SysOk.workerOk (h : SysOk isTable s) {w} (he : s.entry = some e)
    (hw : s.worker t = some w) : WorkerOk isTable e w := by
  obtain ⟨e', he', hok⟩ := h.worker t w hw
  cases he.symm.trans he'
  exact hok

lemma SysOk.idle (h : SysOk isTable s) (hnone : ∀ e, s.entry = some e → e.converting = none)
    (t : Nat) : s.worker t = none := by
  by_contra hw
  obtain ⟨w, hw⟩ := ne_none_iff_exists'.mp hw
  obtain ⟨e, he, hok⟩ := h.worker t w hw
  have hknown := hok.known
  have hconv := hnone e he
  simp [requests, hconv, h.queue e he hconv] at hknown

/-! ## Steps that only change the owners -/

/-- The entry lost owners, or it is gone because nobody needs it. -/
inductive Shrinks : Option Entry → Option Entry → Prop where
  | same (res : Option Entry) : Shrinks res res
  | owners {e e' : Entry} (hconv : e'.converting = e.converting) (hq : e'.convertQ = e.convertQ)
      (hmap : ∀ i, Bitmap.hasBit e'.grantedMap i = true → Bitmap.hasBit e.grantedMap i = true) :
      Shrinks (some e) (some e')
  | gone {e : Entry} (hconv : e.converting = none) : Shrinks (some e) none

lemma SysOk.shrink (h : SysOk isTable s) {entry} (hs : Shrinks s.entry entry) :
    SysOk isTable { s with entry := entry } := by
  generalize hres : s.entry = res at hs
  cases hs with
  | same => exact ⟨hres ▸ h.apart, hres ▸ h.queue, hres ▸ h.worker, h.one⟩
  | @owners e e' hconv hq hmap =>
    have hreq : e'.requests = e.requests := by
      unfold requests
      rw [hconv, hq]
    refine ⟨fun e1 he1 => ?_, fun e1 he1 hn => ?_, fun t w hw => ?_, h.one⟩
    · cases he1
      rw [hreq]
      exact h.apart e hres
    · cases he1
      rw [hq]
      exact h.queue e hres (hconv ▸ hn)
    · have hok := h.workerOk hres hw
      exact ⟨e', rfl, hreq ▸ hok.known, fun hr => hconv.trans (hok.turn hr),
        notOwner_of_grantedMap (hmap _) hok.notOwner⟩
  | @gone e hconv =>
    refine ⟨nofun, nofun, fun t w hw => ?_, h.one⟩
    have hidle := h.idle (by simp [hres, hconv]) t
    simp [hidle] at hw

lemma hasBit_of_clearBit {map : BitVec 64} {i j : Inst}
    (h : Bitmap.hasBit (Bitmap.clearBit map i) j = true) : Bitmap.hasBit map j = true := by
  rw [hasBit_clearBit, Bool.and_eq_true] at h
  exact h.1

lemma shrinks_clear (res : Option Entry) (inst : Inst) :
    Shrinks res (dlsClearGrantedMapForInst res inst) := by
  cases res with
  | none => exact .same none
  | some => exact .owners rfl rfl fun _ => hasBit_of_clearBit

lemma shrinks_release (res : Option Entry) (inst : Inst) :
    Shrinks res (drcReleaseLockOwner res inst).1 := by
  unfold drcReleaseLockOwner
  split
  · exact .same none
  rename_i e
  split
  · dsimp only
    split_ifs with hgone
    · exact .owners rfl rfl fun _ => hasBit_of_clearBit
    · apply Shrinks.gone
      have hconv : (clearGranted e inst).converting = e.converting := rfl
      rw [hconv] at hgone
      cases hc : e.converting with
      | none => rfl
      | some => simp [hc] at hgone
  · exact .same _

lemma shrinks_recycle (reforming : Bool) (res : Option Entry) (inst : Inst) :
    Shrinks res (drcRecycleDlsMaster reforming res inst).1 := by
  unfold drcRecycleDlsMaster
  split
  · exact .same res
  · split
    · exact .same none
    · dsimp only
      split_ifs with hgone
      · simp only [Bool.and_eq_true, isNone_iff_eq_none] at hgone
        exact .gone hgone.1
      · exact .owners rfl rfl fun _ => hasBit_of_clearBit

/-! ## Requests -/

lemma worker_of_reply {reply : Reply} (h : reply ≠ .error ∧ reply ≠ .queued) :
    reply.worker req = some ⟨req, true⟩ := by
  cases reply with
  | granted | notGranted => rfl
  | error => exact absurd rfl h.1
  | queued => exact absurd rfl h.2

variable {r : Option Entry × Reply}

lemma SysOk.join (h : SysOk isTable s) {w}
    (hapart : (e.requests.map ReqInfo.instId).Nodup)
    (hqueue : e.converting = none → e.convertQ = []) (hw : WorkerOk isTable e w)
    (hold : ∀ t' ≠ t, ∀ w', s.worker t' = some w' →
      WorkerOk isTable e w' ∧ w'.req.instId ≠ w.req.instId) :
    SysOk isTable ⟨some e, update s.worker t (some w)⟩ := by
  -- a worker is the new one or an old one with another instance
  have hcases : ∀ t' w', update s.worker t (some w) t' = some w' →
      t' = t ∧ w' = w ∨ s.worker t' = some w' ∧ WorkerOk isTable e w' ∧
        w'.req.instId ≠ w.req.instId := by
    intro t' w' hw'
    by_cases ht : t' = t
    · subst ht
      rw [update_self] at hw'
      exact .inl ⟨rfl, (some.inj hw').symm⟩
    · rw [update_of_ne ht] at hw'
      exact .inr ⟨hw', hold t' ht w' hw'⟩
  refine ⟨fun e' he' => ?_, fun e' he' hn => ?_, fun t' w' hw' => ?_,
    fun t1 t2 w1 w2 h1 h2 hinst => ?_⟩
  · cases he'
    exact hapart
  · cases he'
    exact hqueue hn
  · rcases hcases t' w' hw' with ⟨-, rfl⟩ | ⟨-, hok, -⟩
    · exact ⟨e, rfl, hw⟩
    · exact ⟨e, rfl, hok⟩
  · rcases hcases t1 w1 h1 with ⟨rfl, rfl⟩ | ⟨ho1, -, hne1⟩
    · rcases hcases t2 w2 h2 with ⟨rfl, -⟩ | ⟨-, -, hne2⟩
      · rfl
      · exact absurd hinst.symm hne2
    · rcases hcases t2 w2 h2 with ⟨-, rfl⟩ | ⟨ho2, -, -⟩
      · exact absurd hinst hne1
      · exact h.one t1 t2 w1 w2 ho1 ho2 hinst

/-- The request is converted at once: there is no other one. -/
lemma SysOk.begin (h : SysOk isTable s) (hidle : ∀ t, s.worker t = none) (hq : e.convertQ = [])
    (hno : notOwner isTable e req = true) :
    SysOk isTable ⟨some { e with converting := some req },
      update s.worker t (some ⟨req, true⟩)⟩ := by
  refine h.join ?_ (fun hn => absurd hn (some_ne_none req)) ⟨?_, fun _ => rfl, hno⟩
    fun t _ w hw => by simp [hidle] at hw
  · simp [requests, hq]
  · simp [requests]

lemma SysOk.answer (h : SysOk isTable s) {req} (hfree : s.worker t = none)
    (hjoins : Joins req s.entry r.1 r.2)
    (hstart : ∀ e, s.entry = some e → e.converting = none → notOwner isTable e req = true)
    (hwait : ∀ e, s.entry = some e → e.converting ≠ none → r.2 ≠ .error →
      Bitmap.hasBit e.grantedMap req.instId = false ∧ onlyRequest e req = true) :
    SysOk isTable (s.answer t req r) := by
  obtain ⟨entry, reply⟩ := r
  dsimp only at hjoins hwait
  unfold Sys.answer
  generalize hres : s.entry = res at hjoins
  cases hjoins with
  | error =>
    have hsame : update s.worker t none = s.worker := by
      rw [← hfree]
      exact update_eq_self t s.worker
    have hworker : Reply.worker req .error = none := rfl
    rw [hworker, hsame, ← hres]
    exact h
  | create hreply =>
    have hzero : hasBit (drcCreateLockRes.grantedMap) req.instId = false := hasBit_zero _
    rw [worker_of_reply hreply]
    exact h.begin (h.idle (by simp [hres])) rfl (by simp [notOwner, hzero])
  | @start e reply hconv hq hreply =>
    rw [worker_of_reply hreply]
    exact h.begin (h.idle (by simp [hres, hconv])) hq (hstart e hres hconv)
  | @wait e hconv =>
    obtain ⟨hbit, honly⟩ := hwait e hres hconv (by decide)
    have hne : ∀ r ∈ e.requests, r.instId ≠ req.instId := by
      simpa [onlyRequest] using honly
    have hreqs : requests { e with convertQ := e.convertQ ++ [req] } = e.requests ++ [req] := by
      simp [requests]
    refine h.join ?_ (fun hn => absurd hn hconv)
      ⟨?_, fun hready => absurd hready Bool.false_ne_true, ?_⟩ fun t' _ w hw => ?_
    · rw [hreqs, map_append, map_singleton]
      refine List.Nodup.append (h.apart e hres) (nodup_singleton _) ?_
      intro i hi hi'
      obtain ⟨r, hr, rfl⟩ := mem_map.mp hi
      exact hne r hr (mem_singleton.mp hi')
    · rw [hreqs]
      simp
    · simp [notOwner, hbit]
    · have hok := h.workerOk hres hw
      refine ⟨⟨?_, hok.turn, hok.notOwner⟩, hne _ hok.known⟩
      rw [hreqs]
      exact mem_append_left _ hok.known

/-! ## The end of a request -/

lemma SysOk.pop (h : SysOk isTable s) {e'} (hw : s.worker t = some ⟨req, true⟩)
    (he : s.entry = some e) (hreqs : e'.requests = e.convertQ)
    (hqueue : e'.converting = none → e'.convertQ = [])
    (hmap : ∀ i ≠ req.instId,
      Bitmap.hasBit e'.grantedMap i = true → Bitmap.hasBit e.grantedMap i = true) :
    SysOk isTable (s.done t (some e')) := by
  have hconv : e.converting = some req := (h.workerOk he hw).turn rfl
  have hcons := requests_of_converting hconv
  have hapart := h.apart e he
  rw [hcons, map_cons, nodup_cons] at hapart
  refine ⟨fun e1 he1 => ?_, fun e1 he1 hn => ?_, fun t' w hw' => ?_, h.one_done t (some e')⟩
  · cases he1
    rw [hreqs]
    exact hapart.2
  · cases he1
    exact hqueue hn
  · obtain ⟨hne, hw'⟩ := worker_of_done hw'
    have hok' := h.workerOk he hw'
    have hinst : w.req.instId ≠ req.instId := fun heq => hne (h.one t' t w _ hw' hw heq)
    refine ⟨e', rfl, ?_, fun hready => ?_, notOwner_of_grantedMap (hmap _ hinst) hok'.notOwner⟩
    · have hknown := hok'.known
      rw [hcons, mem_cons] at hknown
      rw [hreqs]
      rcases hknown with hknown | hknown
      · exact absurd (congrArg ReqInfo.instId hknown) hinst
      · exact hknown
    · have hsame := some.inj (hconv.symm.trans (hok'.turn hready))
      exact absurd (congrArg ReqInfo.instId hsame.symm) hinst

/-- A worker whose turn it is cancels its own request. -/
lemma SysOk.cancel (h : SysOk isTable s) (hw : s.worker t = some ⟨req, true⟩) :
    SysOk isTable (s.done t (drcCancelLockOwnerRequest s.entry req.instId).1) := by
  obtain ⟨e, he, hok⟩ := h.worker t _ hw
  have hconv : e.converting = some req := hok.turn rfl
  have hcancel : (drcCancelLockOwnerRequest s.entry req.instId).1 =
      some (drcConvertLockOwner e) := by
    rw [he]
    simp [drcCancelLockOwnerRequest, hconv]
  rw [hcancel]
  refine h.pop hw he (requests_convert e) (queue_convert e) fun i _ hi => ?_
  rwa [convert_grantedMap] at hi

lemma SysOk.claim (h : SysOk isTable s) {req} (hw : s.worker t = some ⟨req, true⟩) {r}
    (hclaim : drcClaimLockOwner isTable false s.entry req.instId req.reqMode = some r) :
    SysOk isTable (s.done t r.1) := by
  obtain ⟨e, he, hok⟩ := h.worker t _ hw
  have hconv : e.converting = some req := hok.turn rfl
  rcases drcClaimLockOwner_cases hclaim with ⟨hfalse, -⟩ | ⟨e1, c, he1, hclaimed⟩
  · cases hfalse
  cases he.symm.trans he1
  cases hconv.symm.trans hclaimed.converting
  rw [hclaimed.result]
  refine h.pop hw he (requests_convert _) (queue_convert _) fun i hi hbit => ?_
  rw [convert_grantedMap, hasBit_setBit] at hbit
  unfold claimMap at hbit
  split at hbit
  · simp [Ne.symm hi] at hbit
  · simpa [Ne.symm hi] using hbit

lemma SysOk.stop (h : SysOk isTable s) (t : Nat) : SysOk isTable (s.done t s.entry) where
  apart := h.apart
  queue := h.queue
  worker t' w hw := h.worker t' w (worker_of_done hw).2
  one := h.one_done t s.entry

/-- The converted request of the worker's instance is the worker's own. -/
lemma SysOk.poll (h : SysOk isTable s) (hw : s.worker t = some ⟨req, false⟩) {s'}
    (hstep : pollStep s t req = some s') : SysOk isTable s' := by
  obtain ⟨e, he, hstep⟩ := bind_eq_some_iff.mp hstep
  obtain ⟨reply, hreply, rfl⟩ := map_eq_some_iff.mp hstep
  have hok := h.workerOk he hw
  -- the worker joins once more in its own place
  have hjoin : ∀ ready, (ready = true → e.converting = some req) →
      SysOk isTable ⟨some e, update s.worker t (some ⟨req, ready⟩)⟩ := by
    intro ready hturn
    refine h.join (h.apart e he) (h.queue e he) ⟨hok.known, hturn, hok.notOwner⟩
      fun t' hne w' hw' => ⟨h.workerOk he hw', fun heq => ?_⟩
    exact hne (h.one t' t w' _ hw' hw heq)
  unfold drcPollLockOwner at hreply
  split at hreply
  · cases hreply
  rename_i c hconv
  cases hreply
  unfold Sys.answer
  split_ifs with hinst
  · have hmem : c ∈ e.requests := by
      rw [requests_of_converting hconv]
      exact mem_cons_self
    have hown : req = c := inj_on_of_nodup_map (h.apart e he) hok.known hmem hinst
    rw [worker_of_reply (grantReply_ne e req)]
    exact hjoin true fun _ => hown ▸ hconv
  · exact hjoin false nofun

lemma SysOk.step (h : SysOk isTable s) {a s'} (hok : stepOk isTable s a = true)
    (hstep : workerStep isTable s a = some s') : SysOk isTable s' := by
  cases a <;> simp only [workerStep] at hstep
  case request t env req =>
    obtain ⟨hfree, hstep⟩ := ite_none_right_eq_some.mp hstep
    obtain ⟨r, hr, rfl⟩ := map_eq_some_iff.mp hstep
    obtain ⟨hjoins, herror⟩ := drcRequestLockOwner_joins hr
    refine h.answer hfree hjoins (fun e he hconv => ?_) (fun e he hconv hne => ?_)
    · simpa [stepOk, he, hconv] using hok
    · have hbit : hasBit e.grantedMap req.instId = false := by
        by_contra hb
        exact hne (herror e he hconv (by simpa using hb))
      exact ⟨hbit, by simpa [stepOk, he, hconv, hbit] using hok⟩
  case tryRequest t env req =>
    obtain ⟨hfree, hstep⟩ := ite_none_right_eq_some.mp hstep
    obtain ⟨r, hr, rfl⟩ := map_eq_some_iff.mp hstep
    obtain ⟨hjoins, herror⟩ := drcTryRequestLockOwner_joins hr
    refine h.answer hfree hjoins (fun e he hconv => ?_)
      (fun e he hconv hne => absurd (herror e he hconv) hne)
    simpa [stepOk, he, hconv] using hok
  case poll t =>
    split at hstep
    · rename_i req hw
      exact h.poll hw hstep
    · cases hstep
  case stop t =>
    obtain ⟨w, -, rfl⟩ := map_eq_some_iff.mp hstep
    exact h.stop t
  case giveUp t =>
    split at hstep <;> cases hstep
    rename_i req hw
    exact h.cancel hw
  case claim t =>
    split at hstep
    · rename_i req hw
      obtain ⟨r, hr, rfl⟩ := map_eq_some_iff.mp hstep
      exact h.claim hw hr
    · cases hstep
  case reject t cancels =>
    split at hstep <;> cases hstep
    rename_i req hw
    cases cancels with
    | true => exact h.cancel hw
    | false => exact h.stop t
  case clear inst =>
    cases hstep
    exact h.shrink (shrinks_clear _ inst)
  case release inst =>
    cases hstep
    exact h.shrink (shrinks_release _ inst)
  case recycle reforming inst =>
    cases hstep
    exact h.shrink (shrinks_recycle reforming _ inst)

/-- A claim of a worker whose turn it is does not panic. -/
lemma WorkerOk.claim_ne_none (h : WorkerOk isTable e ⟨req, true⟩) :
    drcClaimLockOwner isTable false (some e) req.instId req.reqMode ≠ none := by
  have hconv : e.converting = some req := h.turn rfl
  have hno := h.notOwner
  have hfree : (hasBit (claimMap e req.reqMode) req.instId && !isTable) = false := by
    unfold claimMap
    split_ifs with hmode
    · simp
    · cases isTable with
      | true => simp
      | false => simpa [Dls.notOwner, hmode] using hno
  simp [drcClaimLockOwner, hconv, hfree]

end

/-- Whenever a worker that was granted the lock may claim it, the converted request is its own,
and the claim does not panic: as long as no instance requests the lock while a request of it is
in the entry, or (for a shared lock that is not a table lock) while it is an owner already. -/
theorem claim_meets_own_conversion (isTable : Bool) (s : Sys)
    (hs : ReachableBy (workerStep isTable) Sys.Fresh (fun s a => stepOk isTable s a = true) s)
    (t : Nat) (req : ReqInfo) (hw : s.worker t = some ⟨req, true⟩) :
    (∃ e, s.entry = some e ∧ e.converting = some req) ∧
      drcClaimLockOwner isTable false s.entry req.instId req.reqMode ≠ none := by
  have hok : SysOk isTable s :=
    hs.invariant (fun _ hf => SysOk.fresh hf) fun _ _ _ hok hs hstep => hs.step hok hstep
  obtain ⟨e, he, hworker⟩ := hok.worker t _ hw
  refine ⟨⟨e, he, hworker.turn rfl⟩, ?_⟩
  rw [he]
  exact hworker.claim_ne_none

def freshSys : Sys where
  entry := none
  worker _ := none

lemma freshSys_fresh : freshSys.Fresh := ⟨.inl rfl, fun _ => rfl⟩

/-- Instance 1 waits behind instance 0, which cancels and tries again afterwards. -/
def cancelAndRetry : List Action :=
  [.request 0 .quiet ⟨0, 1, 1, .share⟩, .request 1 .quiet ⟨1, 1, 2, .exclusive⟩, .poll 1,
   .giveUp 0, .request 0 .quiet ⟨0, 1, 3, .share⟩, .poll 1, .poll 0]

theorem claim_after_retry :
    ∃ s, ReachableBy (workerStep false) Sys.Fresh (fun s a => stepOk false s a = true) s ∧
      s.worker 1 = some ⟨⟨1, 1, 2, .exclusive⟩, true⟩ ∧
      (∃ e, s.entry = some e ∧ e.converting = some ⟨1, 1, 2, .exclusive⟩) ∧
      drcClaimLockOwner false false s.entry 1 .exclusive ≠ none := by
  obtain ⟨s, hrun, hs⟩ := exists_of_runOk_map (workerStep false) (stepOk false) freshSys
    cancelAndRetry (fun s => s.worker 1) (some ⟨⟨1, 1, 2, .exclusive⟩, true⟩) (by decide +kernel)
  have hreach := ReachableBy.of_runOk _ (.init freshSys_fresh) hrun
  exact ⟨s, hreach, hs, claim_meets_own_conversion false s hreach 1 _ hs⟩

/-- Instance 1 sends its request again while the first one is converted. The second one takes
the turn of the first, and instance 2 is next. -/
def retryTakesTurn : List Action :=
  [.request 0 .quiet ⟨1, 1, 1, .exclusive⟩, .request 1 .quiet ⟨2, 1, 1, .exclusive⟩,
   .request 2 .quiet ⟨1, 1, 2, .exclusive⟩, .poll 2, .claim 2]

theorem retried_claim_panics : ∃ s, Reachable (workerStep false) Sys.Fresh s ∧
      s.worker 0 = some ⟨⟨1, 1, 1, .exclusive⟩, true⟩ ∧
      s.entry.bind Entry.converting = some ⟨2, 1, 1, .exclusive⟩ ∧
      drcClaimLockOwner false false s.entry 1 .exclusive = none := by
  obtain ⟨s, hrun, hs⟩ := exists_of_run_map (workerStep false) freshSys retryTakesTurn
    (fun s => (s.worker 0, s.entry.bind converting,
      drcClaimLockOwner false false s.entry 1 .exclusive))
    (some ⟨⟨1, 1, 1, .exclusive⟩, true⟩, some ⟨2, 1, 1, .exclusive⟩, none) (by decide +kernel)
  simp only [Prod.mk.injEq] at hs
  exact ⟨s, .of_run _ (.init freshSys_fresh) hrun, hs.1, hs.2.1, hs.2.2⟩

end Cantian.Dls
