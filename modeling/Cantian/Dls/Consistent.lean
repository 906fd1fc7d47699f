import Cantian.Dls.Master

/-!
# The lock entry is consistent

The owners, the mode and the converting slot of an entry agree with each
other. Two calls can break that: a recycle that takes the last owner away
while a request is converted leaves the mode as it was, and a request for no
mode makes an owner without a mode.
-/

namespace Cantian.Dls

open Cantian.Lib

/-- The request that is converted and those that wait, in their order. -/
def Entry.requests (e : Entry) : List ReqInfo := e.converting.toList ++ e.convertQ

/-- The calls that keep the entry consistent. -/
def callOk (res : Option Entry) : Call → Bool
  | .request _ req => req.reqMode ≠ .null
  | .tryRequest _ req => req.reqMode ≠ .null
  | .recycle reforming inst =>
    match res with
    | none => true
    | some e =>
      reforming || e.converting.isNone || e.mode = .null ||
        Bitmap.clearBit e.grantedMap inst ≠ 0
  | _ => true

/-- The owners and the mode agree. -/
structure OwnersOk (mode : Mode) (map : BitVec 64) : Prop where
  null_iff : map = 0 ↔ mode = .null
  exclusive : mode = .exclusive → ∃! i, Bitmap.hasBit map i = true

structure EntryOk (e : Entry) : Prop where
  owners : OwnersOk e.mode e.grantedMap
  queue : e.converting = none → e.convertQ = []
  modes : ∀ r ∈ e.requests, r.reqMode ≠ .null

lemma EntryOk.create : EntryOk drcCreateLockRes where
  owners := ⟨⟨fun _ => rfl, fun _ => rfl⟩, nofun⟩
  queue _ := rfl
  modes r hr := by simp [Entry.requests, drcCreateLockRes] at hr

/-- A claim that was a success: it met its own request. -/
structure Claimed (e : Entry) (c : ReqInfo) (newId : Inst) (mode : Mode) (res' : Option Entry) :
    Prop where
  converting : e.converting = some c
  inst_eq : newId = c.instId
  mode_eq : mode = c.reqMode
  result : res' = some (drcConvertLockOwner
    { e with grantedMap := Bitmap.setBit (claimMap e mode) newId, mode := c.reqMode })

variable {res' : Option Entry} {e : Entry} {req : ReqInfo}

variable {isTable reforming : Bool} {mode : Mode}

lemma drcClaimLockOwner_cases {ok res newId}
    (h : drcClaimLockOwner isTable reforming res newId mode = some (res', ok)) :
    reforming = true ∧ res' = res ∨ ∃ e c, res = some e ∧ Claimed e c newId mode res' := by
  unfold drcClaimLockOwner at h
  split_ifs at h with hreform
  · cases h
    exact .inl ⟨hreform, rfl⟩
  split at h
  · cases h
  rename_i e
  split at h
  · cases h
  · rename_i c hconv
    obtain ⟨hmatch, h⟩ := Option.ite_none_right_eq_some.mp h
    split at h
    · cases h
    · cases h
      exact .inr ⟨e, c, rfl, hconv, hmatch.1, hmatch.2, rfl⟩

/-- The answer to a request: nothing changed, or the request is in the entry. -/
inductive Joins (req : ReqInfo) : Option Entry → Option Entry → Reply → Prop where
  | error (res : Option Entry) : Joins req res res .error
  | create {reply : Reply} (hreply : reply ≠ .error ∧ reply ≠ .queued) :
      Joins req none (some { drcCreateLockRes with converting := some req }) reply
  | start {e : Entry} {reply : Reply} (hconv : e.converting = none) (hq : e.convertQ = [])
      (hreply : reply ≠ .error ∧ reply ≠ .queued) :
      Joins req (some e) (some { e with converting := some req }) reply
  | wait {e : Entry} (hconv : e.converting ≠ none) :
      Joins req (some e) (some { e with convertQ := e.convertQ ++ [req] }) .queued

lemma grantReply_ne (e : Entry) (req : ReqInfo) :
    grantReply e req ≠ .error ∧ grantReply e req ≠ .queued := by
  unfold grantReply
  split <;> simp

lemma drcRequestLockOwner_joins {r env res} (h : drcRequestLockOwner env res req = some r) :
    Joins req res r.1 r.2 ∧
      ∀ e, res = some e → e.converting ≠ none → Bitmap.hasBit e.grantedMap req.instId = true →
        r.2 = .error := by
  unfold drcRequestLockOwner at h
  split at h
  · cases h
    exact ⟨.error res, fun _ _ _ _ => rfl⟩
  split at h
  · split at h
    · cases h
    · cases h
      exact ⟨.create ⟨nofun, nofun⟩, nofun⟩
  rename_i e
  split at h
  · rename_i hconv
    obtain ⟨hq, ⟨⟩⟩ := Option.ite_none_right_eq_some.mp h
    refine ⟨.start hconv hq (grantReply_ne e req), fun e' he' hn => ?_⟩
    cases he'
    exact absurd hconv hn
  · rename_i c hconv
    split at h
    · cases h
      exact ⟨.error _, fun _ _ _ _ => rfl⟩
    rename_i hbit
    split at h
    · cases h
      exact ⟨.error _, fun _ _ _ _ => rfl⟩
    · cases h
      refine ⟨.wait (by simp [hconv]), fun e' he' _ hb => ?_⟩
      cases he'
      exact absurd hb hbit

lemma drcTryRequestLockOwner_joins {r env res} (h : drcTryRequestLockOwner env res req = some r) :
    Joins req res r.1 r.2 ∧ ∀ e, res = some e → e.converting ≠ none → r.2 = .error := by
  unfold drcTryRequestLockOwner at h
  split at h
  · cases h
    exact ⟨.error res, fun _ _ _ => rfl⟩
  split at h
  · split at h
    · cases h
      exact ⟨.error none, fun _ _ _ => rfl⟩
    · cases h
      exact ⟨.create ⟨nofun, nofun⟩, nofun⟩
  · rename_i e
    split at h
    · rename_i hconv
      obtain ⟨hq, ⟨⟩⟩ := Option.ite_none_right_eq_some.mp h
      refine ⟨.start hconv hq ?_, fun e' he' hn => ?_⟩
      · split <;> simp
      · cases he'
        exact absurd hconv hn
    · cases h
      exact ⟨.error _, fun _ _ _ => rfl⟩

/-! ## What a step does to the owners -/

lemma OwnersOk.none : OwnersOk .null 0 := ⟨⟨fun _ => rfl, fun _ => rfl⟩, nofun⟩

lemma OwnersOk.share (map : BitVec 64) (i : Inst) : OwnersOk .share (Bitmap.setBit map i) where
  null_iff := ⟨fun h => absurd h (Bitmap.setBit_ne_zero map i), nofun⟩
  exclusive := nofun

lemma OwnersOk.alone (i : Inst) : OwnersOk .exclusive (Bitmap.setBit 0 i) where
  null_iff := ⟨fun h => absurd h (Bitmap.setBit_ne_zero 0 i), nofun⟩
  exclusive _ := by simp

lemma OwnersOk.clear {map : BitVec 64} (h : OwnersOk mode map) {i : Inst}
    (hleft : Bitmap.clearBit map i ≠ 0) : OwnersOk mode (Bitmap.clearBit map i) where
  null_iff := by
    refine ⟨fun hz => absurd hz hleft, fun hm => ?_⟩
    have hzero := h.null_iff.mpr hm
    exact absurd (Bitmap.eq_zero_iff.mpr fun j => by simp [Bitmap.eq_zero_iff.mp hzero j]) hleft
  exclusive hm := by
    -- the one owner is still there
    obtain ⟨k, hk, hone⟩ := h.exclusive hm
    have hki : k ≠ i := by
      intro hki
      apply hleft
      rw [show (0 : BitVec 64) = 0#64 from rfl, Bitmap.eq_zero_iff]
      intro j
      by_cases hj : Bitmap.hasBit map j = true
      · have := hone j hj
        simp [this, hki]
      · simp [hj]
    refine ⟨k, ?_, fun j hj => ?_⟩
    · simp [hk, Ne.symm hki]
    · have hj' : Bitmap.hasBit (Bitmap.clearBit map i) j = true := hj
      rw [Bitmap.hasBit_clearBit, Bool.and_eq_true] at hj'
      exact hone j hj'.1

/-! ## The calls -/

lemma EntryOk.convert (howners : OwnersOk e.mode e.grantedMap)
    (hmodes : ∀ r ∈ e.convertQ, r.reqMode ≠ .null) : EntryOk (drcConvertLockOwner e) := by
  unfold drcConvertLockOwner
  cases hq : e.convertQ with
  | nil =>
    refine ⟨howners, fun _ => rfl, fun r hr => ?_⟩
    simp [Entry.requests] at hr
  | cons =>
    refine ⟨howners, nofun, fun r hr => ?_⟩
    apply hmodes r
    rw [hq]
    simpa [Entry.requests] using hr

lemma EntryOk.startConverting (h : EntryOk e) (hq : e.convertQ = []) (hreq : req.reqMode ≠ .null) :
    EntryOk { e with converting := some req } := by
  refine ⟨h.owners, nofun, fun r hr => ?_⟩
  have hr' : r = req := by simpa [Entry.requests, hq] using hr
  rw [hr']
  exact hreq

lemma EntryOk.enqueue (h : EntryOk e) (hconv : e.converting ≠ none) (hreq : req.reqMode ≠ .null) :
    EntryOk { e with convertQ := e.convertQ ++ [req] } := by
  refine ⟨h.owners, fun hn => absurd hn hconv, fun r hr => ?_⟩
  have hr' : r ∈ e.requests ∨ r = req := by
    simpa [Entry.requests, or_assoc] using hr
  rcases hr' with hr' | rfl
  · exact h.modes r hr'
  · exact hreq

lemma EntryOk.clearGranted (h : EntryOk e) (inst : Inst) : EntryOk (Dls.clearGranted e inst) := by
  refine ⟨?_, h.queue, h.modes⟩
  unfold Dls.clearGranted
  dsimp only
  split_ifs with hz
  · rw [hz]
    exact OwnersOk.none
  · exact h.owners.clear hz

/-- The entry, if there is one, is consistent. -/
def ResOk (res : Option Entry) : Prop := ∀ e, res = some e → EntryOk e

lemma ResOk.none : ResOk none := nofun

lemma ResOk.some (h : EntryOk e) : ResOk (some e) := by
  intro e' he
  cases he
  exact h

lemma ResOk.fresh {res} (h : FreshEntry res) : ResOk res := by
  rcases h with rfl | rfl
  · exact .none
  · exact .some .create

section
variable {res : Option Entry} (h : ResOk res)
include h

lemma ResOk.joins {reply} (hreq : req.reqMode ≠ .null) (hjoins : Joins req res res' reply) :
    ResOk res' := by
  cases hjoins with
  | error => exact h
  | create => exact .some (EntryOk.create.startConverting rfl hreq)
  | start _ hq => exact .some ((h _ rfl).startConverting hq hreq)
  | wait hconv => exact .some ((h _ rfl).enqueue hconv hreq)

lemma ResOk.drcCancelLockOwnerRequest (inst : Inst) :
    ResOk (drcCancelLockOwnerRequest res inst).1 := by
  unfold Dls.drcCancelLockOwnerRequest
  split
  · exact .none
  · rename_i e
    have he := h e rfl
    split
    · refine .some (EntryOk.convert he.owners fun r hr => he.modes r ?_)
      simp [Entry.requests, hr]
    · exact h

lemma ResOk.drcClaimLockOwner {ok newId}
    (hcall : drcClaimLockOwner isTable reforming res newId mode = Option.some (res', ok)) :
    ResOk res' := by
  rcases drcClaimLockOwner_cases hcall with ⟨-, hsame⟩ | ⟨e, c, rfl, hclaim⟩
  · rw [hsame]
    exact h
  have he := h e rfl
  rw [hclaim.result]
  refine .some (EntryOk.convert ?_ fun r hr => he.modes r ?_)
  · have hmode := he.modes c (by simp [Entry.requests, hclaim.converting])
    rw [hclaim.mode_eq]
    unfold claimMap
    cases hm : c.reqMode with
    | null => exact absurd hm hmode
    | share =>
      exact OwnersOk.share _ _
    | exclusive =>
      exact OwnersOk.alone _
  · simp only [Entry.requests, List.mem_append]
    exact .inr hr

lemma ResOk.drcReleaseLockOwner (oldId : Inst) : ResOk (drcReleaseLockOwner res oldId).1 := by
  unfold Dls.drcReleaseLockOwner
  split
  · exact .none
  · rename_i e
    split
    · dsimp only
      split
      · exact .some ((h e rfl).clearGranted oldId)
      · exact .none
    · exact h

lemma ResOk.drcRecycleDlsMaster {inst} (hok : callOk res (.recycle reforming inst) = true) :
    ResOk (drcRecycleDlsMaster reforming res inst).1 := by
  unfold Dls.drcRecycleDlsMaster
  split_ifs with hreform
  · exact h
  split
  · exact .none
  rename_i e
  have he := h e rfl
  dsimp only
  split
  · exact .none
  rename_i hkept
  refine .some ⟨?_, he.queue, he.modes⟩
  by_cases hz : Bitmap.clearBit e.grantedMap inst = 0
  · -- the last owner goes: there was none before, since the request is still converted
    have hmode : e.mode = .null := by
      simp only [callOk, hreform, hz, Bool.false_or, ne_eq, not_true_eq_false, decide_false,
        Bool.or_false, Bool.or_eq_true, decide_eq_true_eq] at hok
      rcases hok with hok | hok
      · simp [hok, hz] at hkept
      · exact hok
    rw [hmode, hz]
    exact OwnersOk.none
  · exact he.owners.clear hz

lemma ResOk.dlsClearGrantedMapForInst (inst : Inst) :
    ResOk (dlsClearGrantedMapForInst res inst) := by
  intro e he
  obtain ⟨e0, rfl, rfl⟩ := Option.map_eq_some_iff.mp he
  exact (h e0 rfl).clearGranted inst

lemma ResOk.callStep {c} (hok : callOk res c = true)
    (hstep : callStep isTable res c = Option.some res') : ResOk res' := by
  cases c with
  | request =>
    obtain ⟨⟨r, reply⟩, hcall, rfl⟩ := Option.map_eq_some_iff.mp hstep
    exact h.joins (by simpa [callOk] using hok) (drcRequestLockOwner_joins hcall).1
  | tryRequest =>
    obtain ⟨⟨r, reply⟩, hcall, rfl⟩ := Option.map_eq_some_iff.mp hstep
    exact h.joins (by simpa [callOk] using hok) (drcTryRequestLockOwner_joins hcall).1
  | claim =>
    obtain ⟨⟨r, ok⟩, hcall, rfl⟩ := Option.map_eq_some_iff.mp hstep
    exact h.drcClaimLockOwner hcall
  | cancel inst =>
    cases hstep
    exact h.drcCancelLockOwnerRequest inst
  | release oldId =>
    cases hstep
    exact h.drcReleaseLockOwner oldId
  | recycle =>
    cases hstep
    exact h.drcRecycleDlsMaster hok
  | clear inst =>
    cases hstep
    exact h.dlsClearGrantedMapForInst inst

end

/-- In every sequence of calls on a fresh entry, the owners, the mode and the converting slot
agree, as long as no request asks for no mode and no recycle takes the last owner away while a
request is converted. -/
theorem lock_entry_consistent (isTable : Bool) {res : Option Entry}
    (hres : ReachableBy (callStep isTable) FreshEntry (fun r c => callOk r c = true) res)
    (e : Entry) (he : res = some e) : (e.grantedMap = 0 ↔ e.mode = .null) ∧
      (e.mode = .exclusive → ∃! i, Bitmap.hasBit e.grantedMap i = true) ∧
      (e.converting = none → e.convertQ = []) := by
  have hok : ResOk res :=
    hres.invariant (fun _ hf => ResOk.fresh hf) fun _ _ _ hok hr hstep => hr.callStep hok hstep
  obtain ⟨howners, hqueue, -⟩ := hok e he
  exact ⟨howners.null_iff, howners.exclusive, hqueue⟩

/-- Instance 0 has the lock; instance 1 waits for it and gets it after instance 0 gave it up. -/
def handOver : List Call :=
  [.request .quiet ⟨0, 1, 1, .exclusive⟩, .claim false 0 .exclusive,
   .request .quiet ⟨1, 1, 2, .share⟩, .request .quiet ⟨2, 1, 3, .share⟩,
   .clear 0, .claim false 1 .share, .claim false 2 .share]

theorem lock_entry_hand_over :
    ∃ e, ReachableBy (callStep false) FreshEntry (fun r c => callOk r c = true) (some e) ∧
      e.mode = .share ∧ e.grantedMap = 6 ∧ (e.grantedMap = 0 ↔ e.mode = .null) ∧
      (e.mode = .exclusive → ∃! i, Bitmap.hasBit e.grantedMap i = true) ∧
      (e.converting = none → e.convertQ = []) := by
  obtain ⟨res, hrun, hres⟩ := exists_of_runOk_map (callStep false) callOk none handOver id
    (some ⟨.share, 6, none, []⟩) (by decide +kernel)
  have hreach : ReachableBy (callStep false) FreshEntry (fun r c => callOk r c = true) res :=
    ReachableBy.of_runOk _ (.init (.inl rfl)) hrun
  subst hres
  exact ⟨_, hreach, rfl, rfl, lock_entry_consistent false hreach _ rfl⟩

/-- Instance 0 is recycled while the request of instance 1 is converted. -/
def recycleWhileConverting : List Call :=
  [.request .quiet ⟨0, 1, 1, .exclusive⟩, .claim false 0 .exclusive,
   .request .quiet ⟨1, 1, 2, .exclusive⟩, .recycle false 0]

theorem recycle_leaves_mode :
    ∃ e, Reachable (callStep false) FreshEntry (some e) ∧ e.grantedMap = 0 ∧
      e.mode = .exclusive := by
  obtain ⟨res, hrun, hres⟩ := exists_of_run_map (callStep false) none recycleWhileConverting id
    (some ⟨.exclusive, 0, some ⟨1, 1, 2, .exclusive⟩, []⟩) (by decide +kernel)
  have hreach : Reachable (callStep false) FreshEntry res := .of_run _ (.init (.inl rfl)) hrun
  subst hres
  exact ⟨_, hreach, rfl, rfl⟩

end Cantian.Dls
