import Cantian.Drc.PageRes

/-!
# The converting slot and the convert queue

`Change` lists what one call can do to the converting slot and the queue of
an entry, the queue taken as the list of its requests. That the linked items
represent this list, with every item of the pool in one place, is kept by
each function next to it. The bounds on the entries of one instance and on
the read-only copies are then proved from what a call can change.

`Dcs.Drc` has the same functions for the page protocol, on an entry that has
an owner and whose queue is this list. Each function on linked items is the
one of the protocol, as long as the pool has an item left.
-/

namespace Cantian.Drc

open Lib Dcs List Option

/-! ## What a call changes -/

/-- A call changes the converting slot and the queue. Only a request adds
anything. -/
inductive Change : Call → Option DrcReqInfo → List DrcReqInfo →
    Option DrcReqInfo → List DrcReqInfo → Prop where
  /-- Requests leave; with an empty slot there is no queue. -/
  | leave {a cvt l cvt' l'} (hsub : (cvt'.toList ++ l').Sublist (cvt.toList ++ l))
      (hidle : cvt' = none → l' = []) : Change a cvt l cvt' l'
  | start {req isTry env} : Change (.request req isTry env) none [] (some req) []
  | retry {req isTry env cvt l} (hcvt : drcIsRetryRequest cvt req = true) :
      Change (.request req isTry env) (some cvt) l
        (some { req with reqMode := cvt.reqMode.max req.reqMode }) l
  | replace {req isTry env cvt l₁ r l₂} (hcvt : drcIsRetryRequest cvt req = false)
      (hl₁ : ∀ r ∈ l₁, drcIsRetryRequest r req = false) (hr : drcIsRetryRequest r req = true) :
      Change (.request req isTry env) (some cvt) (l₁ ++ r :: l₂) (some cvt) (l₁ ++ req :: l₂)
  | append {req isTry env cvt l} (hcvt : drcIsRetryRequest cvt req = false)
      (hl : ∀ r ∈ l, drcIsRetryRequest r req = false) :
      Change (.request req isTry env) (some cvt) l (some cvt) (l ++ [req])

section
variable {n : Nat} {p p' : LockItemPool} {q : LinkedQueue} {other : List Nat}
  {l : List DrcReqInfo} {e e' : BufRes} {req req' cvt : DrcReqInfo} {c : ClaimInfo}
  {isTry isRetry : Bool} {env : ReqEnv}

lemma Change.same {a cvt} (hidle : cvt = none → l = []) : Change a cvt l cvt l :=
  .leave (List.Sublist.refl _) hidle

lemma Change.clear (a : Call) (cvt : Option DrcReqInfo) (l : List DrcReqInfo) :
    Change a cvt l none [] :=
  .leave (nil_sublist _) fun _ => rfl

lemma Change.idle {a cvt cvt' l l'} (h : Change a cvt l cvt' l') : cvt' = none → l' = [] := by
  cases h with
  | leave _ hidle => exact hidle
  | start | retry | replace | append => exact fun hnone => absurd hnone (some_ne_none _)

/-! ## The entry of the protocol -/

/-- The entry with owner `o` that `e` stands for. -/
def toDcs (o : InstId) (e : BufRes) (l : List DrcReqInfo) (time : Nat) : DrcBufRes where
  claimedOwner := o
  mode := e.mode
  readonlyCopies := e.readonlyCopies
  edpMap := e.edpMap
  pending := decide (e.pending = .pending)
  lsn := e.lsn
  converting := e.converting
  cvtTime := time
  convertQ := l

variable {o : InstId} {time : Nat}

lemma drcCheckNewReq_toDcs (ho : e.claimedOwner = some o) (cvt req : DrcReqInfo) :
    Dcs.drcCheckNewReq (toDcs o e l time) cvt req = drcCheckNewReq e cvt req := by
  simp only [Dcs.drcCheckNewReq, drcCheckNewReq, toDcs, ho, bne, Option.some_beq_some,
    BEq.comm (a := o)]
  rfl

/-! ## Requests -/

variable (n time p other o e l) in
/-- What `drc_keep_requester_wait` decides in the two models, and what the
call `a` does to the slot and the queue by that. -/
inductive WaitRefines (a : Call) : WaitResult → Dcs.WaitResult → Prop
  | error : WaitRefines a .error .error
  | noItem {r : Dcs.WaitResult} (hfull : p.alloc = none) : WaitRefines a .error r
  | converting {req : DrcReqInfo} {isRetry : Bool}
      (hchange : Change a e.converting l (some req) l) :
      WaitRefines a (.converting { e with converting := some req } req isRetry)
        (.converting (toDcs o { e with converting := some req } l req.rsn) req isRetry)
  | waiting {p' : LockItemPool} {q : LinkedQueue} {l' : List DrcReqInfo}
      (hq : Queued p' n q other l') (hchange : Change a e.converting l e.converting l') :
      WaitRefines a (.waiting p' { e with convertQ := q })
        (.waiting (toDcs o { e with convertQ := q } l' time))

lemma drcReplaceItem_append {l1 l2 r} (hl1 : ∀ x ∈ l1, drcIsRetryRequest x req = false)
    (hr : drcIsRetryRequest r req = true) :
    drcReplaceItem req (l1 ++ r :: l2) = l1 ++ req :: l2 := by
  induction l1 with
  | nil => simp [drcReplaceItem, hr]
  | cons x l1 ih =>
    obtain ⟨hx, hl1⟩ := forall_mem_cons.mp hl1
    rw [cons_append, drcReplaceItem, hx, ih hl1]
    rfl

lemma enqueueRequest_refines {a} (hq : Queued p n e.convertQ other l)
    (hchange : Change a e.converting l e.converting (l ++ [req])) :
    WaitRefines n p other l e o time a (enqueueRequest p e req)
      (.waiting { toDcs o e l time with convertQ := l ++ [req] }) := by
  unfold enqueueRequest
  cases halloc : p.alloc with
  | none => exact .noItem halloc
  | some x => exact .waiting (hq.push halloc req) hchange

theorem drcKeepRequesterWait_refines (ho : e.claimedOwner = some o)
    (hq : Queued p n e.convertQ other l) (hidle : e.converting = none → l = []) :
    WaitRefines n p other l e o time (.request req isTry env)
      (drcKeepRequesterWait n p e req isTry)
      (Dcs.drcKeepRequesterWait (toDcs o e l time) req isTry) := by
  have hcheck : ∀ cvt, Dcs.drcCheckNewReq (toDcs o e l time) cvt req = drcCheckNewReq e cvt req :=
    fun cvt => drcCheckNewReq_toDcs ho cvt req
  unfold drcKeepRequesterWait Dcs.drcKeepRequesterWait
  obtain ⟨_, mode, copies, edpMap, latestEdp, latestEdpLsn, lsn, action, converting, q⟩ := e
  cases ho
  cases converting with
  | none =>
    obtain rfl : l = [] := hidle rfl
    have hcount : q.count = 0 := hq.count
    simp only [toDcs, hcount, ne_eq, not_true, if_false, Bool.and_eq_true, bne_iff_ne,
      Option.some.injEq]
    split
    · exact .waiting hq (.same hidle)
    · exact .converting .start
  | some cvt =>
    simp only [toDcs] at hcheck ⊢
    simp only [hcheck]
    split
    · exact .waiting hq (.same hidle)
    split
    · exact .error
    split
    next hretry =>
      split
      · exact .converting (.retry hretry)
      · exact .error
    next hretry =>
    rw [Bool.not_eq_true] at hretry
    -- the queue: the item of the request is replaced, or one more goes to the end
    by_cases hcount : 0 < q.count
    · rw [if_pos hcount]
      cases hsearch : drcSearchItemByReqid n p q req with
      | some i =>
        obtain ⟨l1, l2, rfl, hr, hl1, hq'⟩ := hq.replace hsearch req
        have hfind : (l1 ++ (p.cell i).val :: l2).find? (drcIsRetryRequest · req) =
            some (p.cell i).val := by
          simp only [find?_append, find?_eq_none.mpr (by simpa using hl1), find?_cons, hr,
            Option.none_or]
        rw [hfind, drcReplaceItem_append hl1 hr]
        dsimp only
        split
        · exact .error
        · exact .waiting hq' (.replace hretry hl1 hr)
      | none =>
        have hnone := hq.search_none hsearch
        rw [find?_eq_none.mpr (by simpa using hnone)]
        exact enqueueRequest_refines hq (.append hretry hnone)
    · rw [if_neg hcount]
      obtain rfl : l = [] :=
        eq_nil_of_length_eq_zero (hq.count.symm.trans (Nat.eq_zero_of_not_pos hcount))
      exact enqueueRequest_refines hq (.append hretry fun _ h => absurd h not_mem_nil)

lemma afterInvalidate_eq (e : BufRes) (req : DrcReqInfo) (b : Bool) :
    ∃ ro, afterInvalidate e req b = { e with readonlyCopies := ro } ∧
      (ro = e.readonlyCopies ∨ ro = ∅) := by
  unfold afterInvalidate
  split
  · exact ⟨∅, rfl, .inr rfl⟩
  · exact ⟨_, rfl, .inl rfl⟩

/-- A page with an owner keeps its owner, its mode and its copies, as far as
they are not invalidated. -/
lemma drcRequestOwnedPage_spec {res} (ho : e.claimedOwner ≠ none)
    (hq : Queued p n e.convertQ other l) (hidle : e.converting = none → l = [])
    (h : drcRequestOwnedPage n p e req isTry env = some res) : ∃ cvt q ro l', res.entry =
        some { e with converting := cvt, convertQ := q, readonlyCopies := ro } ∧
      Queued res.pool n q other l' ∧
      Change (.request req isTry env) e.converting l cvt l' ∧
      (ro = e.readonlyCopies ∨ ro = ∅) := by
  obtain ⟨o, ho⟩ := ne_none_iff_exists'.mp ho
  obtain ⟨r, hwait⟩ : ∃ r, WaitRefines n p other l e o 0 (.request req isTry env)
      (drcKeepRequesterWait n p e req isTry) r := ⟨_, drcKeepRequesterWait_refines ho hq hidle⟩
  unfold drcRequestOwnedPage at h
  generalize drcKeepRequesterWait n p e req isTry = w at hwait h
  cases hwait with
  | error | noItem =>
    cases h
    exact ⟨_, _, _, l, rfl, hq, .same hidle, .inl rfl⟩
  | waiting hq' hchange =>
    cases h
    exact ⟨_, _, _, _, rfl, hq', hchange, .inl rfl⟩
  | @converting req' isRetry hchange =>
    simp only at h
    split at h
    · cases h
    cases h
    obtain ⟨ro, hro, hsame⟩ :=
      afterInvalidate_eq { e with converting := some req' } req' env.invalidated
    rw [hro]
    exact ⟨_, _, ro, l, rfl, hq, hchange, hsame⟩

/-- A new owner is found if there is a read-only copy or an earlier dirty page. -/
lemma drcCleanBufRes_spec (h : drcCleanBufRes e = some e') :
    ∃ o pd ro, e' = { e with claimedOwner := o, pending := pd, readonlyCopies := ro } ∧
      (e.mode ≠ .share → ro = ∅) ∧
      (o = none → e.edpMap = ∅ ∧ (e.claimedOwner = none → ro = ∅)) := by
  unfold drcCleanBufRes at h
  split at h
  · split at h
    · cases h
    rename_i hro hmode
    rw [not_not] at hmode
    cases h
    refine ⟨_, _, _, rfl, fun hne => absurd hmode hne, fun hnone => ?_⟩
    -- one of the copies is found, so there is an owner
    exfalso
    obtain ⟨i, hi⟩ := Finset.nonempty_iff_ne_empty.mpr hro
    have hnone' := find?_eq_none.mp hnone i (mem_finRange i)
    simp [hi] at hnone'
  · rename_i hro
    rw [not_not] at hro
    split at h
    · split at h
      · cases h
      rename_i hlatest
      cases h
      exact ⟨_, _, _, rfl, fun _ => hro, fun hnone => absurd (Or.inl hnone) hlatest⟩
    · rename_i hmap
      cases h
      exact ⟨_, _, _, rfl, fun _ => hro, fun _ => ⟨not_not.mp hmap, fun _ => hro⟩⟩

/-! ## Claims -/

/-- A claim says again what the entry holds, or records the new owner. -/
lemma drcClaimNewPageOwner_cases (h : drcClaimNewPageOwner e cvt c = some e') :
    e' = { e with pending := .invalid } ∨
      ¬(c.mode ≤ e.mode ∧ e.claimedOwner = some c.newId) ∧
        ∃ n, e' = { recordOwner { e with pending := .invalid } c with lsn := n } := by
  unfold drcClaimNewPageOwner at h
  split at h
  · cases h
  simp only at h
  split at h
  · cases h
    exact .inl rfl
  rename_i hnew
  split at h
  · cases h
  split at h
  · cases h
  split at h
  · split at h
    · cases h
    cases h
    exact .inr ⟨hnew, _, rfl⟩
  · cases h
    exact .inr ⟨hnew, _, rfl⟩

/-- A claim changes neither the slot nor the queue before the next request is
taken, and an exclusive owner is alone. -/
lemma drcClaimNewPageOwner_spec (h : drcClaimNewPageOwner e cvt c = some e') :
    e'.convertQ = e.convertQ ∧
      ((e'.mode = e.mode ∧ e'.readonlyCopies = e.readonlyCopies) ∨ e'.mode = .share ∨
        e'.readonlyCopies = ∅) := by
  rcases drcClaimNewPageOwner_cases h with rfl | ⟨-, n, rfl⟩
  · exact ⟨rfl, .inl ⟨rfl, rfl⟩⟩
  · unfold recordOwner
    split
    · exact ⟨rfl, .inr (.inl rfl)⟩
    · exact ⟨rfl, .inr (.inr rfl)⟩

variable {timeout now : Nat}

lemma drcPopConvertQ_idle (time : Nat) (h : (drcPopConvertQ timeout now time l).1 = none) :
    (drcPopConvertQ timeout now time l).2.2 = [] := by
  induction l generalizing time with
  | nil => rfl
  | cons r l ih =>
    rw [drcPopConvertQ] at h ⊢
    split_ifs at h ⊢
    exact ih _ h

section
variable (hq : Queued p n e.convertQ other l)
include hq

variable (timeout now) in
/-- The loop takes the requests from the queue that the protocol takes from
its list. -/
lemma convertLoop_queued (time : Nat) : ∃ p' q, convertLoop timeout now l.length p e =
      some (p', { e with converting := (drcPopConvertQ timeout now time l).1, convertQ := q }) ∧
    Queued p' n q other (drcPopConvertQ timeout now time l).2.2 := by
  induction l generalizing p e time with
  | nil => exact ⟨p, _, rfl, hq⟩
  | cons r l ih =>
    obtain ⟨i, hfirst, hval, hq'⟩ := hq.pop
    rw [length_cons, convertLoop]
    simp only [hfirst, hval, drcPopConvertQ]
    split
    · exact ih hq' r.rsn
    · exact ⟨_, _, rfl, hq'⟩

variable (time) in
/-- The first request is taken out or stays; its item is returned later. -/
lemma drcCheckFirstReqInConvertQueue_queued : ∃ q conflict l',
    drcCheckFirstReqInConvertQueue p e = ({ e with convertQ := q }, conflict) ∧
      Queued (conflict.elim p p.free) n q other l' ∧ l'.Sublist l ∧
      (e.converting = none → l' = l) ∧ ∀ o, e.claimedOwner = some o →
        Dcs.drcCheckFirstReqInConvertQueue (toDcs o e l time) =
          (toDcs o { e with convertQ := q } l' time, conflict.map fun i => (p.cell i).val) := by
  have hcheck : ∀ o, e.claimedOwner = some o → ∀ cvt r,
      Dcs.drcCheckNewReq (toDcs o e l time) cvt r = drcCheckNewReq e cvt r :=
    fun o ho => drcCheckNewReq_toDcs ho
  unfold drcCheckFirstReqInConvertQueue Dcs.drcCheckFirstReqInConvertQueue
  obtain ⟨owner, mode, copies, edpMap, latestEdp, latestEdpLsn, lsn, action, converting, q⟩ := e
  cases converting with
  | none => exact ⟨q, none, l, rfl, hq, List.Sublist.refl l, fun _ => rfl, fun _ _ => rfl⟩
  | some cvt =>
    cases l with
    | nil =>
      have hcount : q.count = 0 := hq.count
      simp only [hcount, ne_eq, not_true, false_and, if_false]
      exact ⟨q, none, [], by split <;> rfl, hq, List.Sublist.refl _, fun _ => rfl, fun _ _ => rfl⟩
    | cons r l =>
      obtain ⟨i, hfirst, rfl, hq'⟩ := hq.pop
      have hcount : q.count ≠ 0 := by
        rw [show q.count = _ from hq.count]
        exact Nat.succ_ne_zero _
      dsimp only [toDcs] at hcheck ⊢
      rw [show q.first = some i from hfirst]
      simp only [hcount, ne_eq, not_false_iff, true_and]
      cases hnew : drcCheckNewReq _ cvt (p.cell i).val with
      | false =>
        refine ⟨_, some i, l, rfl, hq', sublist_cons_self _ l, nofun, fun o ho => ?_⟩
        simp only [hcheck o ho, hnew]
        rfl
      | true =>
        refine ⟨q, none, _, rfl, hq, List.Sublist.refl _, nofun, fun o ho => ?_⟩
        simp only [hcheck o ho, hnew]
        rfl

variable (time timeout now) in
lemma drcConvertNextRequest_queued : ∃ p' cvt q conflict l' t,
    drcConvertNextRequest timeout now p e =
        some (p', { e with converting := cvt, convertQ := q }, conflict) ∧
      Queued (conflict.elim p' p'.free) n q other l' ∧ (cvt.toList ++ l').Sublist l ∧
      (cvt = none → l' = []) ∧ ∀ o, e.claimedOwner = some o →
        Dcs.drcConvertNextRequest timeout now (toDcs o e l time) =
          (toDcs o { e with converting := cvt, convertQ := q } l' t,
            conflict.map fun i => (p'.cell i).val) := by
  obtain ⟨p₁, q₁, hloop, hq₁⟩ := convertLoop_queued timeout now hq time
  obtain ⟨q₂, conflict, l₂, hcheck, hq₂, hsub, hsame, hdcs⟩ :=
    drcCheckFirstReqInConvertQueue_queued (drcPopConvertQ timeout now time l).2.1
      (e := { e with converting := (drcPopConvertQ timeout now time l).1, convertQ := q₁ }) hq₁
  refine ⟨p₁, _, q₂, conflict, l₂, (drcPopConvertQ timeout now time l).2.1, ?_, hq₂,
    (List.Sublist.append_left hsub _).trans (drcPopConvertQ_sublist timeout now l time),
    fun hnone => (hsame hnone).trans (drcPopConvertQ_idle time hnone), hdcs⟩
  rw [drcConvertNextRequest, hq.count, hloop, Option.map_some]
  exact congrArg (fun x => some (p₁, x)) hcheck

/-- A claim takes its request and perhaps others out of the slot and the
queue. -/
lemma drcClaimPageOwner_spec {invalidated res} (hidle : e.converting = none → l = [])
    (h : drcClaimPageOwner timeout now p (some e) c invalidated = some res) :
    ∃ e' l', res.entry = some e' ∧ Queued res.pool n e'.convertQ other l' ∧
      Change (.claim c now invalidated) e.converting l e'.converting l' ∧
     ((e'.mode = e.mode ∧ e'.readonlyCopies = e.readonlyCopies) ∨ e'.mode = .share ∨
        e'.readonlyCopies = ∅) := by
  simp only [drcClaimPageOwner] at h
  split at h
  · cases h
    exact ⟨e, l, rfl, hq, .same hidle, .inl ⟨rfl, rfl⟩⟩
  rename_i cvt hcvt
  split at h
  · cases h
    exact ⟨e, l, rfl, hq, .same hidle, .inl ⟨rfl, rfl⟩⟩
  split at h
  · cases h
  rename_i e1 hclaim
  obtain ⟨hqueue, hmode⟩ := drcClaimNewPageOwner_spec hclaim
  split at h
  · cases h
  rename_i p2 e2 conflict hnext
  rw [← hqueue] at hq
  obtain ⟨p₃, cvt', q2, conflict', l2, -, hnext', hq2, hsub, hidle2, -⟩ :=
    drcConvertNextRequest_queued 0 timeout now hq
  cases hnext.symm.trans hnext'
  have hchange : Change (.claim c now invalidated) e.converting l cvt' l2 :=
    .leave (hsub.trans (sublist_append_right _ _)) hidle2
  cases h
  cases cvt' with
  | none => exact ⟨_, l2, rfl, hq2, hchange, hmode⟩
  | some req =>
    obtain ⟨ro, hro, hcopies⟩ := afterInvalidate_eq
     { e1 with converting := some req, convertQ := q2 } req invalidated
    refine ⟨{ e1 with converting := some req, convertQ := q2, readonlyCopies := ro }, l2, ?_, hq2,
      hchange, ?_⟩
    · exact congrArg some hro
    · rcases hcopies with rfl | rfl
      · exact hmode
      · exact .inr (.inr rfl)

end

/-! ## Cleaning after an instance died -/

lemma cleanLoop_queued (instId : InstId) (hq : Queued p n q other l) :
    Queued (cleanLoop instId l.length p q.first).1 n .empty other [] := by
  induction l generalizing p q with
  | nil => exact hq.renew
  | cons r l ih =>
    obtain ⟨i, hfirst, -, hq'⟩ := hq.pop
    rw [length_cons, hfirst]
    exact ih hq'

lemma drcCleanConvertQ_queued (instId : InstId) (hq : Queued p n q other l) :
    ∃ p' q' rejected, drcCleanConvertQ instId p q = (p', q', rejected) ∧
      Queued p' n q' other [] ∧ q'.count = 0 := by
  unfold drcCleanConvertQ
  split_ifs with hcount
  · obtain rfl : l = [] := eq_nil_of_length_eq_zero (hq.count.symm.trans hcount)
    exact ⟨p, q, [], rfl, hq, hcount⟩
  · rw [hq.count]
    exact ⟨_, _, _, rfl, cleanLoop_queued instId hq, rfl⟩

/-- The mode that the cleaning of a converting page leaves. -/
lemma drcRevertConvertingPageAbortOwner_spec (self : InstId) (ctrl : Option BufCtrl) (e : BufRes) :
    ∃ o md ro em le ll, drcRevertConvertingPageAbortOwner self ctrl e =
        { e with
          claimedOwner := o, mode := md, readonlyCopies := ro, edpMap := em, latestEdp := le,
          latestEdpLsn := ll } ∧
      ((md = e.mode ∧ ro = e.readonlyCopies) ∨
        ∃ b, ctrl = some b ∧ md = b.lockMode ∧ ro ⊆ e.readonlyCopies) := by
  unfold drcRevertConvertingPageAbortOwner
  cases ctrl with
  | none => exact ⟨_, _, _, _, _, _, rfl, .inl ⟨rfl, rfl⟩⟩
  | some b =>
    have hsub : e.readonlyCopies.erase self ⊆ e.readonlyCopies := Finset.erase_subset _ _
    by_cases hnull : b.lockMode = .null
    · simp only [hnull, if_true]
      split <;> exact ⟨_, _, _, _, _, _, rfl, .inr ⟨b, rfl, hnull.symm, hsub⟩⟩
    · simp only [hnull, if_false]
      split <;> exact ⟨_, _, _, _, _, _, rfl, .inr ⟨b, rfl, rfl, subset_rfl⟩⟩

lemma drcRevertConvertingPageNonAbortOwner_spec (ctrl : Option BufCtrl) (cvt : DrcReqInfo)
    (e : BufRes) : ∃ o, (drcRevertConvertingPageNonAbortOwner ctrl cvt e).1 =
      { e with converting := none, claimedOwner := o } := by
  unfold drcRevertConvertingPageNonAbortOwner
  split
  · exact ⟨_, rfl⟩
  · split <;> exact ⟨_, rfl⟩

/-- With an empty queue the slot becomes empty, and the pool is not touched.
The mode changes only when the converting request is of the dead instance
and the page is in the local buffer. -/
lemma drcCleanPageConverting_spec (instId self : InstId) (ctrl : Option BufCtrl) (p : LockItemPool)
    (hcount : e.convertQ.count = 0) :
    ∃ o md ro em le ll rejected, drcCleanPageConverting instId self ctrl p e =
        (p, { e with
              claimedOwner := o, mode := md, readonlyCopies := ro, edpMap := em, latestEdp := le,
              latestEdpLsn := ll, converting := none }, rejected) ∧
      ((md = e.mode ∧ ro = e.readonlyCopies) ∨
        ∃ b cvt, ctrl = some b ∧ e.converting = some cvt ∧ cvt.instId = instId ∧
          md = b.lockMode ∧ ro ⊆ e.readonlyCopies) := by
  unfold drcCleanPageConverting
  split
  · rename_i hnone
    exact ⟨_, _, _, _, _, _, [], by rw [← hnone], .inl ⟨rfl, rfl⟩⟩
  rename_i cvt hcvt
  split_ifs with hinst
  · obtain ⟨o, md, ro, em, le, ll, heq, hmode⟩ :=
      drcRevertConvertingPageAbortOwner_spec self ctrl { e with converting := none }
    refine ⟨o, md, ro, em, le, ll, [], ?_, hmode.imp id fun hb => ?_⟩
    · rw [heq]
    · obtain ⟨b, hb, hm, hro⟩ := hb
      exact ⟨b, cvt, hb, hcvt, hinst, hm, hro⟩
  · obtain ⟨o, ho⟩ := drcRevertConvertingPageNonAbortOwner_spec ctrl cvt e
    exact ⟨o, _, _, _, _, _, (drcRevertConvertingPageNonAbortOwner ctrl cvt e).2,
      congrArg (p, ·) (Prod.ext ho rfl), .inl ⟨rfl, rfl⟩⟩

/-- What is left of an entry keeps the slot, the queue and the mode, and loses
the copy of the dead instance. -/
lemma cleanInst_spec {instId} (h : cleanInst instId e = some e') :
    e'.converting = e.converting ∧ e'.convertQ = e.convertQ ∧ e'.mode = e.mode ∧
      e'.readonlyCopies = e.readonlyCopies.erase instId := by
  unfold cleanInst at h
  simp only at h
  split at h
  · cases h
    exact ⟨rfl, rfl, rfl, rfl⟩
  · split at h <;> cases h
    exact ⟨rfl, rfl, rfl, rfl⟩

end

end Cantian.Drc
