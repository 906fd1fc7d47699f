import Cantian.Drc.ConvertQueue

/-!
# What every sequence of calls keeps

The items of the pool are in one place each, and an entry whose converting
slot is empty has no queue, whatever the calls are.

A request of an instance that has one in the slot or the queue already does
not always replace it: `drc_is_retry_request` takes it for a new one when
its current mode is what the old one asks for, because the claim of the old
one may come later. So an instance can have two entries, but not more when
every request asks for more than its instance has.

An exclusive entry has no read-only copies, unless the cleaning after a dead
instance takes the exclusive mode from the local buffer while copies of other
instances are recorded.
-/

namespace Cantian.Drc

open Lib Dcs List Option Prod LockMode

/-- `converting` of the entry. -/
def Sys.converting (s : Sys) : Option DrcReqInfo := s.entry.bind BufResOf.converting

/-- `convert_q` of the entry. -/
def Sys.convertQ (s : Sys) : LinkedQueue := s.entry.elim .empty BufResOf.convertQ

/-- The queue holds the requests `l`, and none when the slot is empty. -/
structure Sys.Holds (cfg : Config) (s : Sys) (l : List DrcReqInfo) : Prop where
  queued : Queued s.pool cfg.itemNum s.convertQ s.other l
  idle : s.converting = none → l = []

/-- What a call does to the mode and the read-only copies. -/
inductive ModeChange (s : Sys) (a : Call) (e' : BufRes) : Prop where
  | kept {e : BufRes} (he : s.entry = some e) (hmode : e'.mode = e.mode)
      (hcopies : e'.readonlyCopies ⊆ e.readonlyCopies)
  | share (hmode : e'.mode = .share)
  | alone (hcopies : e'.readonlyCopies = ∅)
  /-- The mode is the one of the local buffer. -/
  | fromBuffer {e : BufRes} {instId : InstId} {b : BufCtrl} {cvt : DrcReqInfo}
      (ha : a = .clean instId (some b)) (he : s.entry = some e) (hcvt : e.converting = some cvt)
      (hinst : cvt.instId = instId) (hmode : e'.mode = b.lockMode)
      (hcopies : e'.readonlyCopies ⊆ e.readonlyCopies.erase instId)

section
variable {cfg : Config} {s t : Sys} {a : Call} {l : List DrcReqInfo}

/-- The result of a call on the entry. -/
structure Outcome (cfg : Config) (s : Sys) (a : Call) (l : List DrcReqInfo) (t : Sys) : Prop where
  change : ∃ l', t.Holds cfg l' ∧ Change a s.converting l t.converting l'
  mode : ∀ e', t.entry = some e' → ModeChange s a e'

lemma Sys.of_entry {o} (h : s.entry = o) :
    s.converting = o.bind BufResOf.converting ∧ s.convertQ = o.elim .empty BufResOf.convertQ :=
  ⟨congrArg (bind · _) h, congrArg (Option.elim · _ _) h⟩

lemma Outcome.of_entry (hs : s.Holds cfg l) (hentry : t.entry = s.entry)
    (hq : Queued t.pool cfg.itemNum s.convertQ t.other l) : Outcome cfg s a l t := by
  obtain ⟨hconv, hqueue⟩ := Sys.of_entry hentry
  refine ⟨⟨l, ⟨hqueue ▸ hq, hconv ▸ hs.idle⟩, ?_⟩, fun e' he' => ?_⟩
  · rw [hconv]
    exact .same hs.idle
  · exact .kept (hentry ▸ he') rfl subset_rfl

lemma Outcome.of_gone (hentry : t.entry = none) (hq : Queued t.pool cfg.itemNum .empty t.other []) :
    Outcome cfg s a l t := by
  obtain ⟨hconv, hqueue⟩ := Sys.of_entry hentry
  refine ⟨⟨[], ⟨hqueue ▸ hq, fun _ => rfl⟩, ?_⟩, fun e' he' => ?_⟩
  · rw [hconv]
    exact .clear a _ l
  · cases hentry.symm.trans he'

lemma Outcome.of_some {e'} (l' : List DrcReqInfo) (hentry : t.entry = some e')
    (hq : Queued t.pool cfg.itemNum e'.convertQ t.other l')
    (hchange : Change a s.converting l e'.converting l') (hmode : ModeChange s a e') :
    Outcome cfg s a l t := by
  obtain ⟨hconv, hqueue⟩ := Sys.of_entry hentry
  refine ⟨⟨l', ⟨hqueue ▸ hq, hconv ▸ hchange.idle⟩, hconv ▸ hchange⟩, fun e1 he1 => ?_⟩
  cases hentry.symm.trans he1
  exact hmode

variable {req : DrcReqInfo}

section
variable (hs : s.Holds cfg l)
include hs

lemma Sys.Holds.of_some {e} (he : s.entry = some e) :
    Queued s.pool cfg.itemNum e.convertQ s.other l ∧ (e.converting = none → l = []) ∧
      s.converting = e.converting := by
  obtain ⟨hconv, hqueue⟩ : s.converting = e.converting ∧ s.convertQ = e.convertQ :=
    Sys.of_entry he
  exact ⟨hqueue ▸ hs.queued, hconv ▸ hs.idle, hconv⟩

lemma Sys.Holds.of_none (he : s.entry = none) :
    l = [] ∧ Queued s.pool cfg.itemNum .empty s.other [] := by
  obtain ⟨hconv, hqueue⟩ : s.converting = none ∧ s.convertQ = .empty := Sys.of_entry he
  obtain rfl := hs.idle hconv
  exact ⟨rfl, hqueue ▸ hs.queued⟩

/-! ## One lemma per call -/

/-- The owner of the entry was there, or was found by `drc_clean_buf_res`. -/
lemma ownedPage_outcome {isTry env e e1 res} (he : s.entry = some e) (ho : e1.claimedOwner ≠ none)
    (hconv : e1.converting = e.converting) (hqueue : e1.convertQ = e.convertQ)
    (hmode : ∀ e', e'.mode = e1.mode →
      (e'.readonlyCopies = e1.readonlyCopies ∨ e'.readonlyCopies = ∅) →
      ModeChange s (.request req isTry env) e')
    (h : drcRequestOwnedPage cfg.itemNum s.pool e1 req isTry env = some res) :
    Outcome cfg s (.request req isTry env) l (s.after res) := by
  obtain ⟨hq, hidle, hsconv⟩ := hs.of_some he
  rw [← hqueue] at hq
  rw [← hconv] at hidle hsconv
  obtain ⟨cvt, q, ro, l', hentry, hq', hchange, hcopies⟩ := drcRequestOwnedPage_spec ho hq hidle h
  exact .of_some l' hentry hq' (hsconv ▸ hchange) (hmode _ rfl hcopies)

lemma request_outcome {isTry env res}
    (h : drcRequestPageOwner cfg.itemNum s.pool s.entry req isTry env = some res) :
    Outcome cfg s (.request req isTry env) l (s.after res) := by
  unfold drcRequestPageOwner at h
  split at h
  · cases h
    exact .of_entry hs rfl hs.queued
  split at h
  · rename_i hnone
    obtain ⟨rfl, hq⟩ := hs.of_none hnone
    split at h
    · cases h
      exact .of_gone rfl hq
    · cases h
      exact .of_some [] rfl hq (.clear _ _ _) (.alone rfl)
  · rename_i e he
    obtain ⟨hq, hidle, hsconv⟩ := hs.of_some he
    have hkept : Outcome cfg s (.request req isTry env) l
        (s.after ⟨(false, OwnerResult.init req), s.pool, some e⟩) :=
      .of_entry hs he.symm hs.queued
    split at h
    · cases h
      exact hkept
    split at h
    next ho =>
      refine ownedPage_outcome hs he ho rfl rfl (fun e' hmode hcopies => ?_) h
      rcases hcopies with hcopies | hcopies
      · exact .kept he hmode hcopies.le
      · exact .alone hcopies
    next howner =>
    rw [not_not] at howner
    split at h
    · cases h
      exact hkept
    split at h
    · cases h
    rename_i e1 hclean
    obtain ⟨o, pd, ro, rfl, hcopies1, hnone1⟩ := drcCleanBufRes_spec hclean
    split_ifs at h with howner1
    · refine ownedPage_outcome hs he howner1 ?_ ?_ (fun e' hmode hcopies => ?_) h
      · rfl
      · rfl
      by_cases hshare : e.mode = .share
      · exact .share (hmode.trans hshare)
      · exact .alone (hcopies.elim (·.trans (hcopies1 hshare)) id)
    · rw [not_not] at howner1
      cases h
      refine .of_some l rfl hq ?_ (.alone ((hnone1 howner1).2 howner))
      rw [hsconv]
      exact .same hidle

lemma claim_outcome {c now invalidated res}
    (h : drcClaimPageOwner cfg.timeout now s.pool s.entry c invalidated = some res) :
    Outcome cfg s (.claim c now invalidated) l (s.after res) := by
  cases he : s.entry with
  | none =>
    rw [he] at h
    cases h
    exact .of_gone rfl (hs.of_none he).2
  | some =>
    rw [he] at h
    obtain ⟨hq, hidle, hsconv⟩ := hs.of_some he
    obtain ⟨e', l', hentry, hq', hchange, hmode⟩ := drcClaimPageOwner_spec hq hidle h
    refine .of_some l' hentry hq' (hsconv ▸ hchange) ?_
    rcases hmode with ⟨hmode, hcopies⟩ | hmode | hcopies
    · exact .kept he hmode hcopies.le
    · exact .share hmode
    · exact .alone hcopies

lemma release_outcome {oldId res} (h : drcReleasePageOwner s.pool s.entry oldId = some res) :
    Outcome cfg s (.release oldId) l (s.after res) := by
  cases he : s.entry with
  | none =>
    rw [he] at h
    cases h
  | some e =>
    rw [he] at h
    simp only [drcReleasePageOwner] at h
    split at h
    · cases h
      exact .of_entry hs he.symm hs.queued
    split_ifs at h with hbusy
    · cases h
      exact .of_entry hs he.symm hs.queued
    · cases h
      -- no request is converting, so no item is left in the queue
      obtain ⟨hq, hidle, -⟩ := hs.of_some he
      have hconv : e.converting = none := not_not.mp fun hne => hbusy (.inl hne)
      obtain rfl := hidle hconv
      exact .of_gone rfl hq.renew

lemma cleanEdp_outcome {lsn} :
    Outcome cfg s (.cleanEdp lsn) l (s.after (drcCleanEdpInfo s.pool s.entry lsn)) := by
  cases he : s.entry with
  | none => exact .of_gone rfl (hs.of_none he).2
  | some e =>
    obtain ⟨hq, hidle, hsconv⟩ := hs.of_some he
    have hchange : Change (.cleanEdp lsn) s.converting l e.converting l := by
      rw [hsconv]
      exact .same hidle
    simp only [drcCleanEdpInfo]
    split <;> exact .of_some l rfl hq hchange (.kept he rfl subset_rfl)

lemma clean_outcome {instId ctrl e} (he : s.entry = some e) :
    Outcome cfg s (.clean instId ctrl) l
      (s.after (drcCleanPageOwner instId cfg.self ctrl s.pool e)) := by
  obtain ⟨hq, -, -⟩ := hs.of_some he
  obtain ⟨p1, q1, rejected1, heq1, hq1, hcount⟩ := drcCleanConvertQ_queued instId hq
  obtain ⟨o, md, ro, em, le, ll, rejected2, heq2, hmode⟩ :=
    @drcCleanPageConverting_spec { e with convertQ := q1 } instId cfg.self ctrl p1 hcount
  simp only [drcCleanPageOwner, heq1, heq2]
  cases hclean : cleanInst instId _ with
  | none => exact .of_gone rfl hq1.renew
  | some =>
    obtain ⟨hconv, hqueue, hmode', hcopies⟩ := cleanInst_spec hclean
    refine .of_some [] rfl ?_ ?_ ?_
    · exact hqueue ▸ hq1
    · rw [hconv]
      exact .clear _ _ _
    · rcases hmode with ⟨rfl, rfl⟩ | ⟨b, cvt, rfl, hcvt, hinst, rfl, hro⟩
      · exact .kept he hmode' (hcopies ▸ Finset.erase_subset _ _)
      · exact .fromBuffer rfl he hcvt hinst hmode' (hcopies ▸ Finset.erase_subset_erase _ hro)

lemma step_outcome (h : step cfg s a = some t) : Outcome cfg s a l t := by
  cases a with
  | request =>
    obtain ⟨res, hres, rfl⟩ := map_eq_some_iff.mp h
    exact request_outcome hs hres
  | claim =>
    obtain ⟨res, hres, rfl⟩ := map_eq_some_iff.mp h
    exact claim_outcome hs hres
  | release =>
    obtain ⟨res, hres, rfl⟩ := map_eq_some_iff.mp h
    exact release_outcome hs hres
  | cleanEdp =>
    cases h
    exact cleanEdp_outcome hs
  | clean instId ctrl =>
    simp only [step] at h
    split at h
    · cases h
      exact .of_entry hs rfl hs.queued
    · rename_i e he
      cases h
      exact clean_outcome hs he
  | otherAlloc =>
    obtain ⟨⟨i, p⟩, ha, rfl⟩ := map_eq_some_iff.mp h
    exact .of_entry hs rfl (hs.queued.otherAlloc ha)
  | otherWrite i c =>
    simp only [step] at h
    split at h <;> cases h
    rename_i hi
    exact .of_entry hs rfl (hs.queued.otherWrite hi c)
  | otherFree i =>
    simp only [step] at h
    split at h <;> cases h
    rename_i hi
    exact .of_entry hs rfl (hs.queued.perm (perm_cons_erase hi)).otherFree

end

/-! ## Whole sequences -/

lemma drcResPoolInit_linked {n} (k m : Nat) (hkm : k + m = n) :
    Linked (drcResPoolInit n) (if k < n then some k else none) (List.range' k m) := by
  induction m generalizing k with
  | zero =>
    have hk : ¬k < n := by omega
    rw [if_neg hk]
    rfl
  | succ m ih =>
    have hk : k < n := by omega
    rw [if_pos hk, range'_succ]
    exact ⟨rfl, ih (k + 1) (by omega)⟩

lemma Sys.Fresh.holds (hs : s.Fresh cfg) : s.Holds cfg [] := by
  obtain ⟨-, hqueue⟩ := Sys.of_entry hs.entry
  refine ⟨?_, fun _ => rfl⟩
  rw [hqueue, hs.other, hs.pool]
  refine Queued.init ?_
  have hlinked := drcResPoolInit_linked 0 cfg.itemNum (Nat.zero_add _)
  rw [if_pos hs.itemNum, ← range_eq_range'] at hlinked
  exact hlinked

lemma holds_of_reachableBy {ok} (hs : ReachableBy (step cfg) (Sys.Fresh cfg) ok s) :
    ∃ l, s.Holds cfg l := by
  refine hs.invariant (P := fun s => ∃ l, s.Holds cfg l) (fun s hf => ⟨[], hf.holds⟩)
    fun s a t _ hl hstep => ?_
  obtain ⟨l, hl⟩ := hl
  obtain ⟨l', hl', -⟩ := (step_outcome hl hstep).change
  exact ⟨l', hl'⟩

/-! ### The entries of one instance -/

/-- The modes that instance `i` asks for, in the order of its requests. -/
def modesOf (i : InstId) (l : List DrcReqInfo) : List LockMode :=
  (l.filter fun r => r.instId == i).map DrcReqInfo.reqMode

/-- At most two requests, the second one for the exclusive mode. -/
def Paired : List LockMode → Prop
  | [] => True
  | [m] => m ≠ .null
  | [m, m'] => m ≠ .null ∧ m' = .exclusive
  | _ => False

/-- A request asks for more than its instance has. -/
def raisesMode : Call → Bool
  | .request req _ _ => req.currMode < req.reqMode
  | _ => true

lemma ne_null_of_lt {m m' : LockMode} (h : m < m') : m' ≠ .null := by
  rintro rfl
  exact absurd h (Nat.not_lt_zero _)

lemma eq_exclusive_of_lt {m m' : LockMode} (hm : m ≠ .null) (h : m < m') : m' = .exclusive := by
  cases m' with
  | null => exact absurd rfl (ne_null_of_lt h)
  | share =>
    cases m with
    | null => exact absurd rfl hm
    | share => exact absurd h (Nat.lt_irrefl _)
    | exclusive => exact absurd h (not_exclusive_lt _)
  | exclusive => rfl

namespace Paired

variable {m m' cur : LockMode} {ms ms' : List LockMode}

lemma length_le (h : Paired ms) : ms.length ≤ 2 := by
  match ms, h with
  | [], _ => exact Nat.zero_le 2
  | [_], _ => exact Nat.le_succ 1
  | [_, _], _ => exact le_refl 2

lemma sublist (h : Paired ms) (hsub : ms'.Sublist ms) : Paired ms' := by
  match ms, h with
  | [], _ =>
    rw [sublist_nil.mp hsub]
    trivial
  | [m], h =>
    rcases sublist_singleton.mp hsub with rfl | rfl
    · trivial
    · exact h
  | [m, m'], ⟨hm, hm'⟩ =>
    cases hsub with
    | cons _ hsub =>
      rcases sublist_singleton.mp hsub with rfl | rfl
      · trivial
      · rw [hm']
        exact fun h => by cases h
    | cons_cons _ hsub =>
      rcases sublist_singleton.mp hsub with rfl | rfl
      · exact hm
      · exact ⟨hm, hm'⟩

/-- The first request may change its mode. -/
lemma head (h : Paired (m :: ms)) (hm' : m' ≠ .null) : Paired (m' :: ms) := by
  match ms, h with
  | [], _ => exact hm'
  | [_], ⟨_, hx⟩ => exact ⟨hm', hx⟩

/-- A request takes the place of the first one that asks for something other
than the mode `cur` that its instance has now. -/
lemma replace {ms1 : List LockMode} (h : Paired (ms1 ++ m :: ms)) (hcur : ∀ x ∈ ms1, x = cur)
    (hlt : cur < m') : Paired (ms1 ++ m' :: ms) := by
  match ms1, ms, h with
  | [], _, h => exact h.head (ne_null_of_lt hlt)
  | [a], [], ⟨ha, _⟩ =>
    obtain rfl := hcur a mem_cons_self
    exact ⟨ha, eq_exclusive_of_lt ha hlt⟩
  | _ :: _ :: _, _, h =>
    have hlen := h.length_le
    simp only [length_append, length_cons] at hlen
    omega

/-- A request comes behind requests for the mode `cur` that its instance has
now. -/
lemma append (h : Paired ms) (hcur : ∀ x ∈ ms, x = cur) (hlt : cur < m') : Paired (ms ++ [m']) := by
  match ms, h with
  | [], _ => exact ne_null_of_lt hlt
  | [a], ha =>
    obtain rfl := hcur a mem_cons_self
    exact ⟨ha, eq_exclusive_of_lt ha hlt⟩
  | [_, b], ⟨_, hb⟩ =>
    have hbc := hcur b (mem_cons_of_mem _ mem_cons_self)
    rw [← hbc, hb] at hlt
    exact absurd hlt (not_exclusive_lt _)

end Paired

lemma modesOf_append (i : InstId) (l1 l2 : List DrcReqInfo) :
    modesOf i (l1 ++ l2) = modesOf i l1 ++ modesOf i l2 := by
  rw [modesOf, filter_append, map_append]
  rfl

lemma modesOf_cons_self {r i} (hr : r.instId = i) :
    modesOf i (r :: l) = r.reqMode :: modesOf i l := by
  simp only [modesOf, filter_cons, hr, beq_self_eq_true, if_true, map_cons]

lemma modesOf_cons_of_ne {r i} (hr : r.instId ≠ i) : modesOf i (r :: l) = modesOf i l := by
  simp only [modesOf, filter_cons, beq_eq_false_iff_ne.mpr hr, Bool.false_eq_true, if_false]

/-- Requests of the same instance that are no retries ask for its current mode. -/
lemma modesOf_eq_currMode (hl : ∀ r ∈ l, drcIsRetryRequest r req = false) :
    ∀ m ∈ modesOf req.instId l, m = req.currMode := by
  intro m hm
  obtain ⟨r, hr, rfl⟩ := mem_map.mp hm
  obtain ⟨hr, hinst⟩ := mem_filter.mp hr
  have hretry := hl r hr
  rw [drcIsRetryRequest, hinst, Bool.true_and] at hretry
  simpa using hretry

/-- A request takes the place of another one of its instance. -/
lemma Paired.modesOf_replace {i r r' l1 l2} (hp : Paired (modesOf i (l1 ++ r :: l2)))
    (hinst : r.instId = r'.instId)
    (h : r'.instId = i → Paired (modesOf i l1 ++ r.reqMode :: modesOf i l2) →
      Paired (modesOf i l1 ++ r'.reqMode :: modesOf i l2)) :
    Paired (modesOf i (l1 ++ r' :: l2)) := by
  rw [modesOf_append] at hp ⊢
  by_cases hi : r'.instId = i
  · rw [modesOf_cons_self (hinst.trans hi)] at hp
    rw [modesOf_cons_self hi]
    exact h hi hp
  · rw [modesOf_cons_of_ne (hinst ▸ hi)] at hp
    rw [modesOf_cons_of_ne hi]
    exact hp

lemma Paired.modesOf_append {i} (hp : Paired (modesOf i l))
    (hl : ∀ r ∈ l, drcIsRetryRequest r req = false) (hlt : req.currMode < req.reqMode) :
    Paired (modesOf i (l ++ [req])) := by
  rw [Drc.modesOf_append]
  by_cases hi : req.instId = i
  · rw [modesOf_cons_self hi]
    exact hp.append (hi ▸ modesOf_eq_currMode hl) hlt
  · rw [modesOf_cons_of_ne hi]
    show Paired (_ ++ [])
    rw [append_nil]
    exact hp

lemma instId_of_retry {cvt} (h : drcIsRetryRequest cvt req = true) : cvt.instId = req.instId := by
  rw [drcIsRetryRequest, Bool.and_eq_true] at h
  exact beq_iff_eq.mp h.1

lemma Change.paired {cvt cvt' : Option DrcReqInfo} {l'} (h : Change a cvt l cvt' l')
    (hok : raisesMode a = true) (i : InstId) (hp : Paired (modesOf i (cvt.toList ++ l))) :
    Paired (modesOf i (cvt'.toList ++ l')) := by
  cases h with
  | leave hsub _ => exact hp.sublist ((hsub.filter _).map _)
  | start =>
    exact hp.modesOf_append (fun _ hr => absurd hr not_mem_nil) (of_decide_eq_true hok)
  | @retry req _ _ cvt _ hcvt =>
    have hlt : req.currMode < req.reqMode := of_decide_eq_true hok
    change Paired (modesOf i ([] ++ cvt :: l)) at hp
    refine hp.modesOf_replace (instId_of_retry hcvt) fun _ hp => hp.head ?_
    intro (hnull : cvt.reqMode.max req.reqMode = .null)
    have hle := le_max_right cvt.reqMode req.reqMode
    rw [hnull] at hle
    exact ne_null_of_lt hlt (le_null.mp hle)
  | @replace req _ _ cvt l1 r l2 hcvt hl1 hr =>
    have hbefore := modesOf_eq_currMode (forall_mem_cons.mpr ⟨hcvt, hl1⟩)
    exact hp.modesOf_replace (instId_of_retry hr) fun hi hp =>
      hp.replace (hi ▸ hbefore) (of_decide_eq_true hok)
  | append hcvt hl =>
    exact hp.modesOf_append (forall_mem_cons.mpr ⟨hcvt, hl⟩) (of_decide_eq_true hok)

lemma paired_of_reachableBy
    (hs : ReachableBy (step cfg) (Sys.Fresh cfg) (fun _ a => raisesMode a = true) s) :
    ∃ l, s.Holds cfg l ∧ ∀ i, Paired (modesOf i (s.converting.toList ++ l)) := by
  refine hs.invariant
    (P := fun s => ∃ l, s.Holds cfg l ∧ ∀ i, Paired (modesOf i (s.converting.toList ++ l)))
    (fun s hf => ⟨[], hf.holds, fun i => ?_⟩) fun s a t hok hl hstep => ?_
  · rw [(Sys.of_entry hf.entry).1]
    trivial
  · obtain ⟨l, hl, hp⟩ := hl
    obtain ⟨l', hl', hchange⟩ := (step_outcome hl hstep).change
    exact ⟨l', hl', fun i => hchange.paired hok i (hp i)⟩

/-! ### Read-only copies -/

/-- When the page is exclusive in the local buffer, no read-only copies of
other instances than the dead one are recorded; asked only where the mode is
taken from the buffer. -/
def copiesKnown (s : Sys) : Call → Bool
  | .clean instId (some b) =>
    s.entry.all fun e => e.converting.all (fun r => r.instId != instId) ||
      b.lockMode != .exclusive || decide (e.readonlyCopies.erase instId = ∅)
  | _ => true

lemma ModeChange.alone_of {e'} (h : ModeChange s a e') (hok : copiesKnown s a = true)
    (hs : ∀ e, s.entry = some e → e.mode = .exclusive → e.readonlyCopies = ∅)
    (hx : e'.mode = .exclusive) : e'.readonlyCopies = ∅ := by
  cases h with
  | kept he hmode hcopies =>
    exact Finset.subset_empty.mp (hs _ he (hmode.symm.trans hx) ▸ hcopies)
  | share hmode => cases hmode.symm.trans hx
  | alone hcopies => exact hcopies
  | fromBuffer ha he hcvt hinst hmode hcopies =>
    subst ha
    simp only [copiesKnown, he, hcvt, all_some, hinst, bne_self_eq_false, Bool.false_or,
      hmode.symm.trans hx, decide_eq_true_eq] at hok
    exact Finset.subset_empty.mp (hok ▸ hcopies)

lemma alone_of_reachableBy
    (hs : ReachableBy (step cfg) (Sys.Fresh cfg) (fun s a => copiesKnown s a = true) s) :
    ∀ e, s.entry = some e → e.mode = .exclusive → e.readonlyCopies = ∅ := by
  refine (hs.invariant (P := fun s => (∃ l, s.Holds cfg l) ∧
      ∀ e, s.entry = some e → e.mode = .exclusive → e.readonlyCopies = ∅)
    (fun s hf => ⟨⟨[], hf.holds⟩, fun e he => ?_⟩) fun s a t hok hinv hstep => ?_).2
  · cases hf.entry.symm.trans he
  · obtain ⟨⟨l, hl⟩, halone⟩ := hinv
    have hout := step_outcome hl hstep
    obtain ⟨l', hl', -⟩ := hout.change
    exact ⟨⟨l', hl'⟩, fun e he hx => (hout.mode e he).alone_of hok halone hx⟩

/-! ## The directory entry -/

/-- In every sequence of calls every item of the pool is either free, in the
queue or with another entry, the queue is a list of `count` items, and an
entry without a converting request has no queue. When every request asks for
more than its instance has, an instance has at most two requests in the slot
and the queue, and the second one is exclusive. When the cleaning finds the
page exclusive in the local buffer only without other read-only copies, an
exclusive entry has no read-only copies. -/
theorem entry_invariant (cfg : Config) (s : Sys) :
    (Reachable (step cfg) (Sys.Fresh cfg) s → ∃ free ids,
      Linked s.pool s.pool.freeList free ∧ Linked s.pool s.convertQ.first ids ∧
        s.convertQ.count = ids.length ∧
        (free ++ ids ++ s.other).Perm (List.range cfg.itemNum) ∧
        (s.converting = none → ids = [])) ∧
    (ReachableBy (step cfg) (Sys.Fresh cfg) (fun _ a => raisesMode a = true) s →
      ∀ ids, Linked s.pool s.convertQ.first ids → ∀ i,
        Paired (modesOf i (s.converting.toList ++ ids.map fun i => (s.pool.cell i).val))) ∧
    (ReachableBy (step cfg) (Sys.Fresh cfg) (fun s a => copiesKnown s a = true) s →
      ∀ e, s.entry = some e → e.mode = .exclusive → e.readonlyCopies = ∅) := by
  refine ⟨fun hs => ?_, fun hs ids hids i => ?_, alone_of_reachableBy⟩
  · obtain ⟨l, ⟨ids, hc, rfl⟩, hidle⟩ := holds_of_reachableBy hs
    obtain ⟨free, hfree, hperm⟩ := hc.free
    exact ⟨free, ids, hfree, hc.links, hc.count, hperm,
      fun hnone => map_eq_nil_iff.mp (hidle hnone)⟩
  · obtain ⟨l, ⟨⟨ids', hc, rfl⟩, -⟩, hp⟩ := paired_of_reachableBy hs
    obtain rfl := hc.links.unique hids
    exact hp i

end

/-! ### Two runs -/

/-- Four items; the master is instance 0. -/
def runConfig : Config := ⟨4, 100, 0⟩

def runStart : Sys := ⟨drcResPoolInit 4, none, []⟩

lemma runStart_fresh : runStart.Fresh runConfig :=
  ⟨by decide, rfl, rfl, rfl⟩

/-- Nothing is in the way of a request. -/
def runEnv : ReqEnv := ⟨false, false, true, true⟩

/-- A request of instance `i` at time `rsn`. -/
def runRequest (i : InstId) (rsn : Nat) (reqMode currMode : LockMode) : Call :=
  .request ⟨i, 1, rsn, reqMode, currMode, 0⟩ false runEnv

/-- Instance 1 asks for more before its first request is claimed. -/
def twoRequests : List Call :=
  [runRequest 0 1 .exclusive .null, runRequest 1 2 .share .null,
    runRequest 1 3 .exclusive .share]

/-- The instance that asked last dies, and the page is exclusive in the local
buffer. -/
def staleMode : List Call :=
  [runRequest 0 1 .share .null, runRequest 1 2 .share .null,
    .claim ⟨1, 1, .share, false, 0, 2⟩ 3 true, runRequest 2 4 .share .null,
    .clean 2 (some { BufCtrl.fresh with lockMode := .exclusive })]

/-- Instance 1 has two requests in the slot and the queue, and an exclusive
entry has a read-only copy. -/
theorem entry_with_two_requests : (∃ s, Reachable (step runConfig) (Sys.Fresh runConfig) s ∧
      Linked s.pool s.convertQ.first [0] ∧
      modesOf 1 (s.converting.toList ++ [(s.pool.cell 0).val]) = [.share, .exclusive]) ∧
    ∃ s e, Reachable (step runConfig) (Sys.Fresh runConfig) s ∧ s.entry = some e ∧
      e.mode = .exclusive ∧ e.readonlyCopies = {1} := by
  constructor
  · obtain ⟨s, hrun, hs⟩ := exists_of_run_map (step runConfig) runStart twoRequests
      (fun s => (s.convertQ.first, (s.pool.cell 0).next,
        modesOf 1 (s.converting.toList ++ [(s.pool.cell 0).val])))
      (some 0, none, [.share, .exclusive]) (by decide +kernel)
    obtain ⟨hfirst, hs⟩ := mk.inj hs
    obtain ⟨hnext, hmodes⟩ := mk.inj hs
    exact ⟨s, .of_run _ (.init runStart_fresh) hrun, ⟨hfirst, hnext⟩, hmodes⟩
  · obtain ⟨s, hrun, hs⟩ := exists_of_run_map (step runConfig) runStart staleMode
      (fun s => s.entry.map fun e => (e.mode, e.readonlyCopies))
      (some (.exclusive, {1})) (by decide +kernel)
    obtain ⟨e, he, heq⟩ := map_eq_some_iff.mp hs
    obtain ⟨hmode, hcopies⟩ := mk.inj heq
    exact ⟨s, e, .of_run _ (.init runStart_fresh) hrun, he, hmode, hcopies⟩

/-- A run that meets both conditions, with one request converting and one in
the queue. -/
theorem entry_invariant_run :
    ∃ s : Sys, (∃ free ids, Linked s.pool s.pool.freeList free ∧
        Linked s.pool s.convertQ.first ids ∧
        s.convertQ.count = ids.length ∧ (free ++ ids ++ s.other).Perm (List.range 4) ∧
        (s.converting = none → ids = [])) ∧
      Paired (modesOf 1 (s.converting.toList ++ [(s.pool.cell 0).val])) ∧
      ∃ e, s.entry = some e ∧ (e.mode = .exclusive → e.readonlyCopies = ∅) := by
  obtain ⟨s, hrun, hs⟩ := exists_of_runOk_map (step runConfig)
    (fun s a => raisesMode a && copiesKnown s a) runStart twoRequests
    (fun s => (s.convertQ.first, (s.pool.cell 0).next, s.entry.isSome)) (some 0, none, true)
    (by decide +kernel)
  obtain ⟨hfirst, hs⟩ := mk.inj hs
  obtain ⟨hnext, hsome⟩ := mk.inj hs
  obtain ⟨e, he⟩ := isSome_iff_exists.mp hsome
  have hreach := ReachableBy.of_runOk _ (.init runStart_fresh) hrun
  obtain ⟨hpool, hpaired, halone⟩ := entry_invariant runConfig s
  refine ⟨s, hpool (hreach.mono fun _ _ _ => trivial), ?_, e, he, ?_⟩
  · refine hpaired (hreach.mono fun _ _ hok => ?_) [0] ⟨hfirst, hnext⟩ 1
    exact (Bool.and_eq_true_iff.mp hok).1
  · refine halone (hreach.mono fun _ _ hok => ?_) e he
    exact (Bool.and_eq_true_iff.mp hok).2

end Cantian.Drc
