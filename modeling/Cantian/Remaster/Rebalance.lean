import Cantian.Remaster.Scalein

/-!
# Remaster: the result is a rebalancing

`drc_execute_remaster` as a whole. An aborting or failing instance departs
only when `mgrt_fail_list` is set, and its partitions get no migrate tasks:
there is nobody to export them. The result is a rebalancing when one kind of
instances departs at a time. With two, an instance of the second list may
have got partitions of the first one.
-/

namespace Cantian.Remaster

open List Option ReformInfo PartMngr

open Cantian.Dcs (InstId)

/-! ## Reforms -/

/-- The scale-ins of a reform, with `is_abort`. -/
def ReformInfo.departures (info : ReformInfo) (mgrtFailList : Bool) : List (InstanceList × Bool) :=
  ((info.leave, false) ::
    if mgrtFailList then [(info.abort, true), (info.fail, true)] else []).filter
    fun d => decide (0 < d.1.instIdCount)

/-- The instances that depart. -/
def ReformInfo.gone (info : ReformInfo) (m : PartMngr) : List InstId :=
  (info.departures m.mgrtFailList).flatMap fun d => d.1.ids

/-- The departing instances whose partitions are not migrated. -/
def ReformInfo.dropped (info : ReformInfo) (m : PartMngr) : List InstId :=
  ((info.departures m.mgrtFailList).filter fun d => d.2).flatMap fun d => d.1.ids

/-- The surviving and the joining instances. -/
def ReformInfo.survives (info : ReformInfo) (m : PartMngr) : InstId → Bool :=
  without (m.joined info.join.ids) (info.gone m)

/-- The lists name each instance once, joining instances are new, departing
ones are members, and somebody is left. The reformer is a member. -/
structure ReformInfo.Valid (s : Session) (m : PartMngr) (info : ReformInfo) : Prop where
  join_len : info.join.instIdCount ≤ info.join.instIdList.length
  join_nodup : info.join.ids.Nodup
  join_new : ∀ i ∈ info.join.ids, m.members i = false
  gone_len : ∀ l ∈ [info.leave, info.abort, info.fail], l.instIdCount ≤ l.instIdList.length
  gone_nodup : ∀ l ∈ [info.leave, info.abort, info.fail], l.ids.Nodup
  gone_old : ∀ l ∈ [info.leave, info.abort, info.fail], ∀ i ∈ l.ids, m.members i = true
  reformer : s.reformerMode = true → m.members m.remasterInst = true
  survivor : ∃ i, info.survives m i = true

/-- The target tables are a correct assignment of the partitions to the
surviving instances, and the tasks are the moves that lead there. -/
structure Rebalanced (m : PartMngr) (survives : InstId → Bool) (dropped : List InstId)
    (r : RemasterMngr) : Prop where
  mapped : ∀ p, survives (r.targetPartMap p).instId = true
  used : ∀ i, (r.targetInstPartTbl i).isUsed = survives i
  lists : ListsExact r.targetInstPartTbl r.targetPartMap
  tasks_distinct : (r.remasterTaskSet.map (·.partId)).Nodup
  tasks_sound : ∀ k ∈ r.remasterTaskSet, k.exportInst = (m.partMap k.partId).instId ∧
    k.importInst = (r.targetPartMap k.partId).instId ∧ k.exportInst ≠ k.importInst
  tasks_complete : ∀ p, (r.targetPartMap p).instId ≠ (m.partMap p).instId →
    (m.partMap p).instId ∉ dropped → ∃ k ∈ r.remasterTaskSet, k.partId = p

/-- Every member has its share, as the loops hand it out. -/
def Balanced (m : PartMngr) : Prop :=
  ∀ i, m.members i = true → (m.instPartTbl i).count = quota m.members m.instNum i ∧
    (m.instPartTbl i).expectedNum = (m.instPartTbl i).count

section execute

variable {s : Session} {m m₁ : PartMngr} {info : ReformInfo} {members : InstId → Bool}

/-- In a balanced table nobody is short when the cluster grows. -/
lemma Balanced.joinFits {new} (hb : Balanced m) (hm : WellFormed m)
    (hmode : s.reformerMode = false) : JoinFits s m new := by
  intro i hi
  have hpos : 0 < m.instNum := by
    rw [hm.instNum]
    exact countP_pos_iff.mpr ⟨i, mem_finRange i, hi⟩
  simp only [joinShare, hmode]
  rw [(hb i hi).1]
  exact quota_mono i (fun j hj => by simp [joined, hj]) hpos (by omega)

/-- The table after the instances have joined. -/
lemma join_spec (hm : WellFormed m) (hv : info.Valid s m)
    (hfit : 0 < info.join.instIdCount → JoinFits s m info.join.ids) :
    ∃ m₁, scaleoutUnlessEmpty s info.join (drcIntRemasterTarget m) = some m₁ ∧
      Stage m m₁ (m.joined info.join.ids) ∧
      (info.join.instIdCount = 0 → m₁.remasterMngr.remasterTaskSet = []) ∧
      (Balanced m → s.reformerMode = false ∨ info.join.instIdCount = 0 →
        ∀ i, m.joined info.join.ids i = true →
          (m₁.remasterMngr.targetInstPartTbl i).count = quota (m.joined info.join.ids)
            ((List.finRange 64).countP (m.joined info.join.ids)) i ∧
          (m₁.remasterMngr.targetInstPartTbl i).expectedNum =
            (m₁.remasterMngr.targetInstPartTbl i).count) := by
  by_cases hjoin : 0 < info.join.instIdCount
  · obtain ⟨m₁, hm1, hst, hcount⟩ := drcScaleoutRemaster_spec hm hjoin hv.join_len rfl hv.join_nodup
      hv.join_new hv.reformer (hfit hjoin)
    refine ⟨m₁, by rw [scaleoutUnlessEmpty, if_pos hjoin, hm1], hst,
      fun h => absurd h (by omega), ?_⟩
    intro _ hmode i hi
    have hmode : s.reformerMode = false := hmode.resolve_right (by omega)
    obtain ⟨hc, he⟩ := hcount i hi
    refine ⟨?_, he.trans hc.symm⟩
    rw [hc, ← joined_instNum hm hv.join_nodup hv.join_new]
    simp [joinShare, hmode, InstanceList.ids]
  · have h0 : info.join.instIdCount = 0 := by omega
    have hids : m.joined info.join.ids = m.members := by
      funext i
      simp [joined, InstanceList.ids, h0]
    refine ⟨drcIntRemasterTarget m, by rw [scaleoutUnlessEmpty, if_neg hjoin], ?_, fun _ => rfl, ?_⟩
    · rw [hids]
      exact hm.stage
    · intro hb _ i hi
      rw [hids] at hi ⊢
      obtain ⟨hc, he⟩ := hb i hi
      rw [hm.instNum] at hc
      exact ⟨hc, he⟩

/-- One scale-in. -/
def scalein (m : PartMngr) (d : InstanceList × Bool) : Option PartMngr :=
  drcScaleinRemaster d.1.instIdList d.1.instIdCount m d.2

lemma scaleinUnlessEmpty_eq (l : InstanceList) (enabled isAbort : Bool) (m : PartMngr) :
    scaleinUnlessEmpty l enabled isAbort m = ((if enabled then [(l, isAbort)] else []).filter
      fun d => decide (0 < d.1.instIdCount)).foldlM scalein m := by
  unfold scaleinUnlessEmpty
  by_cases h : 0 < l.instIdCount <;> cases enabled <;> simp [h, scalein]

lemma scaleinUnlessEmpty_flag {l enabled isAbort m'}
    (h : scaleinUnlessEmpty l enabled isAbort m = some m') : m'.mgrtFailList = m.mgrtFailList := by
  unfold scaleinUnlessEmpty drcScaleinRemaster at h
  split at h
  · obtain ⟨-, h⟩ := ite_none_left_eq_some.mp h
    obtain ⟨-, h⟩ := ite_none_left_eq_some.mp h
    obtain ⟨r, -, rfl⟩ := map_eq_some_iff.mp h
    rfl
  · cases h
    rfl

/-- After the join the scale-ins follow one after the other. -/
lemma drcExecuteRemaster_eq
    (hjoin : scaleoutUnlessEmpty s info.join (drcIntRemasterTarget m) = some m₁)
    (hflag : m₁.mgrtFailList = m.mgrtFailList) :
    drcExecuteRemaster s m info = (info.departures m.mgrtFailList).foldlM scalein m₁ := by
  have hdep : info.departures m.mgrtFailList =
      ([(info.leave, false)] ++ ((if m.mgrtFailList then [(info.abort, true)] else []) ++
        if m.mgrtFailList then [(info.fail, true)] else [])).filter
          fun d => decide (0 < d.1.instIdCount) := by
    cases h : m.mgrtFailList <;> simp [departures]
  rw [hdep, filter_append, filter_append, foldlM_append]
  simp only [drcExecuteRemaster, hjoin, bind_eq_bind, bind_some, foldlM_append]
  rw [scaleinUnlessEmpty_eq info.leave]
  refine bind_congr fun m₂ h₂ => ?_
  rw [← scaleinUnlessEmpty_eq] at h₂
  rw [scaleinUnlessEmpty_flag h₂, hflag, scaleinUnlessEmpty_eq info.abort]
  refine bind_congr fun m₃ h₃ => ?_
  rw [← scaleinUnlessEmpty_eq] at h₃
  rw [scaleinUnlessEmpty_flag h₃, scaleinUnlessEmpty_flag h₂, hflag, scaleinUnlessEmpty_eq]

variable {r : RemasterMngr}

/-- Exact tables without loose partitions. -/
lemma Moving.rebalanced {old : PartId → Part} {survives : InstId → Bool} (hmov : Moving old r [])
    (hunused : ∀ i, survives i = false →
      (r.targetInstPartTbl i).count = 0) :
    (∀ p, survives (r.targetPartMap p).instId = true) ∧
      ListsExact r.targetInstPartTbl r.targetPartMap := by
  have hmem : ∀ i p, p ∈ partsOf r.targetInstPartTbl r.targetPartMap i ↔
      (r.targetPartMap p).instId = i := by
    intro i p
    have hp := hmov.filed.mem i p
    rw [map_nil, and_iff_left not_mem_nil] at hp
    exact hp
  refine ⟨fun p => ?_, fun i => ⟨hmov.filed.nodup i, hmem i⟩⟩
  by_contra hnot
  have hp := (hmem _ p).mpr rfl
  rw [partsOf, hunused _ (by simpa using hnot)] at hp
  simp at hp

/-- Whatever changed its master is among the tasks. -/
lemma Moving.complete {old p} (hmov : Moving old r [])
    (hp : (r.targetPartMap p).instId ≠ (old p).instId) : ∃ k ∈ r.remasterTaskSet, k.partId = p := by
  by_contra hnot
  refine hp (congrArg Part.instId (hmov.kept p fun hmem => hnot ?_))
  simpa using hmem

/-- What a scale-in leaves, without the tasks of an abort. -/
lemma ScaledIn.rebalanced {rest : InstId → Bool} {gone : List InstId}
    (h : ScaledIn m m₁ rest gone r) (isAbort : Bool) :
    Rebalanced m rest (if isAbort then gone else [])
      (if isAbort then { r with remasterTaskSet := m₁.remasterMngr.remasterTaskSet } else r) := by
  have hreb := h.moving.rebalanced h.unused
  have hdistinct : (r.remasterTaskSet.map (·.partId)).Nodup := by simpa using h.moving.distinct
  cases isAbort with
  | false =>
    exact ⟨hreb.1, congrFun h.used, hreb.2, hdistinct, h.moving.moved,
      fun p hp _ => h.moving.complete hp⟩
  | true =>
    obtain ⟨new, hnew, hexport⟩ := h.tasks
    have hsub : ∀ k ∈ m₁.remasterMngr.remasterTaskSet, k ∈ r.remasterTaskSet := by
      intro k hk
      rw [hnew]
      exact mem_append_left _ hk
    refine ⟨hreb.1, congrFun h.used, hreb.2, ?_, fun k hk => h.moving.moved k (hsub k hk), ?_⟩
    · rw [hnew, map_append] at hdistinct
      exact (nodup_append.mp hdistinct).1
    · intro p hp hold
      obtain ⟨k, hk, rfl⟩ := h.moving.complete hp
      refine ⟨k, ?_, rfl⟩
      have hmem := hk
      rw [hnew, mem_append] at hmem
      refine hmem.resolve_right fun hk' => hold ?_
      rw [← (h.moving.moved k hk).1]
      exact hexport k hk'

/-- What a reform leaves when at most one kind of instances departs. -/
structure Outcome (s : Session) (m : PartMngr) (info : ReformInfo) (m' : PartMngr) : Prop where
  rebalanced : Rebalanced m (info.survives m) (info.dropped m) m'.remasterMngr
  instNum : m'.instNum = usedNum m'.remasterMngr.targetInstPartTbl
  not_migrated : info.join.instIdCount = 0 →
    ∀ k ∈ m'.remasterMngr.remasterTaskSet, k.exportInst ∉ info.dropped m
  balanced : Balanced m → s.reformerMode = false ∨ info.join.instIdCount = 0 →
    ∀ i, info.survives m i = true →
      (m'.remasterMngr.targetInstPartTbl i).count =
        quota (info.survives m) m'.instNum i ∧
      (m'.remasterMngr.targetInstPartTbl i).expectedNum =
        (m'.remasterMngr.targetInstPartTbl i).count

lemma outcome_of_join (hm : WellFormed m) (hv : info.Valid s m)
    (hdep : info.departures m.mgrtFailList = [])
    (hfit : 0 < info.join.instIdCount → JoinFits s m info.join.ids) :
    ∃ m', drcExecuteRemaster s m info = some m' ∧ Outcome s m info m' := by
  obtain ⟨m₁, hjoin, hst, hnojoin, hshare⟩ := join_spec hm hv hfit
  rw [drcExecuteRemaster_eq hjoin hst.mgrtFailList, hdep]
  have hsurv : info.survives m = m.joined info.join.ids := by
    funext i
    simp [survives, gone, hdep, without]
  have hreb := hst.moving.rebalanced hst.unused
  refine ⟨m₁, rfl, ⟨?_, ?_, ?_, ?_, hst.moving.moved, ?_⟩, ?_, ?_, ?_⟩
  · rw [hsurv]
    exact hreb.1
  · rw [hsurv]
    exact congrFun hst.used
  · exact hreb.2
  · simpa using hst.moving.distinct
  · intro p hp _
    exact hst.moving.complete hp
  · rw [hst.instNum, ← hst.used]
    rfl
  · intro h0
    simp [hnojoin h0]
  · rw [hsurv, hst.instNum]
    exact hshare

lemma outcome_of_departure (hm : WellFormed m) (hv : info.Valid s m) {d}
    (hdep : info.departures m.mgrtFailList = [d])
    (hfit : 0 < info.join.instIdCount → JoinFits s m info.join.ids) :
    ∃ m', drcExecuteRemaster s m info = some m' ∧ Outcome s m info m' := by
  obtain ⟨m₁, hjoin, hst, hnojoin, hshare⟩ := join_spec hm hv hfit
  rw [drcExecuteRemaster_eq hjoin hst.mgrtFailList, hdep]
  -- the one list that takes effect
  have hd : d.1 ∈ [info.leave, info.abort, info.fail] ∧ 0 < d.1.instIdCount := by
    have hmem : d ∈ info.departures m.mgrtFailList := by simp [hdep]
    obtain ⟨hin, hpos⟩ := mem_filter.mp hmem
    refine ⟨?_, by simpa using hpos⟩
    cases hf : m.mgrtFailList <;> simp [hf] at hin
    · simp [hin]
    · rcases hin with rfl | rfl | rfl <;> simp
  have hgone : info.gone m = d.1.ids := by simp [gone, hdep]
  have hsurv : info.survives m = without (m.joined info.join.ids) d.1.ids := by
    rw [survives, hgone]
  have hold := hv.gone_old d.1 hd.1
  obtain ⟨m', r, hm', hnum, hr, hin⟩ := drcScaleinRemaster_spec d.2 hst hd.2
    (hv.gone_len d.1 hd.1) (show _ = d.1.ids from rfl) (hv.gone_nodup d.1 hd.1) hold
    (fun i hi => by simp [joined, hold i hi]) (hsurv ▸ hv.survivor)
  rw [← hsurv] at hnum hin
  have hsub : ∀ i, info.survives m i = true → m.joined info.join.ids i = true := by
    intro i hi
    rw [hsurv] at hi
    simp only [without, Bool.and_eq_true] at hi
    exact hi.1
  have hdropped : info.dropped m = if d.2 then d.1.ids else [] := by
    cases hd2 : d.2 <;> simp [dropped, hdep, hd2]
  have hreb := hin.rebalanced d.2
  have htbl : m'.remasterMngr.targetInstPartTbl = r.targetInstPartTbl := by
    rw [hr]
    split <;> rfl
  rw [← hr, ← hdropped] at hreb
  refine ⟨m', by simp [scalein, hm'], hreb, ?_, ?_, ?_⟩
  · rw [hnum, usedNum, htbl, ← hin.used]
    rfl
  · intro h0 k hk
    rw [hdropped]
    rw [hr] at hk
    split at hk
    · simp [hnojoin h0] at hk
    · simp [‹¬ _›]
  · intro hb hmode i hi
    rw [htbl, hnum]
    have hpos : 0 < (finRange 64).countP (info.survives m) :=
      countP_pos_iff.mpr ⟨i, mem_finRange i, hi⟩
    -- shares grow, so nobody has more than the new one
    have hroom : ∀ j, info.survives m j = true →
        (m₁.remasterMngr.targetInstPartTbl j).count ≤
          quota (info.survives m) ((finRange 64).countP (info.survives m)) j := by
      intro j hj
      rw [(hshare hb hmode j (hsub j hj)).1]
      exact quota_mono j hsub hpos (countP_mono_left fun i _ => hsub i)
    have hcount := hin.count hroom i hi
    exact ⟨hcount, (hin.expected i hi).trans hcount.symm⟩

end execute

/-- The remaster rebalances the partitions, for every well-formed table and
every reform in which one kind of instances departs at a time and no member
is short of the share that a join gives it. -/
theorem drcExecuteRemaster_rebalances (s : Session) (m : PartMngr) (info : ReformInfo)
    (hm : WellFormed m) (hv : info.Valid s m) (hone : (info.departures m.mgrtFailList).length ≤ 1)
    (hfit : 0 < info.join.instIdCount → JoinFits s m info.join.ids) :
    ∃ m', drcExecuteRemaster s m info = some m' ∧ Outcome s m info m' := by
  cases hdep : info.departures m.mgrtFailList with
  | nil => exact outcome_of_join hm hv hdep hfit
  | cons d rest =>
    have hrest : rest = [] := by
      rw [hdep] at hone
      exact eq_nil_of_length_eq_zero (by simpa using hone)
    subst hrest
    exact outcome_of_departure hm hv hdep hfit

/-! ## Two members with half of the partitions each -/

lemma chain_neighbours {a n} (h : a.val + n ≤ 1024) :
    (Lib.chain (· + 1) a n).Nodup ∧
      ∀ p : PartId, p ∈ Lib.chain (· + 1) a n ↔ a.val ≤ p.val ∧ p.val < a.val + n := by
  induction n generalizing a with
  | zero => simp
  | succ n ih =>
    rcases Nat.eq_zero_or_pos n with rfl | hpos
    · simp only [Lib.chain_succ, Lib.chain_zero, nodup_singleton, mem_singleton, true_and]
      intro p
      rw [Fin.ext_iff]
      omega
    have hval : (a + 1).val = a.val + 1 := by
      rw [Fin.val_add, Nat.mod_eq_of_lt]
      · rfl
      · omega
    obtain ⟨hnodup, hmem⟩ := ih (a := a + 1) (by omega)
    constructor
    · rw [Lib.chain_succ, nodup_cons, hmem]
      exact ⟨by omega, hnodup⟩
    · intro p
      rw [Lib.chain_succ, mem_cons, hmem, Fin.ext_iff]
      omega

/-- Instances 0 and 1 are the members; the last reform was completed. -/
def twoMembers : PartMngr where
  instNum := 2
  remasterInst := 0
  mgrtFailList := true
  instPartTbl i := if i = 0 then ⟨0, 511, 512, 512, true⟩
    else if i = 1 then ⟨512, 1023, 512, 512, true⟩ else ⟨0, 0, 0, 0, false⟩
  partMap p := ⟨if p.val < 512 then 0 else 1, .normal, p + 1⟩
  remasterMngr := ⟨fun _ => ⟨0, 0, 0, 0, false⟩, fun p => ⟨0, .init, p⟩, []⟩

lemma twoMembers_wellFormed : WellFormed twoMembers := by
  constructor
  · intro p
    simp only [twoMembers]
    split <;> rfl
  · intro i
    rcases eq_or_ne i 0 with rfl | h0
    · obtain ⟨hnodup, hmem⟩ := chain_neighbours (a := 0) (n := 512) (by decide)
      refine ⟨hnodup, fun p => (hmem p).trans ?_⟩
      simp [twoMembers]
    rcases eq_or_ne i 1 with rfl | h1
    · obtain ⟨hnodup, hmem⟩ := chain_neighbours (a := 512) (n := 512) (by decide)
      refine ⟨hnodup, fun p => (hmem p).trans ?_⟩
      simp [twoMembers]
    · simp only [partsOf, twoMembers, if_neg h0, if_neg h1, Lib.chain_zero]
      refine ⟨nodup_nil, fun p => ?_⟩
      simp only [not_mem_nil, false_iff]
      split
      · exact Ne.symm h0
      · exact Ne.symm h1
  · decide

lemma twoMembers_balanced : Balanced twoMembers := by
  intro i hi
  have hcase : i = 0 ∨ i = 1 := by
    by_contra hnot
    simp only [not_or] at hnot
    simp [members, twoMembers, hnot] at hi
  rcases hcase with rfl | rfl <;> decide

/-- Instance 2 joins and instance 1 leaves. -/
def joinAndLeave : ReformInfo :=
  ⟨⟨[2], 1⟩, ⟨[1], 1⟩, ⟨[], 0⟩, ⟨[], 0⟩⟩

theorem drcExecuteRemaster_joinAndLeave :
    ∃ m', drcExecuteRemaster ⟨false, false⟩ twoMembers joinAndLeave = some m' ∧
      Outcome ⟨false, false⟩ twoMembers joinAndLeave m' := by
  refine drcExecuteRemaster_rebalances ⟨false, false⟩ twoMembers joinAndLeave
    twoMembers_wellFormed ?_ (by decide)
    (fun _ => twoMembers_balanced.joinFits twoMembers_wellFormed rfl)
  exact ⟨by decide, by decide, by decide, by decide, by decide, by decide, by decide,
    ⟨0, by decide⟩⟩

/-- Instance 1 aborts. -/
def abortOne : ReformInfo :=
  ⟨⟨[], 0⟩, ⟨[], 0⟩, ⟨[1], 1⟩, ⟨[], 0⟩⟩

/-- The partitions of an aborting instance change their master without a task. -/
theorem abort_without_task : WellFormed twoMembers ∧ abortOne.Valid ⟨false, false⟩ twoMembers ∧
      ∃ m', drcExecuteRemaster ⟨false, false⟩ twoMembers abortOne = some m' ∧
        ∃ p, (m'.remasterMngr.targetPartMap p).instId ≠ (twoMembers.partMap p).instId ∧
          ¬ ∃ k ∈ m'.remasterMngr.remasterTaskSet, k.partId = p := by
  have hv : abortOne.Valid ⟨false, false⟩ twoMembers :=
    ⟨by decide, by decide, by decide, by decide, by decide, by decide, by decide, ⟨0, by decide⟩⟩
  obtain ⟨m', hm', hout⟩ := outcome_of_departure twoMembers_wellFormed hv
    (d := (abortOne.abort, true)) rfl fun h => absurd h (by decide)
  refine ⟨twoMembers_wellFormed, hv, m', hm', 512, ?_, ?_⟩
  · intro heq
    have hmapped := hout.rebalanced.mapped 512
    rw [heq] at hmapped
    revert hmapped
    decide
  · intro ⟨k, hk, hp⟩
    refine hout.not_migrated rfl k hk ?_
    rw [(hout.rebalanced.tasks_sound k hk).1, hp]
    decide

end Cantian.Remaster
