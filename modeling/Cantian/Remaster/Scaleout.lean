import Cantian.Remaster.Move

/-!
# Remaster: scale-out

From what a first loop takes off the lists to what the second one hands out.
`Stage` is what a half of the remaster leaves and what the next half starts
from. The joining instances get exactly their share when no old member is
short of its own; otherwise more partitions are exported than the joining
instances have room for, and the loop leaves their array.
-/

namespace Cantian.Remaster

open Lib List Finset PartMngr RemasterMngr InstPart

open Cantian.Dcs (InstId)

/-! ## What the first loops take off -/

section taken

variable {old : PartId → Part} {r : RemasterMngr}

lemma foldl_mark {f : InstPart → InstPart} (hf : ∀ e, f (f e) = f e) (tbl : InstId → InstPart)
    (ids : List InstId) (i : InstId) :
    ids.foldl (fun tbl i => Function.update tbl i (f (tbl i))) tbl i =
      if i ∈ ids then f (tbl i) else tbl i := by
  induction ids generalizing tbl with
  | nil => simp
  | cons a ids ih =>
    rw [foldl_cons, ih]
    rcases eq_or_ne i a with rfl | hia
    · by_cases hi : i ∈ ids <;> simp [hi, hf]
    · simp [hia]

lemma markNew_apply (tbl : InstId → InstPart) (ids : List InstId) (i : InstId) :
    markNew tbl ids i = if i ∈ ids then { tbl i with isUsed := true, count := 0 } else tbl i :=
  foldl_mark (f := ({ · with isUsed := true, count := 0 })) (fun _ => rfl) tbl ids i

lemma markDeleted_apply (tbl : InstId → InstPart) (ids : List InstId) (i : InstId) :
    markDeleted tbl ids i =
      if i ∈ ids then { tbl i with isUsed := false, expectedNum := 0 } else tbl i :=
  foldl_mark (f := ({ · with isUsed := false, expectedNum := 0 })) (fun _ => rfl) tbl ids i

/-- The instances that are used. -/
def RemasterMngr.used (r : RemasterMngr) (i : InstId) : Bool := (r.targetInstPartTbl i).isUsed

/-- The first `k i` partitions of instance `i`. -/
def RemasterMngr.front (r : RemasterMngr) (k : InstId → Nat) (i : InstId) : List PartId :=
  chain (fun p => (r.targetPartMap p).next) (r.targetInstPartTbl i).first (k i)

/-- The tasks that export them. -/
def RemasterMngr.exports (r : RemasterMngr) (k : InstId → Nat) : List RemasterTask :=
  (List.finRange 64).flatMap fun i => (r.front k i).map (exportTask i)

/-- The loop takes the first `k i` partitions off the list of instance `i`. -/
structure Takes (r : RemasterMngr) (body : InstId → Nat → InstPart → InstPart × List RemasterTask)
    (k : InstId → Nat) : Prop where
  le : ∀ i, k i ≤ (r.targetInstPartTbl i).count
  tasks : ∀ i, (body i (rank r.used i) (r.targetInstPartTbl i)).2 =
    (r.front k i).map (exportTask i)
  rest : ∀ i,
    chain (fun p => (r.targetPartMap p).next)
        (body i (rank r.used i) (r.targetInstPartTbl i)).1.first
        (body i (rank r.used i) (r.targetInstPartTbl i)).1.count =
      chain (fun p => (r.targetPartMap p).next)
        ((fun p => (r.targetPartMap p).next)^[k i] (r.targetInstPartTbl i).first)
        ((r.targetInstPartTbl i).count - k i)

variable {body : InstId → Nat → InstPart → InstPart × List RemasterTask} {k : InstId → Nat}

lemma instLoop_entry (i : InstId) : (instLoop body (List.finRange 64) 0 r).targetInstPartTbl i =
      (body i (rank r.used i) (r.targetInstPartTbl i)).1 := by
  rw [instLoop_tbl (nodup_finRange 64) (mem_finRange i), zero_add]
  rfl

lemma Takes.instLoop_tasks (hk : Takes r body k) :
    (instLoop body (List.finRange 64) 0 r).remasterTaskSet =
      r.remasterTaskSet ++ r.exports k := by
  rw [Remaster.instLoop_tasks (nodup_finRange 64)]
  congr 1
  refine flatMap_congr fun i _ => ?_
  rw [zero_add]
  exact hk.tasks i

lemma exports_parts : (r.exports k).map (·.partId) = (List.finRange 64).flatMap (r.front k) := by
  unfold exports
  rw [List.map_flatMap]
  refine flatMap_congr fun i _ => ?_
  rw [List.map_map]
  exact map_id _

lemma Takes.exports_owner (hk : Takes r body k) (hmov : Moving old r []) {t}
    (ht : t ∈ r.exports k) :
    0 < k t.exportInst ∧ (r.targetPartMap t.partId).instId = t.exportInst := by
  obtain ⟨i, -, hi⟩ := mem_flatMap.mp ht
  obtain ⟨p, hp, rfl⟩ := mem_map.mp hi
  constructor
  · refine pos_of_ne_zero fun h0 => ?_
    unfold front at hp
    rw [show k i = 0 from h0] at hp
    simp at hp
  · have hmem : p ∈ chain (fun p => (r.targetPartMap p).next) (r.targetInstPartTbl i).first
        (r.targetInstPartTbl i).count := by
      rw [← Nat.add_sub_cancel' (hk.le i), chain_add]
      exact mem_append_left _ hp
    exact ((hmov.filed.mem i p).mp hmem).1

/-- The tables between the two loops. -/
lemma Takes.moving (hk : Takes r body k) (hmov : Moving old r [])
    (hkept : ∀ p, 0 < k (r.targetPartMap p).instId → r.targetPartMap p = old p) :
    Moving old { instLoop body (List.finRange 64) 0 r with
      remasterTaskSet := r.remasterTaskSet } (r.exports k) := by
  have hexports : ∀ t ∈ r.exports k, t.exportInst = (r.targetPartMap t.partId).instId ∧
      r.targetPartMap t.partId = old t.partId := by
    intro t ht
    obtain ⟨hpos, hown⟩ := hk.exports_owner hmov ht
    exact ⟨hown.symm, hkept _ (by rw [hown]; exact hpos)⟩
  have htake : Filed _ _ _ _ ((finRange 64).flatMap (r.front k)) :=
    hmov.filed.takeAll (nodup_finRange 64) mem_finRange hk.le hk.rest
  constructor
  · rw [exports_parts]
    simpa only [RemasterMngr.Filed, instLoop_map, instLoop_entry] using htake
  · rw [map_append, nodup_append]
    refine ⟨by simpa using hmov.distinct, ?_, ?_⟩
    · rw [exports_parts]
      exact htake.loose_nodup
    · -- a partition that was moved before is not where it was
      intro p hp q hq hpq
      obtain ⟨t, ht, rfl⟩ := mem_map.mp hp
      obtain ⟨t', ht', rfl⟩ := mem_map.mp hq
      obtain ⟨hexp, himp, hne⟩ := hmov.moved t ht
      have hsame := (hexports t' ht').2
      rw [← hpq] at hsame
      exact hne (by rw [hexp, himp, hsame])
  · intro p hp
    rw [instLoop_map]
    exact hmov.kept p hp
  · intro t ht
    rw [instLoop_map]
    exact hmov.moved t ht
  · intro t ht
    obtain ⟨hexp, hsame⟩ := hexports t ht
    rw [hexp, hsame]

end taken

/-! ## The tables after a half -/

/-- The target tables after a half of the remaster that started from `m₀`.
What is still with an old member is as it was. -/
structure Stage (m₀ m : PartMngr) (members : InstId → Bool) : Prop where
  partMap : m.partMap = m₀.partMap
  instPartTbl : m.instPartTbl = m₀.instPartTbl
  mgrtFailList : m.mgrtFailList = m₀.mgrtFailList
  moving : Moving m₀.partMap m.remasterMngr []
  used : m.remasterMngr.used = members
  unused : ∀ i, members i = false → (m.remasterMngr.targetInstPartTbl i).count = 0
  instNum : m.instNum = (List.finRange 64).countP members
  home : ∀ p, (m₀.instPartTbl (m.remasterMngr.targetPartMap p).instId).isUsed = true →
    m.remasterMngr.targetPartMap p = m₀.partMap p

/-- The members before the reform. -/
def PartMngr.members (m : PartMngr) (i : InstId) : Bool := (m.instPartTbl i).isUsed

lemma WellFormed.unused {m} (hm : WellFormed m) {i} (hi : m.members i = false) :
    (m.instPartTbl i).count = 0 := by
  have hnil : partsOf m.instPartTbl m.partMap i = [] := by
    refine eq_nil_iff_forall_not_mem.mpr fun p hp => ?_
    have hused := hm.mapped p
    rw [((hm.lists i).2 p).mp hp] at hused
    rw [members, hused] at hi
    cases hi
  have hlen : (partsOf m.instPartTbl m.partMap i).length = (m.instPartTbl i).count :=
    length_chain
  rw [← hlen, hnil, length_nil]

lemma WellFormed.stage {m} (hm : WellFormed m) : Stage m (drcIntRemasterTarget m) m.members := by
  refine ⟨rfl, rfl, rfl, ⟨⟨fun i => (hm.lists i).1, fun i p => ?_, by simp⟩, by
    simp [drcIntRemasterTarget], fun _ _ => rfl, by simp [drcIntRemasterTarget], by simp⟩, rfl,
    fun i hi => hm.unused hi, hm.instNum, fun _ _ => rfl⟩
  rw [map_nil, and_iff_left not_mem_nil]
  exact (hm.lists i).2 p

lemma countP_finRange (p : InstId → Bool) :
    (List.finRange 64).countP p = (Finset.univ.filter fun i => p i = true).card := by
  rw [countP_eq_length_filter, ← toFinset_card_of_nodup ((nodup_finRange 64).filter _)]
  congr 1
  ext i
  simp

/-! ## Scale-out -/

/-- The members after the instances `new` have joined. -/
def PartMngr.joined (m : PartMngr) (new : List InstId) (i : InstId) : Bool :=
  m.members i || decide (i ∈ new)

/-- The expected number that instance `i` gets when the instances `new` join. -/
def joinShare (s : Session) (m : PartMngr) (new : List InstId) (i : InstId) : Nat :=
  if s.reformerMode then (if m.remasterInst = i then 1024 else 0)
  else quota (m.joined new) (new.length + m.instNum) i

section scaleout

variable {s : Session} {m : PartMngr} {new : List InstId}

lemma joined_instNum (hm : WellFormed m) (hnodup : new.Nodup)
    (hnew : ∀ i ∈ new, m.members i = false) :
    new.length + m.instNum = (List.finRange 64).countP (m.joined new) := by
  have hdisj : Disjoint new.toFinset (univ.filter fun i => m.members i = true) := by
    rw [Finset.disjoint_left]
    intro i hi hmem
    simp [hnew i (mem_toFinset.mp hi)] at hmem
  have hnum : m.instNum = (univ.filter fun i => m.members i = true).card :=
    hm.instNum.trans (countP_finRange m.members)
  rw [hnum, countP_finRange, ← toFinset_card_of_nodup hnodup, ← card_union_of_disjoint hdisj]
  congr 1
  ext i
  simp [joined, or_comm]

/-- The shares of the enlarged cluster are all partitions. -/
lemma sum_joinShare (hm : WellFormed m) (hnodup : new.Nodup) (hne : new ≠ [])
    (hnew : ∀ i ∈ new, m.members i = false)
    (hreformer : s.reformerMode = true → m.members m.remasterInst = true) :
    ∑ i, (if m.joined new i then joinShare s m new i else 0) = 1024 := by
  unfold joinShare
  split
  · have hmem : m.joined new m.remasterInst = true := by
      simp [joined, hreformer ‹_›]
    rw [sum_eq_single m.remasterInst]
    · simp [hmem]
    · intro i _ hi
      simp [Ne.symm hi]
    · simp
  · refine sum_quota (joined_instNum hm hnodup hnew) ?_
    have := length_pos_iff.mpr hne
    omega

/-- The entry of instance `i` after the first loop of a scale-out. -/
lemma exportBody_eq {expected map i seq e} (hused : e.isUsed = true) :
    exportBody expected map i seq e =
      ({ e with
          expectedNum := expected i seq
          first := (fun p => (map p).next)^[e.count - expected i seq] e.first
          count := min e.count (expected i seq) },
        (chain (fun p => (map p).next) e.first (e.count - expected i seq)).map
          (exportTask i)) := by
  simp only [exportBody, if_pos hused, drcSetRemasterTasksetExportInst]
  split
  · rw [min_eq_right (by omega)]
  · rw [min_eq_left (by omega), Nat.sub_eq_zero_of_le (by omega)]
    rfl

lemma exportBody_unused {expected map i seq e} (hused : e.isUsed = false) :
    exportBody expected map i seq e = (e, []) := by
  simp [exportBody, hused]

/-- What the first loop of a scale-out takes off. -/
lemma takes_exportBody (r : RemasterMngr) (expected : InstId → Nat → Nat) :
    Takes r (exportBody expected r.targetPartMap) fun i =>
      if r.used i then (r.targetInstPartTbl i).count - expected i (rank r.used i) else 0 := by
  constructor
  · intro i
    split <;> omega
  · intro i
    cases hused : r.used i with
    | true =>
      rw [exportBody_eq hused]
      simp [front, hused]
    | false =>
      rw [exportBody_unused hused]
      simp [front, hused]
  · intro i
    cases hused : r.used i with
    | true =>
      rw [exportBody_eq hused]
      simp only [if_true]
      congr 1
      omega
    | false =>
      rw [exportBody_unused hused]
      simp

/-- The target with the new instances marked. -/
def PartMngr.marked (m : PartMngr) (new : List InstId) : RemasterMngr :=
  { targetInstPartTbl := markNew m.instPartTbl new
    targetPartMap := m.partMap
    remasterTaskSet := [] }

lemma marked_used : (m.marked new).used = m.joined new := by
  funext i
  simp only [used, marked, markNew_apply, joined, members]
  split <;> simp_all

lemma marked_count (hm : WellFormed m) (hnew : ∀ i ∈ new, m.members i = false) (i : InstId) :
    ((m.marked new).targetInstPartTbl i).count = (m.instPartTbl i).count := by
  simp only [marked, markNew_apply]
  split
  · exact (hm.unused (hnew i ‹_›)).symm
  · rfl

lemma marked_moving (hm : WellFormed m) (hnew : ∀ i ∈ new, m.members i = false) :
    Moving m.partMap (m.marked new) [] := by
  have hfirst : ∀ i, ((m.marked new).targetInstPartTbl i).first = (m.instPartTbl i).first := by
    intro i
    simp only [marked, markNew_apply]
    split <;> rfl
  have hmov := hm.stage.moving
  refine ⟨?_, by simp [marked], fun _ _ => rfl, by simp [marked], by simp⟩
  have hfiled := hmov.filed
  simp only [RemasterMngr.Filed, hfirst, marked_count hm hnew]
  exact hfiled

/-- No current member has fewer partitions than it should have after the join. -/
def JoinFits (s : Session) (m : PartMngr) (new : List InstId) : Prop :=
  ∀ i, m.members i = true → joinShare s m new i ≤ (m.instPartTbl i).count

section
variable (hm : WellFormed m) (hnodup : new.Nodup) (hne : new ≠ [])
  (hnew : ∀ i ∈ new, m.members i = false)
include hm hnodup hne hnew

lemma joinShare_pos (hmode : s.reformerMode = false) (i : InstId) : 0 < joinShare s m new i := by
  have hlen := length_pos_iff.mpr hne
  have hnum := joined_instNum hm hnodup hnew
  have hle : (finRange 64).countP (m.joined new) ≤ 64 := by
    simpa using countP_le_length (l := finRange 64) (p := m.joined new)
  simp only [joinShare, hmode, quota]
  exact expectedShare_pos (by omega) (by omega)

lemma scaleoutExport_spec (hreformer : s.reformerMode = true → m.members m.remasterInst = true)
    (hfit : JoinFits s m new) {r} (hr : (if s.reformerMode then
        drcSetRemasterTasksetDrcInReformerMode m.remasterInst (m.marked new)
      else drcSetRemasterTaskset (new.length + m.instNum) (m.marked new)) = r) :
    Moving m.partMap { r with remasterTaskSet := [] } r.remasterTaskSet ∧
      Allotted { r with remasterTaskSet := [] } ∧
      Filling new { r with remasterTaskSet := [] } 0 ∧
      r.used = m.joined new ∧
     (∀ i, (r.targetInstPartTbl i).due = if m.joined new i then joinShare s m new i else 0) ∧
      ∀ k ∈ r.remasterTaskSet, k.exportInst ∉ new := by
  obtain ⟨expected, hexp, hr⟩ : ∃ expected : InstId → Nat → Nat,
     (∀ i, expected i (rank (m.marked new).used i) = joinShare s m new i) ∧
      instLoop (exportBody expected (m.marked new).targetPartMap) (finRange 64) 0
       (m.marked new) = r := by
    cases hmode : s.reformerMode with
    | true =>
      rw [if_pos hmode] at hr
      refine ⟨fun i _ => if m.remasterInst = i then 1024 else 0, fun i => ?_, hr⟩
      simp [joinShare, hmode]
    | false =>
      rw [if_neg (by simp [hmode])] at hr
      refine ⟨fun _ => expectedShare (new.length + m.instNum), fun i => ?_, hr⟩
      simp [joinShare, hmode, quota, marked_used]
  have hmov := marked_moving hm hnew
  have htakes := takes_exportBody (m.marked new) expected
  have htasks := htakes.instLoop_tasks
  have hmoving := htakes.moving hmov fun _ _ => rfl
  rw [hr] at htasks hmoving
  have hentry : ∀ i, r.targetInstPartTbl i = (exportBody expected (m.marked new).targetPartMap i
     (rank (m.marked new).used i) ((m.marked new).targetInstPartTbl i)).1 := by
    intro i
    rw [← hr, instLoop_entry]
  have hin : ∀ i, m.joined new i = true → (r.targetInstPartTbl i).isUsed = true ∧
     (r.targetInstPartTbl i).expectedNum = joinShare s m new i ∧
     (r.targetInstPartTbl i).count = min (m.instPartTbl i).count (joinShare s m new i) := by
    intro i hi
    rw [← marked_used] at hi
    rw [hentry, exportBody_eq hi, hexp, marked_count hm hnew]
    exact ⟨hi, rfl, rfl⟩
  have hout : ∀ i, m.joined new i = false → (r.targetInstPartTbl i).isUsed = false ∧
     (r.targetInstPartTbl i).count = 0 := by
    intro i hi
    have hold : m.members i = false := by
      simp only [joined, Bool.or_eq_false_iff] at hi
      exact hi.1
    rw [← marked_used] at hi
    rw [hentry, exportBody_unused hi, marked_count hm hnew, hm.unused hold]
    exact ⟨hi, rfl⟩
  have hused : r.used = m.joined new := by
    funext i
    cases hi : m.joined new i with
    | true => exact (hin i hi).1
    | false => exact (hout i hi).1
  have hdue : ∀ i, (r.targetInstPartTbl i).due =
      if m.joined new i then joinShare s m new i else 0 := by
    intro i
    cases hi : m.joined new i with
    | true => simp [due, hin i hi]
    | false => simp [due, hout i hi]
  have hcount : ∀ i, (r.targetInstPartTbl i).count ≤ (r.targetInstPartTbl i).due := by
    intro i
    rw [hdue]
    cases hi : m.joined new i with
    | true => simp [hin i hi]
    | false => simp [hout i hi]
  have hempty : ∀ i ∈ new, (m.instPartTbl i).count = 0 := fun i hi => hm.unused (hnew i hi)
  have htodo : r.remasterTaskSet = (m.marked new).exports _ := htasks
  refine ⟨?_, ⟨?_, ?_⟩, ⟨hcount, ?_, length_pos_iff.mpr hne, by simp, ?_⟩, hused, hdue, ?_⟩
  · rw [htodo]
    exact hmoving
  · rw [← sum_joinShare hm hnodup hne hnew hreformer]
    exact sum_congr rfl fun i _ => hdue i
  · intro i hi
    refine (hout i ?_).2
    rw [← hused]
    exact hi
  · intro i hi
    rw [hdue]
    cases hj : m.joined new i with
    | true =>
      have hold : m.members i = true := by simpa [joined, hi] using hj
      rw [(hin i hj).2.2, min_eq_right (hfit i hold)]
      rfl
    | false => exact (hout i hj).2
  · intro a _ i hi
    have hmem := mem_of_getElem? hi
    have hj : m.joined new i = true := by simp [joined, hmem]
    rw [(hin i hj).2.2, hempty i hmem, zero_min]
  · intro t ht hmem
    rw [htodo] at ht
    have hpos := (htakes.exports_owner hmov ht).1
    rw [marked_count hm hnew, hempty _ hmem] at hpos
    simp at hpos

end

lemma drcScaleoutRemaster_spec {newIdArray newNum} (hm : WellFormed m) (hnum : 0 < newNum)
    (hlen : newNum ≤ newIdArray.length) (hids : newIdArray.take newNum = new) (hnodup : new.Nodup)
    (hnew : ∀ i ∈ new, m.members i = false)
    (hreformer : s.reformerMode = true → m.members m.remasterInst = true)
    (hfit : JoinFits s m new) :
    ∃ m', drcScaleoutRemaster s newIdArray newNum (drcIntRemasterTarget m) = some m' ∧
      Stage m m' (m.joined new) ∧
      ∀ i, m.joined new i = true →
        (m'.remasterMngr.targetInstPartTbl i).count = joinShare s m new i ∧
        (m'.remasterMngr.targetInstPartTbl i).expectedNum = joinShare s m new i := by
  have hlength : new.length = newNum := by
    rw [← hids, length_take]
    omega
  have hne : new ≠ [] := by
    intro h
    rw [h, length_nil] at hlength
    omega
  obtain ⟨r, hr⟩ : ∃ r, (if s.reformerMode then
      drcSetRemasterTasksetDrcInReformerMode m.remasterInst (m.marked new)
    else drcSetRemasterTaskset (new.length + m.instNum) (m.marked new)) = r := ⟨_, rfl⟩
  obtain ⟨hmov, hall, hfill, hused, hdue, hexport⟩ :=
    scaleoutExport_spec hm hnodup hne hnew hreformer hfit hr
  have hpos : r.remasterTaskSet = [] ∨
      ∀ i ∈ new, 0 < (r.targetInstPartTbl i).due := by
    cases hmode : s.reformerMode with
    | false =>
      right
      intro i hi
      rw [hdue, if_pos (by simp [joined, hi])]
      exact joinShare_pos hm hnodup hne hnew hmode i
    | true =>
      -- the reformer has all partitions already
      left
      have hmem := hreformer hmode
      have hnot : m.remasterInst ∉ new := by
        intro hin
        cases (hnew _ hin).symm.trans hmem
      have hfull := hfill.rest _ hnot
      have hsum := hmov.sum_count
      have hle := single_le_sum (f := fun i => (r.targetInstPartTbl i).count)
        (fun i _ => Nat.zero_le _) (mem_univ m.remasterInst)
      have h1024 : (r.targetInstPartTbl m.remasterInst).due = 1024 := by
        rw [hdue]
        simp [joined, hmem, joinShare, hmode]
      refine eq_nil_of_length_eq_zero ?_
      simp only at hfull hsum hle
      omega
  obtain ⟨r', hr', hhand, hcount⟩ :=
    scaleoutImport_spec hmov hall hids hnodup hfill hpos hexport
  refine ⟨{ drcIntRemasterTarget m with instNum := newNum + m.instNum, remasterMngr := r' }, ?_,
    ⟨rfl, rfl, rfl, hhand.moving, ?_, ?_, ?_, ?_⟩, ?_⟩
  · have hany : ¬ (new.any fun i => (m.instPartTbl i).isUsed) := by
      rw [any_eq_true]
      rintro ⟨i, hi, hin⟩
      cases (hnew i hi).symm.trans hin
    unfold drcScaleoutRemaster drcIntRemasterTarget
    rw [if_neg (by omega), hids, if_neg hany]
    rw [hlength, marked] at hr
    simp only [hr, hr', Option.map_some]
  · rw [← hused]
    funext i
    exact (hhand.shares i).1
  · intro i hi
    refine hhand.allotted.unused i ?_
    rw [(hhand.shares i).1, ← hi, ← hused]
    rfl
  · rw [← joined_instNum hm hnodup hnew, hlength]
  · -- what was moved is with a new instance
    intro p hp
    by_cases hmem : p ∈ r'.remasterTaskSet.map (·.partId)
    · obtain ⟨t, ht, rfl⟩ := mem_map.mp hmem
      obtain ⟨todo, htasks, -, hdest⟩ := hhand.tasks
      have hin : t.importInst ∈ new := by
        refine hdest t ?_
        rw [htasks] at ht
        simpa using ht
      have hold := hnew _ hin
      rw [(hhand.moving.moved t ht).2.1] at hold
      rw [members] at hold
      cases hold.symm.trans hp
    · exact hhand.moving.kept p hmem
  · intro i hi
    have hdue' : (r'.targetInstPartTbl i).due = joinShare s m new i := by
      rw [hhand.shares.due]
      rw [hdue, if_pos hi]
    have hisUsed : (r'.targetInstPartTbl i).isUsed = true := by
      rw [(hhand.shares i).1, ← hi, ← hused]
      rfl
    refine ⟨(hcount i).trans hdue', ?_⟩
    rw [← hdue', due, if_pos hisUsed]

end scaleout

end Cantian.Remaster
