import Cantian.Remaster.Scaleout

/-!
# Remaster: scale-in

A scale-in walks the lists of the departing instances along the links of
`part_map`. These are the links of the target as long as a departing
instance was an old member and got nothing in this reform.
-/

namespace Cantian.Remaster

open List Finset RemasterMngr InstPart

open Cantian.Dcs (InstId)

variable {m₀ m : PartMngr} {members : InstId → Bool} {gone : List InstId}

/-- The members without the departing instances. -/
def without (members : InstId → Bool) (gone : List InstId) (i : InstId) : Bool :=
  members i && !gone.contains i

lemma without_instNum (hst : Stage m₀ m members) (hnodup : gone.Nodup)
    (hgone : ∀ i ∈ gone, members i = true) :
    m.instNum = gone.length + (List.finRange 64).countP (without members gone) := by
  have hdisj : Disjoint gone.toFinset
      (univ.filter fun i => without members gone i = true) := by
    rw [Finset.disjoint_left]
    intro i hi hmem
    simp [without, mem_toFinset.mp hi] at hmem
  rw [hst.instNum, countP_finRange, countP_finRange, ← toFinset_card_of_nodup hnodup,
    ← card_union_of_disjoint hdisj]
  congr 1
  ext i
  by_cases hi : i ∈ gone
  · simp [hi, hgone i hi]
  · simp [hi, without]

/-- The target with the departing instances marked. -/
def RemasterMngr.unmarked (r : RemasterMngr) (gone : List InstId) : RemasterMngr :=
  { r with targetInstPartTbl := markDeleted r.targetInstPartTbl gone }

lemma unmarked_used (hst : Stage m₀ m members) :
    (m.remasterMngr.unmarked gone).used = without members gone := by
  rw [← hst.used]
  funext i
  simp only [used, unmarked, markDeleted_apply, without]
  split <;> simp_all

lemma unmarked_count (r : RemasterMngr) (i : InstId) :
    ((r.unmarked gone).targetInstPartTbl i).count = (r.targetInstPartTbl i).count := by
  simp only [unmarked, markDeleted_apply]
  split <;> rfl

lemma unmarked_first (r : RemasterMngr) (i : InstId) :
    ((r.unmarked gone).targetInstPartTbl i).first = (r.targetInstPartTbl i).first := by
  simp only [unmarked, markDeleted_apply]
  split <;> rfl

lemma unmarked_moving (hst : Stage m₀ m members) (gone : List InstId) :
    Moving m₀.partMap (m.remasterMngr.unmarked gone) [] := by
  have hmov := hst.moving
  refine { hmov with filed := ?_, todo_export := by simp }
  have hfiled := hmov.filed
  simp only [RemasterMngr.Filed, unmarked_count, unmarked_first]
  exact hfiled

variable {instNum : Nat} {i : InstId}

lemma scaleinBody_used {seq map e} (hused : e.isUsed = true) : scaleinBody instNum map i seq e =
      ({ e with expectedNum := expectedShare instNum seq }, []) := by
  simp [scaleinBody, hused]

lemma scaleinBody_unused {seq map e} (hused : e.isUsed = false) : scaleinBody instNum map i seq e =
      ({ e with count := 0 },
        (Lib.chain (fun p => (map p).next) e.first e.count).map (exportTask i)) := by
  rw [scaleinBody, if_neg (by simp [hused])]
  split
  · rfl
  · have h0 : e.count = 0 := by omega
    rw [h0, Lib.chain_zero, map_nil, ← h0]

/-- What the first loop of a scale-in takes off: all that is not with a member. -/
lemma takes_scaleinBody (instNum : Nat) (hst : Stage m₀ m members)
    (hgone : ∀ i ∈ gone, m₀.members i = true) :
    Takes (m.remasterMngr.unmarked gone) (scaleinBody instNum m₀.partMap) fun i =>
      if without members gone i then 0 else (m.remasterMngr.targetInstPartTbl i).count := by
  have hused : ∀ i, ((m.remasterMngr.unmarked gone).targetInstPartTbl i).isUsed =
      without members gone i := fun i => congrFun (unmarked_used hst) i
  constructor
  · intro i
    rw [unmarked_count]
    split <;> omega
  · intro i
    cases hi : without members gone i with
    | true =>
      rw [scaleinBody_used ((hused i).trans hi)]
      simp [front, hi]
    | false =>
      rw [scaleinBody_unused ((hused i).trans hi)]
      simp only [front, hi, unmarked_count, unmarked_first]
      -- the links of `part_map` lead through the list of a departing instance
      refine congrArg _ (Lib.chain_congr fun p hp => ?_)
      have hown := ((hst.moving.filed.mem i p).mp hp).1
      have hmem : members i = true := by
        by_contra hnot
        rw [hst.unused i (by simpa using hnot)] at hp
        simp at hp
      have hin : i ∈ gone := by simpa [without, hmem] using hi
      rw [← hst.home p (hown ▸ hgone i hin)]
      rfl
  · intro i
    cases hi : without members gone i with
    | true =>
      rw [scaleinBody_used ((hused i).trans hi)]
      simp
    | false =>
      rw [scaleinBody_unused ((hused i).trans hi)]
      simp [unmarked_count]

/-- The tables when the partitions of the departing instances wait for a member. -/
lemma scaleinExport_spec (hst : Stage m₀ m members) (hgone : ∀ i ∈ gone, m₀.members i = true)
    (hnum : instNum = (List.finRange 64).countP (without members gone)) (hpos : 0 < instNum) {r}
    (hr : instLoop (scaleinBody instNum m₀.partMap) (List.finRange 64) 0
      (m.remasterMngr.unmarked gone) = r) :
    ∃ todo, r.remasterTaskSet = m.remasterMngr.remasterTaskSet ++ todo ∧
      Moving m₀.partMap { r with remasterTaskSet := m.remasterMngr.remasterTaskSet } todo ∧
      Allotted { r with remasterTaskSet := m.remasterMngr.remasterTaskSet } ∧
      r.used = without members gone ∧
      (∀ i, without members gone i = true →
        (r.targetInstPartTbl i).expectedNum = quota (without members gone) instNum i ∧
        (r.targetInstPartTbl i).count = (m.remasterMngr.targetInstPartTbl i).count) ∧
      ∀ k ∈ todo, k.exportInst ∈ gone := by
  have hmov := unmarked_moving hst gone
  have htakes := takes_scaleinBody instNum hst hgone
  have husedU : ∀ i, ((m.remasterMngr.unmarked gone).targetInstPartTbl i).isUsed =
      without members gone i := fun i => congrFun (unmarked_used hst) i
  have hentry : ∀ i, r.targetInstPartTbl i = (scaleinBody instNum m₀.partMap i
      (rank (m.remasterMngr.unmarked gone).used i)
      ((m.remasterMngr.unmarked gone).targetInstPartTbl i)).1 := by
    intro i
    rw [← hr, instLoop_entry]
  have hin : ∀ i, without members gone i = true → (r.targetInstPartTbl i).isUsed = true ∧
      (r.targetInstPartTbl i).expectedNum = quota (without members gone) instNum i ∧
      (r.targetInstPartTbl i).count = (m.remasterMngr.targetInstPartTbl i).count := by
    intro i hi
    rw [hentry, scaleinBody_used ((husedU i).trans hi), unmarked_used hst]
    exact ⟨(husedU i).trans hi, rfl, unmarked_count _ i⟩
  have hout : ∀ i, without members gone i = false → (r.targetInstPartTbl i).isUsed = false ∧
      (r.targetInstPartTbl i).count = 0 := by
    intro i hi
    rw [hentry, scaleinBody_unused ((husedU i).trans hi)]
    exact ⟨(husedU i).trans hi, rfl⟩
  have hused : r.used = without members gone := by
    funext i
    cases hi : without members gone i with
    | true => exact (hin i hi).1
    | false => exact (hout i hi).1
  -- what is exported is with a departing instance, so it was not moved before
  have hfrom : ∀ i, 0 < (if without members gone i then 0
      else (m.remasterMngr.targetInstPartTbl i).count) → i ∈ gone := by
    intro i hi
    cases hw : without members gone i with
    | true => simp [hw] at hi
    | false =>
      have hmem : members i = true := by
        by_contra hnot
        simp [hw, hst.unused i (by simpa using hnot)] at hi
      simpa [without, hmem] using hw
  have hmoving := htakes.moving hmov fun p hp => hst.home p (hgone _ (hfrom _ hp))
  rw [hr] at hmoving
  refine ⟨_, hr ▸ htakes.instLoop_tasks, hmoving, ⟨?_, ?_⟩, hused,
    fun i hi => (hin i hi).2, fun k hk => hfrom _ (htakes.exports_owner hmov hk).1⟩
  · rw [← sum_quota hnum hpos]
    refine sum_congr rfl fun i _ => ?_
    cases hi : without members gone i with
    | true => simp [due, hin i hi]
    | false => simp [due, hout i hi]
  · intro i hi
    refine (hout i ?_).2
    rw [← hused]
    exact hi

/-- What a scale-in leaves when the tasks of an abort are not dropped yet. -/
structure ScaledIn (m₀ m : PartMngr) (rest : InstId → Bool) (gone : List InstId)
    (r : RemasterMngr) : Prop where
  moving : Moving m₀.partMap r []
  used : r.used = rest
  unused : ∀ i, rest i = false → (r.targetInstPartTbl i).count = 0
  tasks : ∃ new, r.remasterTaskSet = m.remasterMngr.remasterTaskSet ++ new ∧
    ∀ k ∈ new, k.exportInst ∈ gone
  expected : ∀ i, rest i = true →
    (r.targetInstPartTbl i).expectedNum = quota rest ((List.finRange 64).countP rest) i
  count : (∀ i, rest i = true → (m.remasterMngr.targetInstPartTbl i).count ≤
      quota rest ((List.finRange 64).countP rest) i) →
    ∀ i, rest i = true →
      (r.targetInstPartTbl i).count = quota rest ((List.finRange 64).countP rest) i

lemma drcScaleinRemaster_spec {deleteIdArray deleteNum} (isAbort : Bool) (hst : Stage m₀ m members)
    (hnum : 0 < deleteNum) (hlen : deleteNum ≤ deleteIdArray.length)
    (hids : deleteIdArray.take deleteNum = gone) (hnodup : gone.Nodup)
    (hgone : ∀ i ∈ gone, m₀.members i = true) (hmem : ∀ i ∈ gone, members i = true)
    (hsurv : ∃ i, without members gone i = true) :
    ∃ m' r, drcScaleinRemaster deleteIdArray deleteNum m isAbort = some m' ∧
      m'.instNum = (List.finRange 64).countP (without members gone) ∧
      m'.remasterMngr = (if isAbort then
        { r with remasterTaskSet := m.remasterMngr.remasterTaskSet } else r) ∧
      ScaledIn m₀ m (without members gone) gone r := by
  have hlength : gone.length = deleteNum := by
    rw [← hids, length_take]
    omega
  have hinst := without_instNum hst hnodup hmem
  rw [hlength] at hinst
  have hpos : 0 < (finRange 64).countP (without members gone) := by
    obtain ⟨i, hi⟩ := hsurv
    exact countP_pos_iff.mpr ⟨i, mem_finRange i, hi⟩
  have hrest : m.instNum - deleteNum = (finRange 64).countP (without members gone) := by omega
  obtain ⟨r, hr⟩ : ∃ r, instLoop (scaleinBody (m.instNum - deleteNum) m₀.partMap)
    (finRange 64) 0 (m.remasterMngr.unmarked gone) = r := ⟨_, rfl⟩
  obtain ⟨todo, htasks, hmov, hall, hused, hin, hexport⟩ :=
    scaleinExport_spec hst hgone hrest (by omega) hr
  have hunused : ∀ k ∈ todo, (r.targetInstPartTbl k.exportInst).isUsed = false := by
    intro k hk
    have : r.used k.exportInst = false := by
      rw [hused]
      simp [without, hexport k hk]
    exact this
  obtain ⟨r', hr', hhand, hcount⟩ := scaleinImport_spec
    (if isAbort then .waitRecovery else .waitMigrate) 0 hmov hall hunused (by simp)
  obtain ⟨new, hnew, hpairs, -⟩ := hhand.tasks
  have hshare : ∀ i, without members gone i = true →
      (r'.targetInstPartTbl i).expectedNum =
        quota (without members gone) ((finRange 64).countP (without members gone)) i := by
    intro i hi
    rw [(hhand.shares i).2, ← hrest]
    exact (hin i hi).1
  have hused' : r'.used = without members gone := by
    rw [← hused]
    funext i
    exact (hhand.shares i).1
  refine ⟨{ m with
      instNum := m.instNum - deleteNum
      remasterMngr := if isAbort then
          { r' with remasterTaskSet := m.remasterMngr.remasterTaskSet }
        else r' }, r', ?_, hrest, rfl, hhand.moving, hused', ?_, ⟨new, hnew, ?_⟩, hshare, ?_⟩
  · have hany : ¬ (gone.any fun i => !(m.instPartTbl i).isUsed) := by
      rw [hst.instPartTbl, any_eq_true]
      rintro ⟨i, hi, hnot⟩
      simp [show (m₀.instPartTbl i).isUsed = true from hgone i hi] at hnot
    unfold drcScaleinRemaster
    rw [if_neg (by omega), hids, if_neg hany, hst.partMap]
    rw [unmarked] at hr
    simp only [hr, htasks, drop_left, take_left, hr', Option.map_some]
    rw [hnew]
    simp
  · intro i hi
    refine hhand.allotted.unused i ?_
    rw [← hi, ← hused']
    rfl
  · intro k hk
    have hkk : (k.exportInst, k.partId) ∈ todo.map fun k => (k.exportInst, k.partId) := by
      rw [← hpairs]
      exact mem_map_of_mem hk
    obtain ⟨k', hk', heq⟩ := mem_map.mp hkk
    rw [← (Prod.mk.inj heq).1]
    exact hexport k' hk'
  · intro hle i hi
    have hroom : ∀ j, (r.targetInstPartTbl j).count ≤ (r.targetInstPartTbl j).due := by
      intro j
      cases hj : without members gone j with
      | true =>
        have hjused : (r.targetInstPartTbl j).isUsed = true := (congrFun hused j).trans hj
        rw [due, if_pos hjused, (hin j hj).2, (hin j hj).1, hrest]
        exact hle j hj
      | false =>
        have hjused : (r.targetInstPartTbl j).isUsed = false := (congrFun hused j).trans hj
        rw [show (r.targetInstPartTbl j).count = 0 from hall.unused j hjused]
        exact Nat.zero_le _
    have hiused : (r'.targetInstPartTbl i).isUsed = true := (congrFun hused' i).trans hi
    rw [hcount hroom i, due, if_pos hiused]
    exact hshare i hi

end Cantian.Remaster
