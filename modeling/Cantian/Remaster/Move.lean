import Cantian.Remaster.Share

/-!
# Remaster: moving partitions

Between the two loops of a scale-out or scale-in the exported partitions are
in nobody's list. `Moving` says what the target tables are while the second
loop hands them out: the lists of the instances hold all other partitions,
a partition without a task is as it was, and a task that is done names the
old and the new master. The second loops never run out of instances because
the expected numbers of the members add up to all partitions.
-/

namespace Cantian.Remaster

open List Option Finset InstPart

open Cantian.Dcs (InstId)

/-! ## The invariant of a move -/

/-- The target lists are exact, but for the loose partitions. -/
def RemasterMngr.Filed (r : RemasterMngr) (loose : List PartId) : Prop :=
  Lib.Filed (fun p => (r.targetPartMap p).next) (fun i => (r.targetInstPartTbl i).first)
    (fun i => (r.targetInstPartTbl i).count) (fun p => (r.targetPartMap p).instId) loose

/-- The target tables when the tasks of `todo` wait for their import instance. -/
structure Moving (old : PartId → Part) (r : RemasterMngr) (todo : List RemasterTask) : Prop where
  filed : r.Filed (todo.map (·.partId))
  distinct : ((r.remasterTaskSet ++ todo).map (·.partId)).Nodup
  kept : ∀ p, p ∉ r.remasterTaskSet.map (·.partId) → r.targetPartMap p = old p
  moved : ∀ k ∈ r.remasterTaskSet, k.exportInst = (old k.partId).instId ∧
    k.importInst = (r.targetPartMap k.partId).instId ∧ k.exportInst ≠ k.importInst
  todo_export : ∀ k ∈ todo, k.exportInst = (old k.partId).instId

section importPart

variable {old : PartId → Part} {r : RemasterMngr} {k : RemasterTask} {todo : List RemasterTask}
  {inst i : InstId} {status : PartStatus}

@[simp] lemma importPart_isUsed : ((importPart r k inst status).targetInstPartTbl i).isUsed =
      (r.targetInstPartTbl i).isUsed := by
  by_cases h : i = inst <;> simp [importPart, h]

@[simp] lemma importPart_expectedNum :
    ((importPart r k inst status).targetInstPartTbl i).expectedNum =
      (r.targetInstPartTbl i).expectedNum := by
  by_cases h : i = inst <;> simp [importPart, h]

lemma importPart_count : ((importPart r k inst status).targetInstPartTbl i).count =
      if i = inst then (r.targetInstPartTbl inst).count + 1
      else (r.targetInstPartTbl i).count := by
  by_cases h : i = inst <;> simp [importPart, h]

lemma importPart_tasks : (importPart r k inst status).remasterTaskSet =
      r.remasterTaskSet ++ [{ k with importInst := inst, status := status }] := rfl

lemma importPart_map (p : PartId) : (importPart r k inst status).targetPartMap p =
      if p = k.partId then ⟨inst, status, (r.targetInstPartTbl inst).first⟩
      else r.targetPartMap p := by
  simp [importPart, Function.update_apply]

lemma Moving.importPart (h : Moving old r (k :: todo)) (hinst : k.exportInst ≠ inst) :
    Moving old (Remaster.importPart r k inst status) todo := by
  have hdist := h.distinct
  rw [List.map_append, List.map_cons] at hdist
  have hk : k.partId ∉ r.remasterTaskSet.map (·.partId) := by
    intro hmem
    exact (nodup_append.mp hdist).2.2 _ hmem _ (by simp) rfl
  constructor
  · refine Lib.Filed.push (a := k.partId) (j := inst) h.filed (fun p => ?_) (fun p => ?_)
      (fun i => ?_) (fun i => importPart_count)
    · rw [importPart_map]
      split <;> rfl
    · rw [importPart_map]
      split <;> rfl
    · by_cases hi : i = inst <;> simp [Remaster.importPart, hi]
  · rw [importPart_tasks]
    simpa using h.distinct
  · intro p hp
    rw [importPart_tasks] at hp
    simp only [List.map_append, List.map_cons, List.map_nil, List.mem_append, List.mem_singleton,
      not_or] at hp
    rw [importPart_map, if_neg hp.2]
    exact h.kept p hp.1
  · intro k' hk'
    rw [importPart_tasks, List.mem_append, List.mem_singleton] at hk'
    rcases hk' with hk' | rfl
    · have hne : k'.partId ≠ k.partId := by
        intro heq
        exact hk (heq ▸ mem_map_of_mem hk')
      rw [importPart_map, if_neg hne]
      exact h.moved k' hk'
    · rw [importPart_map, if_pos rfl]
      exact ⟨h.todo_export k (by simp), rfl, hinst⟩
  · intro k' hk'
    exact h.todo_export k' (by simp [hk'])

end importPart

/-! ## The instances have room -/

/-- The number of partitions an instance should have. -/
def InstPart.due (e : InstPart) : Nat := if e.isUsed then e.expectedNum else 0

/-- The expected numbers add up, and only members have partitions. -/
structure Allotted (r : RemasterMngr) : Prop where
  sum_due : ∑ i, (r.targetInstPartTbl i).due = 1024
  unused : ∀ i, (r.targetInstPartTbl i).isUsed = false → (r.targetInstPartTbl i).count = 0

section room

variable {old : PartId → Part} {r r' : RemasterMngr} {k : RemasterTask}
  {todo : List RemasterTask} {inst : InstId} {status : PartStatus}

/-- The entries of the instances differ in their lists only. -/
def SameShares (r r' : RemasterMngr) : Prop :=
  ∀ i, (r'.targetInstPartTbl i).isUsed = (r.targetInstPartTbl i).isUsed ∧
    (r'.targetInstPartTbl i).expectedNum = (r.targetInstPartTbl i).expectedNum

lemma SameShares.due (h : SameShares r r') (i : InstId) :
    (r'.targetInstPartTbl i).due = (r.targetInstPartTbl i).due := by
  rw [InstPart.due, InstPart.due, (h i).1, (h i).2]

lemma sameShares_importPart : SameShares r (importPart r k inst status) := by
  intro i
  simp

lemma SameShares.trans {r''} (h : SameShares r r') (h' : SameShares r' r'') : SameShares r r'' := by
  intro i
  rw [(h' i).1, (h' i).2]
  exact h i

lemma Moving.sum_count (h : Moving old r todo) :
    ∑ i, (r.targetInstPartTbl i).count + todo.length = 1024 := by
  have hsum := h.filed.sum_count
  rw [length_map, Fintype.card_fin] at hsum
  exact hsum

/-- While a task waits, some instance has fewer partitions than it should have. -/
lemma Moving.exists_short (h : Moving old r (k :: todo)) (hall : Allotted r) :
    ∃ i, (r.targetInstPartTbl i).count < (r.targetInstPartTbl i).due := by
  have hsum := h.sum_count
  rw [length_cons] at hsum
  have hlt : ∑ i, (r.targetInstPartTbl i).count < ∑ i, (r.targetInstPartTbl i).due := by
    rw [hall.sum_due]
    omega
  obtain ⟨i, -, hi⟩ := exists_lt_of_sum_lt hlt
  exact ⟨i, hi⟩

/-- When none has more than it should have, in the end all have what they should. -/
lemma Moving.count_eq_due (h : Moving old r []) (hall : Allotted r)
    (hle : ∀ i, (r.targetInstPartTbl i).count ≤ (r.targetInstPartTbl i).due) (i : InstId) :
    (r.targetInstPartTbl i).count = (r.targetInstPartTbl i).due := by
  have hsum : ∑ i, (r.targetInstPartTbl i).count = ∑ i, (r.targetInstPartTbl i).due := by
    have hcount := h.sum_count
    rw [length_nil, add_zero] at hcount
    rw [hall.sum_due, hcount]
  exact (sum_eq_sum_iff_of_le fun i _ => hle i).mp hsum i (mem_univ i)

lemma due_pos {e : InstPart} (h : e.count < e.due) : e.isUsed = true ∧ e.count < e.expectedNum := by
  unfold due at h
  split at h
  · exact ⟨‹_›, h⟩
  · omega

lemma Allotted.importPart (hall : Allotted r) (hinst : (r.targetInstPartTbl inst).isUsed = true) :
    Allotted (Remaster.importPart r k inst status) := by
  constructor
  · rw [← hall.sum_due]
    exact sum_congr rfl fun i _ => sameShares_importPart.due i
  · intro i hi
    rw [importPart_isUsed] at hi
    rw [importPart_count, if_neg]
    · exact hall.unused i hi
    · rintro rfl
      simp [hinst] at hi

lemma importPart_count_le_due
    (hle : ∀ i, (r.targetInstPartTbl i).count ≤ (r.targetInstPartTbl i).due)
    (hinst : (r.targetInstPartTbl inst).count < (r.targetInstPartTbl inst).due) (i : InstId) :
    ((importPart r k inst status).targetInstPartTbl i).count ≤
      ((importPart r k inst status).targetInstPartTbl i).due := by
  rw [sameShares_importPart.due, importPart_count]
  split_ifs with h
  · subst h
    exact hinst
  · exact hle i

end room

/-! ## The second loops -/

/-- The tasks of `todo` were handed out to instances of `dest`. -/
structure Handed (old : PartId → Part) (r : RemasterMngr) (todo : List RemasterTask)
    (dest : InstId → Prop) (r' : RemasterMngr) : Prop where
  moving : Moving old r' []
  shares : SameShares r r'
  allotted : Allotted r'
  tasks : ∃ new, r'.remasterTaskSet = r.remasterTaskSet ++ new ∧
    new.map (fun k => (k.exportInst, k.partId)) = todo.map (fun k => (k.exportInst, k.partId)) ∧
    ∀ k ∈ new, dest k.importInst

section loops

variable {old : PartId → Part} {r r' : RemasterMngr} {k : RemasterTask}
  {todo : List RemasterTask} {inst : InstId} {status : PartStatus} {dest : InstId → Prop}

lemma Handed.nil (h : Moving old r []) (hall : Allotted r) : Handed old r [] dest r :=
  ⟨h, fun _ => ⟨rfl, rfl⟩, hall, [], by simp⟩

lemma Handed.cons (h : Handed old (importPart r k inst status) todo dest r') (hinst : dest inst) :
    Handed old r (k :: todo) dest r' := by
  obtain ⟨new, htasks, hpairs, hdest⟩ := h.tasks
  refine ⟨h.moving, sameShares_importPart.trans h.shares, h.allotted,
    { k with importInst := inst, status := status } :: new, ?_, ?_, ?_⟩
  · rw [htasks, importPart_tasks, append_assoc]
    rfl
  · simp [hpairs]
  · intro k' hk'
    rcases mem_cons.mp hk' with rfl | hk'
    · exact hinst
    · exact hdest k' hk'

/-- The new instances before `loop` are full, those after it are empty, and
everybody else has what it should have. -/
structure Filling (new : List InstId) (r : RemasterMngr) (loop : Nat) : Prop where
  le : ∀ i, (r.targetInstPartTbl i).count ≤ (r.targetInstPartTbl i).due
  rest : ∀ i ∉ new, (r.targetInstPartTbl i).count = (r.targetInstPartTbl i).due
  loop_lt : loop < new.length
  past : ∀ a < loop, ∀ i, new[a]? = some i →
    (r.targetInstPartTbl i).count = (r.targetInstPartTbl i).due
  ahead : ∀ a > loop, ∀ i, new[a]? = some i → (r.targetInstPartTbl i).count = 0

lemma Filling.importPart {new loop} (h : Filling new r loop) (hnodup : new.Nodup)
    (hget : new[loop]? = some inst)
    (hshort : (r.targetInstPartTbl inst).count < (r.targetInstPartTbl inst).due) :
    Filling new (Remaster.importPart r k inst status) loop := by
  have hother : ∀ a i, a ≠ loop → new[a]? = some i → i ≠ inst := by
    intro a i ha hi heq
    subst heq
    have hlt : a < new.length := (List.getElem?_eq_some_iff.mp hi).1
    exact ha ((getElem?_inj hlt hnodup).mp (hi.trans hget.symm))
  refine ⟨importPart_count_le_due h.le hshort, fun i hi => ?_, h.loop_lt, fun a ha i hi => ?_,
    fun a ha i hi => ?_⟩
  · have hne : i ≠ inst := by
      rintro rfl
      exact hi (mem_of_getElem? hget)
    rw [sameShares_importPart.due, importPart_count, if_neg hne]
    exact h.rest i hi
  · rw [sameShares_importPart.due, importPart_count, if_neg (hother a i (by omega) hi)]
    exact h.past a ha i hi
  · rw [importPart_count, if_neg (hother a i (by omega) hi)]
    exact h.ahead a ha i hi

/-- A waiting task finds the current new instance short, or the one after it. -/
lemma nextNew_spec {newIdArray new : List InstId} {newNum loop} (hmov : Moving old r (k :: todo))
    (hall : Allotted r) (hids : newIdArray.take newNum = new) (hfill : Filling new r loop)
    (hpos : ∀ i ∈ new, 0 < (r.targetInstPartTbl i).due) :
    ∃ loop' inst, nextNew newIdArray r loop = some (loop', inst) ∧
      new[loop']? = some inst ∧
      (r.targetInstPartTbl inst).count < (r.targetInstPartTbl inst).due ∧
      Filling new r loop' := by
  have hread : ∀ (a : Nat) (i : InstId), new[a]? = some i → newIdArray[a]? = some i := by
    intro a i h
    rw [← hids, getElem?_take] at h
    obtain ⟨-, h⟩ := ite_none_right_eq_some.mp h
    exact h
  obtain ⟨cur, hcur⟩ : ∃ cur, new[loop]? = some cur :=
    ⟨_, getElem?_eq_getElem hfill.loop_lt⟩
  by_cases hshort : (r.targetInstPartTbl cur).count < (r.targetInstPartTbl cur).due
  · refine ⟨loop, cur, ?_, hcur, hshort, hfill⟩
    have hlt := (due_pos hshort).2
    simp [nextNew, hread _ _ hcur, not_le.mpr hlt]
  have hfull : (r.targetInstPartTbl cur).count = (r.targetInstPartTbl cur).due :=
    le_antisymm (hfill.le cur) (not_lt.mp hshort)
  have hexp : (r.targetInstPartTbl cur).expectedNum ≤ (r.targetInstPartTbl cur).count := by
    have hcurpos := hpos cur (mem_of_getElem? hcur)
    rw [hfull]
    unfold due at hcurpos ⊢
    split at hcurpos <;> simp_all
  -- somebody is short, and it is a new instance further on
  obtain ⟨i, hi⟩ := hmov.exists_short hall
  have hmem : i ∈ new := by
    by_contra hnot
    rw [hfill.rest i hnot] at hi
    exact lt_irrefl _ hi
  obtain ⟨a, hget⟩ := mem_iff_getElem?.mp hmem
  have hlt : loop < a := by
    rcases lt_trichotomy a loop with h | h | h
    · rw [hfill.past a h i hget] at hi
      exact absurd hi (lt_irrefl _)
    · subst h
      obtain rfl : i = cur := by simpa [hget] using hcur
      exact absurd hi hshort
    · exact h
  have hlen : a < new.length := (List.getElem?_eq_some_iff.mp hget).1
  have hnext : loop + 1 < new.length := by omega
  obtain ⟨inst, hinst⟩ : ∃ inst, new[loop + 1]? = some inst :=
    ⟨_, getElem?_eq_getElem hnext⟩
  refine ⟨loop + 1, inst, ?_, hinst, ?_, hfill.le, hfill.rest, hnext, ?_, ?_⟩
  · simp [nextNew, hread _ _ hcur, hread _ _ hinst, hexp]
  · rw [hfill.ahead (loop + 1) (by omega) inst hinst]
    exact hpos inst (mem_of_getElem? hinst)
  · intro b hb j hj
    rcases Nat.lt_succ_iff_lt_or_eq.mp hb with h | h
    · exact hfill.past b h j hj
    · subst h
      obtain rfl : cur = j := by simpa [hcur] using hj
      exact hfull
  · intro b hb j hj
    exact hfill.ahead b (by omega) j hj

/-- The second loop of a scale-out fills the new instances one after the
other and does not get to the end of their array. -/
lemma scaleoutImport_spec {newIdArray new : List InstId} {newNum loop} (hmov : Moving old r todo)
    (hall : Allotted r) (hids : newIdArray.take newNum = new) (hnodup : new.Nodup)
    (hfill : Filling new r loop) (hpos : todo = [] ∨ ∀ i ∈ new, 0 < (r.targetInstPartTbl i).due)
    (hexport : ∀ k ∈ todo, k.exportInst ∉ new) :
    ∃ r', scaleoutImport newIdArray todo loop r = some r' ∧
      Handed old r todo (· ∈ new) r' ∧
      ∀ i, (r'.targetInstPartTbl i).count = (r'.targetInstPartTbl i).due := by
  induction todo generalizing r loop with
  | nil => exact ⟨r, rfl, .nil hmov hall, hmov.count_eq_due hall hfill.le⟩
  | cons k todo ih =>
    have hpos := hpos.resolve_left (by simp)
    obtain ⟨loop', inst, hnext, hget, hshort, hfill'⟩ := nextNew_spec hmov hall hids hfill hpos
    have hmem := mem_of_getElem? hget
    have hne : k.exportInst ≠ inst := by
      intro heq
      exact hexport k (by simp) (heq ▸ hmem)
    have hpos' : ∀ i ∈ new,
        0 < ((importPart r k inst .waitMigrate).targetInstPartTbl i).due := by
      intro i hi
      rw [sameShares_importPart.due]
      exact hpos i hi
    obtain ⟨r', hr', hhand, hcount⟩ := ih (hmov.importPart hne)
      (hall.importPart (due_pos hshort).1) (hfill'.importPart hnodup hget hshort) (.inr hpos')
      (fun k' hk' => hexport k' (by simp [hk']))
    refine ⟨r', ?_, hhand.cons hmem, hcount⟩
    simp only [scaleoutImport, hnext, bind_some]
    exact hr'

/-- The `while` loop stops at the first member with room. -/
lemma nextMember_spec {loop : Nat} (hmov : Moving old r (k :: todo)) (hall : Allotted r)
    (hpast : ∀ i : InstId, i.val < loop → (r.targetInstPartTbl i).takes = false) :
    ∃ inst, nextMember r loop = some inst ∧ (r.targetInstPartTbl inst).takes = true ∧
      ∀ j : InstId, j.val < inst.val → (r.targetInstPartTbl j).takes = false := by
  have hmem : ∀ j : InstId, loop ≤ j.val → j ∈ (finRange 64).drop loop := by
    intro j hj
    rw [mem_drop_iff_getElem]
    refine ⟨j.val - loop, by simp; omega, ?_⟩
    simp [Nat.add_sub_cancel' hj]
  obtain ⟨i, hi⟩ := hmov.exists_short hall
  have htakes : (r.targetInstPartTbl i).takes = true := by
    simp [takes, due_pos hi]
  have hloop : loop ≤ i.val := by
    by_contra hlt
    rw [hpast i (by omega)] at htakes
    exact absurd htakes (by simp)
  cases hfind : nextMember r loop with
  | none => exact absurd htakes (by simpa using find?_eq_none.mp hfind i (hmem i hloop))
  | some inst =>
    obtain ⟨hinst, as, bs, hsplit, has⟩ := find?_eq_some_iff_append.mp hfind
    refine ⟨inst, rfl, by simpa using hinst, fun j hj => ?_⟩
    by_cases hjl : j.val < loop
    · exact hpast j hjl
    -- `j` stands before `inst` in the part of the list that was searched
    have hsorted : ((finRange 64).drop loop).Pairwise (· < ·) :=
      (pairwise_lt_finRange 64).sublist (drop_sublist _ _)
    have hjmem := hmem j (not_lt.mp hjl)
    rw [hsplit] at hjmem hsorted
    rcases mem_append.mp hjmem with hja | hjb
    · simpa using has j hja
    · rcases mem_cons.mp hjb with rfl | hjb
      · exact absurd hj (lt_irrefl _)
      · have hlt : inst < j :=
          (pairwise_cons.mp (pairwise_append.mp hsorted).2.1).1 j hjb
        exact absurd hj (lt_asymm hlt)

/-- The second loop of a scale-in finds a member with room for every task. -/
lemma scaleinImport_spec (status : PartStatus) (loop : Nat) (hmov : Moving old r todo)
    (hall : Allotted r) (hexport : ∀ k ∈ todo, (r.targetInstPartTbl k.exportInst).isUsed = false)
    (hpast : ∀ i : InstId, i.val < loop → (r.targetInstPartTbl i).takes = false) :
    ∃ r', scaleinImport status todo loop r = some r' ∧
      Handed old r todo (fun i => (r.targetInstPartTbl i).isUsed = true) r' ∧
      ((∀ i, (r.targetInstPartTbl i).count ≤ (r.targetInstPartTbl i).due) →
        ∀ i, (r'.targetInstPartTbl i).count = (r'.targetInstPartTbl i).due) := by
  induction todo generalizing r loop with
  | nil => exact ⟨r, rfl, .nil hmov hall, hmov.count_eq_due hall⟩
  | cons k todo ih =>
    obtain ⟨inst, hnext, htakes, hpast'⟩ := nextMember_spec hmov hall hpast
    obtain ⟨hused, hroom⟩ : (r.targetInstPartTbl inst).isUsed = true ∧
        (r.targetInstPartTbl inst).count < (r.targetInstPartTbl inst).expectedNum := by
      simpa [takes] using htakes
    have hne : k.exportInst ≠ inst := by
      rintro rfl
      simp [hexport k (by simp)] at hused
    have hpast'' : ∀ j : InstId, j.val < inst.val →
        ((importPart r k inst status).targetInstPartTbl j).takes = false := by
      intro j hj
      have hji : j ≠ inst := by
        rintro rfl
        exact lt_irrefl _ hj
      have hj' := hpast' j hj
      simp only [takes, importPart_isUsed, importPart_expectedNum] at hj' ⊢
      rw [importPart_count, if_neg hji]
      exact hj'
    obtain ⟨r', hr', hhand, hcount⟩ := ih _ (hmov.importPart hne)
      (hall.importPart hused)
      (fun k' hk' => by rw [importPart_isUsed]; exact hexport k' (by simp [hk'])) hpast''
    simp only [importPart_isUsed] at hhand
    refine ⟨r', ?_, hhand.cons hused, fun hle => hcount (importPart_count_le_due hle ?_)⟩
    · simp only [scaleinImport, hnext, bind_some]
      exact hr'
    · unfold due
      rw [if_pos hused]
      exact hroom

end loops

end Cantian.Remaster
