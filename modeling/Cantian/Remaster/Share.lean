import Cantian.Remaster.Table
import Mathlib.Algebra.BigOperators.Fin

/-!
# Remaster: shares

What the loops over the instances do to the table: each instance is treated
by its own entry and by its rank among the used ones. The expected numbers
that the used instances get add up to all partitions, and they only grow
when there are fewer of them.
-/

namespace Cantian.Remaster

open Function List Finset

open Cantian.Dcs (InstId)

/-! ## The loop in closed form -/

/-- How many used instances stand before `i` in the list. -/
def rankIn (used : InstId → Bool) : List InstId → InstId → Nat
  | [], _ => 0
  | a :: l, i => if a = i then 0 else (if used a then 1 else 0) + rankIn used l i

/-- The value of `inst_loop_seq` when the loop comes to instance `i`. -/
def rank (used : InstId → Bool) (i : InstId) : Nat := rankIn used (List.finRange 64) i

variable {used used' : InstId → Bool} {i : InstId}

variable {body : InstId → Nat → InstPart → InstPart × List RemasterTask} {l : List InstId}
  {seq : Nat} {r : RemasterMngr}

/-- The entry of an instance that is not in the list does not count. -/
lemma rankIn_update {tbl : InstId → InstPart} {a : InstId} {e : InstPart} (ha : a ∉ l) :
    rankIn (fun j => (update tbl a e j).isUsed) l i = rankIn (fun j => (tbl j).isUsed) l i := by
  induction l with
  | nil => rfl
  | cons b l ih =>
    obtain ⟨hab, ha⟩ := ne_and_not_mem_of_not_mem_cons ha
    simp only [rankIn, update_of_ne hab.symm, ih ha]

lemma rankIn_mono (h : ∀ j, used j = true → used' j = true) :
    rankIn used l i ≤ rankIn used' l i := by
  induction l with
  | nil => simp [rankIn]
  | cons a =>
    simp only [rankIn]
    split
    · simp
    · have := h a
      split <;> split <;> simp_all
      omega

@[simp] lemma instLoop_map : (instLoop body l seq r).targetPartMap = r.targetPartMap := by
  induction l generalizing seq r with
  | nil => rfl
  | cons a l ih => simp only [instLoop, ih]

lemma instLoop_tbl_of_notMem (hi : i ∉ l) :
    (instLoop body l seq r).targetInstPartTbl i = r.targetInstPartTbl i := by
  induction l generalizing seq r with
  | nil => rfl
  | cons a l ih =>
    simp only [List.mem_cons, not_or] at hi
    simp only [instLoop]
    rw [ih hi.2]
    exact update_of_ne hi.1 _ _

lemma instLoop_tbl (hl : l.Nodup) (hi : i ∈ l) :
    (instLoop body l seq r).targetInstPartTbl i =
      (body i (seq + rankIn (fun j => (r.targetInstPartTbl j).isUsed) l i)
        (r.targetInstPartTbl i)).1 := by
  induction l generalizing seq r with
  | nil => simp at hi
  | cons a l ih =>
    obtain ⟨ha, hl⟩ := nodup_cons.mp hl
    simp only [instLoop, rankIn]
    rcases eq_or_ne a i with rfl | hai
    · rw [instLoop_tbl_of_notMem ha]
      simp
    · have hil : i ∈ l := by simpa [Ne.symm hai] using hi
      rw [ih hl hil, if_neg hai]
      simp only [rankIn_update ha, update_of_ne (Ne.symm hai)]
      split <;> simp [add_assoc]

lemma instLoop_tasks (hl : l.Nodup) :
    (instLoop body l seq r).remasterTaskSet = r.remasterTaskSet ++ l.flatMap fun i =>
      (body i (seq + rankIn (fun j => (r.targetInstPartTbl j).isUsed) l i)
        (r.targetInstPartTbl i)).2 := by
  induction l generalizing seq r with
  | nil => simp [instLoop]
  | cons a l ih =>
    obtain ⟨ha, hl⟩ := nodup_cons.mp hl
    simp only [instLoop, rankIn]
    rw [ih hl, flatMap_cons, append_assoc, if_pos rfl, add_zero]
    congr 2
    refine flatMap_congr fun i hi => ?_
    have hai : a ≠ i := by
      rintro rfl
      exact ha hi
    simp only [rankIn_update ha, update_of_ne (Ne.symm hai), if_neg hai]
    split <;> simp [add_assoc]

/-! ## Shares add up -/

/-- The expected number of the used instance `i` when `instNum` are used. -/
def quota (used : InstId → Bool) (instNum : Nat) (i : InstId) : Nat :=
  expectedShare instNum (rank used i)

/-- Numbering the used instances of a list counts them off. -/
lemma sum_rankIn (used : InstId → Bool) (f : Nat → Nat) (seq : Nat) (hl : l.Nodup) :
    (l.map fun i => if used i then f (seq + rankIn used l i) else 0).sum =
      ∑ k ∈ Finset.range (l.countP used), f (seq + k) := by
  induction l generalizing seq with
  | nil => simp
  | cons a l ih =>
    obtain ⟨ha, hl⟩ := nodup_cons.mp hl
    have hrest : (l.map fun i => if used i then f (seq + rankIn used (a :: l) i) else 0) =
        l.map fun i => if used i
          then f (seq + (if used a then 1 else 0) + rankIn used l i) else 0 := by
      refine map_congr_left fun i hi => ?_
      have hai : a ≠ i := by
        rintro rfl
        exact ha hi
      simp only [rankIn, if_neg hai, add_assoc]
    rw [List.map_cons, List.sum_cons, hrest, ih _ hl]
    cases hused : used a with
    | false => simp [hused]
    | true =>
      rw [List.countP_cons_of_pos hused, Finset.sum_range_succ']
      simp [rankIn, add_assoc, add_comm 1, add_comm (f seq)]

lemma sum_ite_lt (r n : Nat) : ∑ k ∈ Finset.range n, (if k < r then 1 else 0) = min n r := by
  induction n with
  | zero => simp
  | succ n ih =>
    rw [Finset.sum_range_succ, ih]
    split <;> omega

lemma sum_expectedShare {n} (hn : 0 < n) : ∑ k ∈ Finset.range n, expectedShare n k = 1024 := by
  have hshare : ∀ k, expectedShare n k = 1024 / n + if k < 1024 % n then 1 else 0 := by
    intro k
    unfold expectedShare
    split <;> simp
  have hmod : 1024 % n < n := Nat.mod_lt _ hn
  have hdiv : n * (1024 / n) + 1024 % n = 1024 := Nat.div_add_mod 1024 n
  simp only [hshare]
  rw [sum_add_distrib, sum_ite_lt, sum_const, card_range, smul_eq_mul, min_eq_right hmod.le]
  exact hdiv

lemma sum_quota {n} (hn : n = (List.finRange 64).countP used) (hpos : 0 < n) :
    ∑ i, (if used i then quota used n i else 0) = 1024 := by
  have hsum := sum_rankIn used (expectedShare n) 0 (nodup_finRange 64)
  simp only [zero_add, ← hn] at hsum
  rw [sum_expectedShare hpos] at hsum
  rw [Fin.sum_univ_def]
  exact hsum

/-! ## Fewer instances, larger shares -/

lemma expectedShare_mono {n n' k k'} (hn : 0 < n) (hnn : n ≤ n') (hk : k ≤ k') :
    expectedShare n' k' ≤ expectedShare n k := by
  have hdiv : 1024 / n' ≤ 1024 / n := Nat.div_le_div_left hnn hn
  have hn1 : n * (1024 / n) + 1024 % n = 1024 := Nat.div_add_mod 1024 n
  have hn2 : n' * (1024 / n') + 1024 % n' = 1024 := Nat.div_add_mod 1024 n'
  unfold expectedShare
  rcases lt_or_eq_of_le hdiv with hlt | heq
  · split <;> split <;> omega
  · -- with the same quotient the smaller number of instances leaves more over
    have hmul : n * (1024 / n) ≤ n' * (1024 / n') := by
      rw [heq]
      exact Nat.mul_le_mul_right _ hnn
    split <;> split <;> omega

lemma quota_mono {n n'} (i : InstId) (hused : ∀ j, used j = true → used' j = true) (hn : 0 < n)
    (hnn : n ≤ n') : quota used' n' i ≤ quota used n i :=
  expectedShare_mono hn hnn (rankIn_mono hused)

lemma expectedShare_pos {n k} (hn : 0 < n) (h64 : n ≤ 64) : 0 < expectedShare n k := by
  have : 1024 / 64 ≤ 1024 / n := Nat.div_le_div_left h64 hn
  unfold expectedShare
  split <;> omega

end Cantian.Remaster
