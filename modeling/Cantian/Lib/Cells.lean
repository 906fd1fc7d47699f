import Mathlib.Data.List.DropRight
import Mathlib.Data.Rat.Floor
import Mathlib.Tactic.GCongr
import Mathlib.Tactic.Positivity

/-!
# Fixed-point numbers in cells

A number is a list of cells in a base `B`, with the most significant cell
first. The first cell counts ones, and each further cell counts `B`-th parts
of what the cell before it counts.

The operations work from the last cell to the first, with a carry or a borrow
between the cells. Their lemmas say what they compute as an equation between
numbers; the bounds on the cells are separate.
-/

namespace Cantian.Lib

open List

/-- The number that the cells stand for. -/
def fr (B : ℕ) : List ℕ → ℚ
  | [] => 0
  | c :: cs => c + fr B cs / B

/-- Every cell is a digit of the base. -/
def Proper (B : ℕ) (l : List ℕ) : Prop := ∀ c ∈ l, c < B

/-- Every cell but the last is a digit of the base, and the last is at most the
base. -/
def Loose (B : ℕ) : List ℕ → Prop
  | [] => True
  | [c] => c ≤ B
  | c :: d :: cs => c < B ∧ Loose B (d :: cs)

variable {B : ℕ} {l r : List ℕ} {c d k : ℕ}

@[simp] lemma fr_nil : fr B [] = 0 := rfl

@[simp] lemma fr_cons : fr B (c :: l) = c + fr B l / B := rfl

lemma fr_nonneg (l : List ℕ) : 0 ≤ fr B l := by
  induction l with
  | nil => exact le_rfl
  | cons =>
    rw [fr_cons]
    positivity

lemma fr_append (l r : List ℕ) : fr B (l ++ r) = fr B l + fr B r / B ^ l.length := by
  induction l with
  | nil => simp
  | cons c cs ih =>
    rw [cons_append, fr_cons, fr_cons, ih, length_cons, pow_succ, ← div_div, add_div, add_assoc]

lemma fr_replicate (k : ℕ) : fr B (List.replicate k 0) = 0 := by
  induction k with
  | zero => rfl
  | succ k ih => rw [replicate_succ, fr_cons, ih, zero_div, Nat.cast_zero, add_zero]

lemma fr_take_add_drop (k : ℕ) (l : List ℕ) :
    fr B l = fr B (l.take k) + fr B (l.drop k) / B ^ k := by
  by_cases hk : k ≤ l.length
  · conv_lhs => rw [← take_append_drop k l]
    rw [fr_append, length_take, min_eq_left hk]
  · rw [take_of_length_le (by omega), drop_of_length_le (by omega), fr_nil, zero_div,
      add_zero]

lemma fr_trim (l : List ℕ) : fr B (l.rdropWhile (· == 0)) = fr B l := by
  induction l using reverseRecOn with
  | nil => rfl
  | append_singleton l c ih =>
    rcases eq_or_ne c 0 with rfl | hc
    · rw [rdropWhile_concat_pos _ _ _ rfl, ih, fr_append]
      simp
    · rw [rdropWhile_concat_neg _ _ _ (by simpa using hc)]

lemma trim_cons_zeros (hc : c ≠ 0) (h : ∀ x ∈ l, x = 0) : (c :: l).rdropWhile (· == 0) = [c] := by
  rw [eq_replicate_of_mem h]
  generalize l.length = m
  induction m with
  | zero => exact rdropWhile_concat_neg _ [] c (by simpa using hc)
  | succ m ih =>
    rw [replicate_succ', ← cons_append, rdropWhile_concat_pos _ _ _ rfl, ih]

/-! ## Bounds -/

lemma Proper.tail (h : Proper B (c :: l)) :
    Proper B l := fun x hx => h x (List.mem_cons_of_mem _ hx)

lemma Proper.take (h : Proper B l) (k : ℕ) : Proper B (l.take k) := fun x hx =>
  h x (List.mem_of_mem_take hx)

lemma Proper.drop (h : Proper B l) (k : ℕ) : Proper B (l.drop k) := fun x hx =>
  h x (List.mem_of_mem_drop hx)

lemma Proper.trim (h : Proper B l) : Proper B (l.rdropWhile (· == 0)) := fun x hx =>
  h x ((List.rdropWhile_prefix _ _).subset hx)

lemma Proper.loose (h : Proper B l) : Loose B l := by
  induction l with
  | nil => trivial
  | cons c cs ih =>
    have hc : c < B := h c mem_cons_self
    cases cs with
    | nil => exact hc.le
    | cons => exact ⟨hc, ih h.tail⟩

lemma Loose.tail (h : Loose B (c :: l)) : Loose B l := by
  cases l with
  | nil => trivial
  | cons => exact h.2

lemma Loose.head_le (h : Loose B (c :: l)) : c ≤ B := by
  cases l with
  | nil => exact h
  | cons => exact h.1.le

lemma Loose.head_lt (h : Loose B (c :: l)) (hl : l ≠ []) : c < B := by
  cases l with
  | nil => exact absurd rfl hl
  | cons => exact h.1

lemma Loose.cons (hc : c < B) (h : Loose B l) : Loose B (c :: l) := by
  cases l with
  | nil => exact hc.le
  | cons => exact ⟨hc, h⟩

lemma Loose.drop (h : Loose B l) (k : ℕ) : Loose B (l.drop k) := by
  induction l generalizing k with
  | nil => rw [drop_nil]; trivial
  | cons c cs ih =>
    cases k with
    | zero => exact h
    | succ k => exact ih h.tail k

lemma Loose.take (h : Loose B l) (k : ℕ) : Loose B (l.take k) := by
  induction l generalizing k with
  | nil => rw [take_nil]; trivial
  | cons c cs ih =>
    cases k with
    | zero => trivial
    | succ k =>
      rw [take_succ_cons]
      cases k with
      | zero => exact h.head_le
      | succ k =>
        by_cases hcs : cs = []
        · subst hcs
          exact h
        · exact (ih h.tail (k + 1)).cons (h.head_lt hcs)

lemma Loose.trim (h : Loose B l) : Loose B (l.rdropWhile (· == 0)) := by
  obtain ⟨k, hk⟩ : ∃ k, l.rdropWhile (· == 0) = l.take k :=
    ⟨_, prefix_iff_eq_take.mp ( rdropWhile_prefix _ _)⟩
  rw [hk]
  exact h.take k

lemma fr_le (hB : 0 < B) (h : Loose B l) : fr B l ≤ B := by
  have hB' : (0 : ℚ) < B := by exact_mod_cast hB
  induction l with
  | nil => exact hB'.le
  | cons c cs ih =>
    cases cs with
    | nil =>
      have hc : (c : ℚ) ≤ B := by exact_mod_cast h.head_le
      simpa using hc
    | cons d cs =>
      have hc : (c : ℚ) + 1 ≤ B := by exact_mod_cast h.1
      have hrest : fr B (d :: cs) / B ≤ 1 := (div_le_one hB').mpr (ih h.2)
      rw [fr_cons]
      linarith

lemma fr_lt (hB : 0 < B) (h : Proper B l) : fr B l < B := by
  have hB' : (0 : ℚ) < B := by exact_mod_cast hB
  induction l with
  | nil => exact hB'
  | cons c cs ih =>
    have hc : (c : ℚ) + 1 ≤ B := by exact_mod_cast h c mem_cons_self
    have hrest : fr B cs / B < 1 := (div_lt_one hB').mpr (ih h.tail)
    rw [fr_cons]
    linarith

lemma le_fr_cons (c : ℕ) (l : List ℕ) : (c : ℚ) ≤ fr B (c :: l) := by
  have := fr_nonneg (B := B) l
  rw [fr_cons]
  have : 0 ≤ fr B l / B := by positivity
  linarith

section
variable (hB : 0 < B)
include hB

lemma fr_cons_lt (h : Proper B l) : fr B (c :: l) < c + 1 := by
  have hB' : (0 : ℚ) < B := by exact_mod_cast hB
  have hrest : fr B l / B < 1 := (div_lt_one hB').mpr (fr_lt hB h)
  rw [fr_cons]
  linarith

lemma fr_eq_zero (h : fr B l = 0) : ∀ c ∈ l, c = 0 := by
  have hB' : (0 : ℚ) < B := by exact_mod_cast hB
  induction l with
  | nil => simp
  | cons c cs ih =>
    rw [fr_cons] at h
    have hcs : 0 ≤ fr B cs / B := div_nonneg (fr_nonneg cs) hB'.le
    have hc : (0 : ℚ) ≤ c := c.cast_nonneg
    have hc0 : (c : ℚ) = 0 := by linarith
    have hcs0 : fr B cs / B = 0 := by linarith
    rcases div_eq_zero_iff.mp hcs0 with hcs0 | hB0
    · intro x hx
      rcases mem_cons.mp hx with rfl | hx
      · exact_mod_cast hc0
      · exact ih hcs0 x hx
    · exact absurd hB0 hB'.ne'

/-- A number of at most `k + 1` cells is a multiple of the unit of the cell
`k`. -/
lemma exists_nat_fr (hl : l.length ≤ k + 1) : ∃ n : ℕ, fr B l * B ^ k = n := by
  have hB' : (B : ℚ) ≠ 0 := by exact_mod_cast hB.ne'
  induction l generalizing k with
  | nil => exact ⟨0, by simp⟩
  | cons c cs ih =>
    cases k with
    | zero =>
      obtain rfl : cs = [] := length_eq_zero_iff.mp (by simpa using hl)
      exact ⟨c, by simp⟩
    | succ k =>
      obtain ⟨n, hn⟩ := ih (k := k) (by simpa using hl)
      refine ⟨c * B ^ (k + 1) + n, ?_⟩
      push_cast
      rw [← hn, fr_cons, add_mul, pow_succ]
      field_simp

lemma fr_take (h : Proper B (l.drop (k + 1))) :
    fr B (l.take (k + 1)) = (⌊fr B l * B ^ k⌋ : ℚ) / B ^ k := by
  have hB' : (0 : ℚ) < B := by exact_mod_cast hB
  obtain ⟨n, hn⟩ := exists_nat_fr (l := l.take (k + 1)) (k := k) hB (by simp)
  have hfloor : ⌊fr B l * B ^ k⌋ = (n : ℤ) := by
    rw [Int.floor_eq_iff]
    have hdrop := fr_nonneg (B := B) (l.drop (k + 1))
    have hlt : fr B (l.drop (k + 1)) / B < 1 := (div_lt_one hB').mpr (fr_lt hB h)
    have hsplit : fr B l * B ^ k = n + fr B (l.drop (k + 1)) / B := by
      rw [fr_take_add_drop (k + 1) l, add_mul, hn, pow_succ]
      field_simp
    rw [hsplit]
    push_cast
    have : 0 ≤ fr B (l.drop (k + 1)) / B := by positivity
    constructor <;> linarith
  rw [hfloor]
  push_cast
  rw [← hn]
  field_simp

end

end Cantian.Lib
