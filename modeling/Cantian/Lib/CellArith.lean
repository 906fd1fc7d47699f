import Cantian.Lib.Cells
import Mathlib.Algebra.BigOperators.Field
import Mathlib.Algebra.BigOperators.Intervals
import Mathlib.Data.List.GetD

/-!
# Arithmetic on cells

Adding to the last cell, rounding, addition and subtraction of two numbers
whose first cells count the same, and the product by columns.
-/

namespace Cantian.Lib

open List Finset Int

variable {B : ℕ} {l r : List ℕ} {c d k v w : ℕ}

lemma floor_nat_div (x w : ℕ) : ⌊(x : ℚ) / w⌋ = ((x / w : ℕ) : ℤ) := by
  rw [floor_div_natCast, floor_natCast]
  rfl

/-- A cell that takes the carry `q` of the cells behind it and passes `p` on. -/
lemma fr_cons_carry (hB : 0 < B) {p q x y : ℕ} {t : ℚ} (hsum : p * B + x = y + q)
    (ht : q * B + fr B l = t) : p * B + fr B (x :: l) = y + t / B := by
  have hB' : (B : ℚ) ≠ 0 := by exact_mod_cast hB.ne'
  have hsum' : (p : ℚ) * B + x = y + q := by exact_mod_cast hsum
  rw [fr_cons, ← add_assoc, hsum', ← ht, add_div, mul_div_assoc, div_self hB', mul_one, add_assoc]

/-! ## Adding to the last cell -/

/-- `v` is added to the last cell; the carry goes up until a cell takes it. The
first component is the carry out of the first cell. -/
def addCarry (B : ℕ) : List ℕ → ℕ → ℕ × List ℕ
  | [], v => (v, [])
  | c :: cs, v =>
    let r := addCarry B cs v
    if r.1 = 0 then (0, c :: r.2)
    else if B ≤ c + r.1 then (1, (c + r.1 - B) :: r.2)
    else (0, (c + r.1) :: r.2)

/-- What a cell does with the carry that reaches it. -/
lemma addCarry_cons (c v : ℕ) (l : List ℕ) :
    ∃ q x, addCarry B (c :: l) v = (q, x :: (addCarry B l v).2) ∧
      q * B + x = c + (addCarry B l v).1 ∧ q ≤ 1 ∧
      (c < B → (addCarry B l v).1 ≤ B → x < B) := by
  rw [addCarry]
  split_ifs with hzero hbig
  · exact ⟨0, c, rfl, by omega, by omega, fun h _ => h⟩
  · exact ⟨1, _, rfl, by omega, by omega, by omega⟩
  · exact ⟨0, _, rfl, by omega, by omega, by omega⟩

lemma addCarry_value (hB : 0 < B) (l : List ℕ) (v : ℕ) :
    ((addCarry B l v).1 : ℚ) * B + fr B (addCarry B l v).2 = fr B l + v * B / B ^ l.length := by
  induction l with
  | nil => simp [addCarry]
  | cons c cs ih =>
    obtain ⟨q, x, heq, hsum, -, -⟩ := addCarry_cons (B := B) c v cs
    rw [heq, fr_cons_carry hB hsum ih, fr_cons, length_cons, pow_succ, add_div, div_div, add_assoc]

lemma length_addCarry (l : List ℕ) (v : ℕ) : (addCarry B l v).2.length = l.length := by
  induction l with
  | nil => rfl
  | cons c cs ih =>
    obtain ⟨q, x, heq, -⟩ := addCarry_cons (B := B) c v cs
    rw [heq, length_cons, length_cons, ih]

lemma addCarry_le (hB : 0 < B) (hv : v ≤ B) : (addCarry B l v).1 ≤ B := by
  cases l with
  | nil => exact hv
  | cons c cs =>
    obtain ⟨q, x, heq, -, hq, -⟩ := addCarry_cons (B := B) c v cs
    rw [heq]
    exact hq.trans hB

lemma addCarry_le_one (hl : l ≠ []) : (addCarry B l v).1 ≤ 1 := by
  cases l with
  | nil => exact absurd rfl hl
  | cons c cs =>
    obtain ⟨q, x, heq, -, hq, -⟩ := addCarry_cons (B := B) c v cs
    rw [heq]
    exact hq

lemma Proper.addCarry (hB : 0 < B) (hl : Proper B l) (hv : v ≤ B) :
    Proper B (addCarry B l v).2 := by
  induction l with
  | nil => exact hl
  | cons c cs ih =>
    obtain ⟨q, x, heq, -, -, hx⟩ := addCarry_cons (B := B) c v cs
    rw [heq]
    exact forall_mem_cons.mpr ⟨hx (hl c mem_cons_self) (addCarry_le hB hv), ih hl.tail⟩

/-! ## Rounding -/

/-- The last cell loses what is below a multiple of `w`. -/
def truncLast (w : ℕ) : List ℕ → List ℕ
  | [] => []
  | [c] => [c / w * w]
  | c :: d :: cs => c :: truncLast w (d :: cs)

lemma length_truncLast (w : ℕ) (l : List ℕ) : (truncLast w l).length = l.length := by
  fun_induction truncLast w l with
  | case1 => rfl
  | case2 => rfl
  | case3 c d cs ih => rw [length_cons, ih, length_cons (a := c)]

lemma Proper.truncLast (hl : Proper B l) : Proper B (truncLast w l) := by
  fun_induction Lib.truncLast w l with
  | case1 => exact hl
  | case2 c =>
    exact forall_mem_singleton.mpr ((Nat.div_mul_le_self c w).trans_lt (hl c mem_cons_self))
  | case3 c d cs ih =>
    exact forall_mem_cons.mpr ⟨hl c mem_cons_self, ih hl.tail⟩

lemma truncLast_value (hB : 0 < B) (hw : w ∣ B) (hl : l.length = k + 1) :
    fr B (truncLast w l) * B ^ k = ⌊fr B l * B ^ k / w⌋ * w := by
  have hB' : (B : ℚ) ≠ 0 := by exact_mod_cast hB.ne'
  have hw0 : 0 < w := Nat.pos_of_dvd_of_pos hw hB
  have hw' : (w : ℚ) ≠ 0 := by exact_mod_cast hw0.ne'
  induction k generalizing l with
  | zero =>
    obtain ⟨c, rfl⟩ := length_eq_one_iff.mp hl
    rw [truncLast, pow_zero, mul_one, mul_one, fr_cons, fr_cons, fr_nil, zero_div, add_zero,
      add_zero, floor_nat_div]
    push_cast
    rfl
  | succ k ih =>
    obtain ⟨c, l, rfl⟩ := exists_cons_of_length_eq_add_one hl
    obtain ⟨d, cs, rfl⟩ := exists_cons_of_length_eq_add_one (Nat.succ.inj hl)
    obtain ⟨m, hm⟩ := hw
    have hm' : (B : ℚ) = w * m := by exact_mod_cast hm
    have hsplit : fr B (c :: d :: cs) * B ^ (k + 1) / w =
        ((c * m * B ^ k : ℕ) : ℚ) + fr B (d :: cs) * B ^ k / w := by
      rw [fr_cons, pow_succ, add_mul, add_div]
      push_cast
      congr 1
      · rw [hm']
        field_simp
      · field_simp
    have htail := ih (l := d :: cs) (by simpa using hl)
    rw [hsplit, floor_natCast_add, truncLast, fr_cons]
    push_cast
    rw [add_mul (_ : ℚ) _ (w : ℚ), ← htail, pow_succ, add_mul]
    congr 1
    · rw [hm']
      ring
    · field_simp

/-- The cells behind the cell `k` are dropped, `v` is added to the cell `k`, and
it loses what is below a multiple of `w`. -/
def roundCells (B w v k : ℕ) (l : List ℕ) : ℕ × List ℕ :=
  let r := addCarry B (l.take (k + 1)) v
  (r.1, truncLast w r.2)

lemma floor_add_nat_div (x : ℚ) (v w : ℕ) : ⌊((⌊x⌋ : ℚ) + v) / w⌋ = ⌊(x + v) / w⌋ := by
  rw [floor_div_natCast, floor_div_natCast, floor_add_natCast, floor_add_natCast, floor_intCast]

/-- Rounding is to a multiple of the unit `w` of the cell `k`. -/
lemma roundCells_value (hB : 0 < B) (hw : w ∣ B) (hl : Proper B l) (hk : k < l.length) :
    ((roundCells B w v k l).1 * B + fr B (roundCells B w v k l).2) * B ^ k =
      ⌊(fr B l * B ^ k + v) / w⌋ * w := by
  have hB' : (B : ℚ) ≠ 0 := by exact_mod_cast hB.ne'
  have hw0 : 0 < w := Nat.pos_of_dvd_of_pos hw hB
  have hw' : (w : ℚ) ≠ 0 := by exact_mod_cast hw0.ne'
  have hlen : (l.take (k + 1)).length = k + 1 := by
    rw [length_take]
    omega
  have hadd := addCarry_value hB (l.take (k + 1)) v
  have htrunc := truncLast_value (l := (addCarry B (l.take (k + 1)) v).2) hB hw
    (by rw [length_addCarry, hlen])
  rw [hlen, fr_take hB (hl.drop _)] at hadd
  unfold roundCells
  generalize addCarry B (l.take (k + 1)) v = q at hadd htrunc ⊢
  obtain ⟨m, hm⟩ := hw
  have hm' : (B : ℚ) = w * m := by exact_mod_cast hm
  have hrest : fr B q.2 * B ^ k = ⌊fr B l * B ^ k⌋ + v - q.1 * B ^ (k + 1) := by
    have : fr B q.2 = (⌊fr B l * B ^ k⌋ : ℚ) / B ^ k + v * B / B ^ (k + 1) - q.1 * B := by linarith
    rw [this, pow_succ]
    field_simp
  have hcarry : (q.1 : ℚ) * B ^ (k + 1) / w = ((q.1 * m * B ^ k : ℕ) : ℚ) := by
    push_cast
    rw [pow_succ]
    nth_rewrite 2 [hm']
    field_simp
  rw [add_mul, htrunc, hrest, sub_div, hcarry, floor_sub_natCast, floor_add_nat_div]
  push_cast
  rw [pow_succ] at hcarry
  rw [sub_mul, mul_assoc, ← pow_succ']
  have : (q.1 : ℚ) * m * B ^ k * w = q.1 * B ^ (k + 1) := by
    calc (q.1 : ℚ) * m * B ^ k * w = q.1 * (B ^ k * (w * m)) := by ring
      _ = q.1 * B ^ (k + 1) := by rw [← hm', pow_succ]
  rw [this]
  ring

lemma Proper.roundCells (hB : 0 < B) (hl : Proper B l) (hv : v ≤ B) :
    Proper B (roundCells B w v k l).2 :=
  ((hl.take _).addCarry hB hv).truncLast

lemma length_roundCells (hk : k < l.length) : (roundCells B w v k l).2.length = k + 1 := by
  unfold roundCells
  rw [length_truncLast, length_addCarry, length_take]
  omega

lemma roundCells_le_one (hl : l ≠ []) : (roundCells B w v k l).1 ≤ 1 := by
  refine addCarry_le_one fun h => hl ?_
  simpa using h

/-! ## Addition and subtraction -/

/-- The sum of two numbers, and the carry out of the first cell. -/
def addAligned (B : ℕ) : List ℕ → List ℕ → ℕ × List ℕ
  | [], ds => (0, ds)
  | c :: cs, [] => (0, c :: cs)
  | c :: cs, d :: ds =>
    let r := addAligned B cs ds
    if B ≤ c + d + r.1 then (1, (c + d + r.1 - B) :: r.2) else (0, (c + d + r.1) :: r.2)

lemma addAligned_nil_right (l : List ℕ) : addAligned B l [] = (0, l) := by
  cases l <;> rfl

lemma addAligned_cons (c d : ℕ) (l r : List ℕ) :
    ∃ q x, addAligned B (c :: l) (d :: r) = (q, x :: (addAligned B l r).2) ∧
      (q = 0 ∧ x = c + d + (addAligned B l r).1 ∧ x < B ∨
        q = 1 ∧ x + B = c + d + (addAligned B l r).1) := by
  rw [addAligned]
  split_ifs with hbig
  · exact ⟨1, _, rfl, by omega⟩
  · exact ⟨0, _, rfl, by omega⟩

lemma length_addAligned (l r : List ℕ) : (addAligned B l r).2.length = max l.length r.length := by
  induction l generalizing r with
  | nil => simp [addAligned]
  | cons c cs ih =>
    cases r with
    | nil => simp [addAligned]
    | cons d ds =>
      obtain ⟨q, x, heq, -⟩ := addAligned_cons (B := B) c d cs ds
      rw [heq, length_cons, ih, length_cons, length_cons]
      omega

lemma addAligned_le_one (l r : List ℕ) : (addAligned B l r).1 ≤ 1 := by
  cases l with
  | nil => simp [addAligned]
  | cons c cs =>
    cases r with
    | nil => simp [addAligned]
    | cons d ds =>
      obtain ⟨q, x, heq, hx⟩ := addAligned_cons (B := B) c d cs ds
      rw [heq]
      omega

lemma Proper.addAligned (hl : Proper B l) (hr : Proper B r) : Proper B (addAligned B l r).2 := by
  induction l generalizing r with
  | nil => simpa [Lib.addAligned] using hr
  | cons c cs ih =>
    cases r with
    | nil => exact hl
    | cons d ds =>
      obtain ⟨q, x, heq, hx⟩ := addAligned_cons (B := B) c d cs ds
      have hc := hl c mem_cons_self
      have hd := hr d mem_cons_self
      have hcarry := addAligned_le_one (B := B) cs ds
      rw [heq]
      exact forall_mem_cons.mpr ⟨by omega, ih hl.tail hr.tail⟩

/-- The last cells of the shorter number meet no carry, so a cell that is too
large by one comes out below the base or stands last. -/
lemma Loose.addAligned (hl : Loose B l) (hr : Loose B r) : Loose B (addAligned B l r).2 := by
  induction l generalizing r with
  | nil => simpa [Lib.addAligned] using hr
  | cons c cs ih =>
    cases r with
    | nil => exact hl
    | cons d ds =>
      obtain ⟨q, x, heq, hx⟩ := addAligned_cons (B := B) c d cs ds
      rw [heq]
      have hc := hl.head_le
      have hd := hr.head_le
      have hrest := ih hl.tail hr.tail
      have hlen := length_addAligned (B := B) cs ds
      by_cases hcs : cs = []
      · subst hcs
        have hzero : (Lib.addAligned B [] ds).1 = 0 := rfl
        by_cases hds : ds = []
        · subst hds
          show x ≤ B
          omega
        · have := hr.head_lt hds
          exact hrest.cons (by omega)
      · have hc' := hl.head_lt hcs
        refine hrest.cons ?_
        by_cases hds : ds = []
        · subst hds
          rw [addAligned_nil_right] at hx
          omega
        · have hd' := hr.head_lt hds
          have hcarry := addAligned_le_one (B := B) cs ds
          omega

/-- The difference of two numbers, and the borrow from above the first cell.
Where the second number is longer, its last cell is taken from the base and
the others from the base less one. -/
def subAligned (B : ℕ) : List ℕ → List ℕ → ℕ × List ℕ
  | l, [] => (0, l)
  | [], [d] => (1, [B - d])
  | [], d :: e :: ds => (1, (B - 1 - d) :: (subAligned B [] (e :: ds)).2)
  | c :: cs, d :: ds =>
    let r := subAligned B cs ds
    if c < d + r.1 then (1, (c + B - (d + r.1)) :: r.2) else (0, (c - (d + r.1)) :: r.2)

lemma subAligned_nil_right (l : List ℕ) : subAligned B l [] = (0, l) := by
  cases l <;> rfl

lemma subAligned_nil_fst (hr : r ≠ []) : (subAligned B [] r).1 = 1 := by
  match r with
  | [] => exact absurd rfl hr
  | [_] => rfl
  | _ :: _ :: _ => rfl

lemma subAligned_le_one (l r : List ℕ) : (subAligned B l r).1 ≤ 1 := by
  unfold subAligned
  split
  · exact Nat.zero_le 1
  · exact le_rfl
  · exact le_rfl
  · dsimp only
    split_ifs
    · exact le_rfl
    · exact Nat.zero_le 1

lemma subAligned_cons (c d : ℕ) (l r : List ℕ) :
    ∃ q x, subAligned B (c :: l) (d :: r) = (q, x :: (subAligned B l r).2) ∧
      (q = 0 ∧ x + d + (subAligned B l r).1 = c ∨
        q = 1 ∧ c < d + (subAligned B l r).1 ∧ x = c + B - (d + (subAligned B l r).1)) := by
  rw [subAligned]
  split_ifs with hlt
  · exact ⟨1, _, rfl, by omega⟩
  · exact ⟨0, _, rfl, by omega⟩

lemma Loose.subAligned_nil (hB : 0 < B) (r : List ℕ) : Loose B (subAligned B [] r).2 := by
  induction r with
  | nil => trivial
  | cons d ds ih =>
    cases ds with
    | nil => exact Nat.sub_le B d
    | cons => exact ih.cons (by omega)

lemma Loose.subAligned (hB : 0 < B) (hl : Loose B l) (hr : Loose B r) :
    Loose B (subAligned B l r).2 := by
  induction l generalizing r with
  | nil => exact Loose.subAligned_nil hB r
  | cons c cs ih =>
    cases r with
    | nil => exact hl
    | cons d ds =>
      obtain ⟨q, x, heq, hx⟩ := subAligned_cons (B := B) c d cs ds
      have hd := hr.head_le
      have hc := hl.head_le
      have hborrow := subAligned_le_one (B := B) cs ds
      have hrest := ih hl.tail hr.tail
      rw [heq]
      by_cases hds : ds = []
      · subst hds
        rw [subAligned_nil_right] at hx ⊢
        by_cases hcs : cs = []
        · subst hcs
          show x ≤ B
          omega
        · have := hl.head_lt hcs
          exact hl.tail.cons (by omega)
      · have hd' := hr.head_lt hds
        refine hrest.cons ?_
        by_cases hcs : cs = []
        · subst hcs
          have := subAligned_nil_fst (B := B) hds
          omega
        · have := hl.head_lt hcs
          omega

/-- The cells of a difference are digits, unless the second number is longer and
ends in a zero. -/
lemma Proper.subAligned (hl : Proper B l) (hr : Proper B r)
    (hlast : r.length ≤ l.length ∨ 0 < r.getLastD 0) : Proper B (subAligned B l r).2 := by
  induction r generalizing l with
  | nil =>
    rw [subAligned_nil_right]
    exact hl
  | cons d ds ih =>
    have hd : d < B := hr d mem_cons_self
    cases l with
    | nil =>
      have hlast' : 0 < (d :: ds).getLastD 0 := by simpa using hlast
      cases ds with
      | nil =>
        have hd0 : 0 < d := hlast'
        exact forall_mem_singleton.mpr (by omega)
      | cons =>
        rw [Lib.subAligned]
        exact forall_mem_cons.mpr ⟨by omega, ih (forall_mem_nil _) hr.tail (.inr hlast')⟩
    | cons c cs =>
      have hc : c < B := hl c mem_cons_self
      obtain ⟨q, x, heq, hx⟩ := subAligned_cons (B := B) c d cs ds
      have hborrow := subAligned_le_one (B := B) cs ds
      have hrest : Proper B (Lib.subAligned B cs ds).2 := by
        refine ih hl.tail hr.tail ?_
        cases ds with
        | nil => exact .inl (Nat.zero_le _)
        | cons => exact hlast.imp (fun h => by simpa using h) id
      rw [heq]
      exact forall_mem_cons.mpr ⟨by omega, hrest⟩

/-- The terms of the column `i` with the cells `j` of the second number that are
left, from the last one on; the loop ends where the first number has no cell. -/
def column (a b : List ℕ) (i : ℕ) : ℕ → ℕ → ℕ
  | 0, t => t
  | j + 1, t =>
    if i - j < a.length then column a b i j (t + a.getD (i - j) 0 * b.getD j 0) else t

/-- The columns from the column `i` on, from the last one up: the carry out of
them, and their cells as far as there is room. -/
def mulLoop (B width : ℕ) (a b : List ℕ) : ℕ → ℕ → ℕ × List ℕ
  | 0, _ => (0, [])
  | n + 1, i =>
    let r := mulLoop B width a b n (i + 1)
    let t := column a b i (min (i + 1) b.length) r.1
    (t / B, if i < width then t % B :: r.2 else r.2)

/-- The column of a product. -/
def conv (a b : List ℕ) (i : ℕ) : ℕ := ∑ m ∈ Finset.range (i + 1), a.getD (i - m) 0 * b.getD m 0

variable {a b : List ℕ} {i j n t width : ℕ}

lemma column_eq (hj : j ≤ i + 1) :
    column a b i j t = t + ∑ m ∈ Finset.range j, a.getD (i - m) 0 * b.getD m 0 := by
  induction j generalizing t with
  | zero => simp [column]
  | succ j ih =>
    rw [column]
    split_ifs with hlt
    · rw [ih (by omega), Finset.sum_range_succ]
      omega
    · have hzero : ∑ m ∈ range (j + 1), a.getD (i - m) 0 * b.getD m 0 = 0 := by
        refine Finset.sum_eq_zero fun m hm => ?_
        have := Finset.mem_range.mp hm
        rw [getD_eq_default _ _ (by omega), zero_mul]
      rw [hzero, add_zero]

lemma column_eq_conv : column a b i (min (i + 1) b.length) t = t + conv a b i := by
  rw [column_eq (by omega), conv]
  congr 1
  refine sum_subset (fun m hm => ?_) fun m _ hm => ?_
  · have := Finset.mem_range.mp hm
    exact Finset.mem_range.mpr (by omega)
  · have : ¬ m < min (i + 1) b.length := fun h => hm (Finset.mem_range.mpr h)
    have := Finset.mem_range.mp ‹m ∈ Finset.range (i + 1)›
    rw [getD_eq_default b _ (by omega), mul_zero]

lemma conv_nil (b : List ℕ) (i : ℕ) : conv [] b i = 0 := by
  unfold conv
  simp

lemma conv_cons_zero (c : ℕ) (a b : List ℕ) : conv (c :: a) b 0 = c * b.getD 0 0 := by
  simp [conv]

lemma conv_cons_succ (c : ℕ) (a b : List ℕ) (i : ℕ) :
    conv (c :: a) b (i + 1) = c * b.getD (i + 1) 0 + conv a b i := by
  unfold conv
  rw [Finset.sum_range_succ, Nat.sub_self, List.getD_cons_zero, Nat.add_comm]
  congr 1
  refine sum_congr rfl fun m hm => ?_
  have := Finset.mem_range.mp hm
  rw [show i + 1 - m = i - m + 1 by omega, getD_cons_succ]

lemma fr_eq_sum (hn : b.length ≤ n) : fr B b = ∑ m ∈ Finset.range n, (b.getD m 0 : ℚ) / B ^ m := by
  induction b generalizing n with
  | nil => simp
  | cons c cs ih =>
    obtain ⟨n, rfl⟩ : ∃ m, n = m + 1 := ⟨n - 1, by rw [length_cons] at hn; omega⟩
    rw [Finset.sum_range_succ', fr_cons, ih (n := n) (by simpa using hn), Finset.sum_div]
    simp only [getD_cons_succ, getD_cons_zero, pow_zero, div_one, pow_succ, div_div]
    rw [add_comm]

/-- The columns from the column `i` on, as a number. -/
def columns (B : ℕ) (a b : List ℕ) (n i : ℕ) : ℚ :=
  ∑ m ∈ Finset.range n, (conv a b (i + m) : ℚ) / B ^ m

lemma columns_succ (B : ℕ) (a b : List ℕ) (n i : ℕ) :
    columns B a b (n + 1) i = conv a b i + columns B a b n (i + 1) / B := by
  unfold columns
  rw [Finset.sum_range_succ', Finset.sum_div, add_comm]
  congr 1
  · simp
  · refine sum_congr rfl fun m _ => ?_
    rw [div_div, ← pow_succ, show i + (m + 1) = i + 1 + m by omega]

/-- The columns make up the product. -/
lemma columns_eq_mul (hn : a.length + b.length ≤ n + 1) : columns B a b n 0 = fr B a * fr B b := by
  induction a generalizing n with
  | nil => simp [columns, conv_nil]
  | cons c cs ih =>
    rw [length_cons] at hn
    cases n with
    | zero =>
      obtain rfl : b = [] := length_eq_zero_iff.mp (by omega)
      simp [columns]
    | succ n =>
      have hrest : columns B (c :: cs) b (n + 1) 0 = c * fr B b + columns B cs b n 0 / B := by
        rw [fr_eq_sum (n := n + 1) (by omega), columns, columns, mul_sum, sum_div,
          Finset.sum_range_succ', Finset.sum_range_succ' (fun m => (c : ℚ) * _)]
        simp only [zero_add, conv_cons_succ, conv_cons_zero, Nat.cast_add, Nat.cast_mul,
          add_div, sum_add_distrib, pow_succ, div_div, mul_div_assoc]
        ring
      rw [hrest, ih (by omega), fr_cons]
      ring

/-- Columns without room give only their carry. -/
lemma mulLoop_carry (hi : width ≤ i) : (mulLoop B width a b n i).2 = [] ∧
      ((mulLoop B width a b n i).1 : ℤ) = ⌊columns B a b n i / B⌋ := by
  induction n generalizing i with
  | zero => simp [mulLoop, columns]
  | succ n ih =>
    obtain ⟨hcells, hcarry⟩ := ih (i := i + 1) (by omega)
    rw [mulLoop]
    rw [if_neg (by omega), column_eq_conv]
    refine ⟨hcells, ?_⟩
    rw [columns_succ, ← floor_nat_div]
    have hcarry' : ((mulLoop B width a b n (i + 1)).1 : ℚ) = ⌊columns B a b n (i + 1) / B⌋ := by
      exact_mod_cast hcarry
    push_cast
    rw [hcarry', floor_add_nat_div, add_comm]

/-- The cells are the product without the part below the last of them. -/
lemma mulLoop_value (hB : 0 < B) (hi : i + k + 1 = width) :
    (((mulLoop B width a b n i).1 : ℚ) * B + fr B (mulLoop B width a b n i).2) * B ^ k =
      ⌊columns B a b n i * B ^ k⌋ := by
  have hB' : (B : ℚ) ≠ 0 := by exact_mod_cast hB.ne'
  induction n generalizing i k with
  | zero => simp [mulLoop, columns]
  | succ n ih =>
    rw [mulLoop]
    rw [if_pos (by omega), column_eq_conv, columns_succ, Nat.add_comm]
    set q := mulLoop B width a b n (i + 1)
    rw [fr_cons_carry hB (Nat.div_add_mod' _ B) rfl, add_div, mul_div_assoc, div_self hB', mul_one]
    cases k with
    | zero =>
      have hw : width ≤ i + 1 := by omega
      obtain ⟨hcells, hcarry⟩ := mulLoop_carry (B := B) (a := a) (b := b) (n := n) hw
      have hcarry' : (q.1 : ℚ) = ⌊columns B a b n (i + 1) / B⌋ := by exact_mod_cast hcarry
      rw [hcells, fr_nil, zero_div, add_zero, pow_zero, mul_one, mul_one, floor_natCast_add,
        hcarry']
      push_cast
      ring
    | succ k =>
      have hrest := ih (i := i + 1) (k := k) (by omega)
      have hfloor : (conv a b i + columns B a b n (i + 1) / B) * (B : ℚ) ^ (k + 1) =
          ((conv a b i * B ^ (k + 1) : ℕ) : ℚ) + columns B a b n (i + 1) * B ^ k := by
        push_cast
        rw [pow_succ]
        field_simp
      rw [hfloor, floor_natCast_add]
      push_cast
      rw [← hrest, pow_succ]
      field_simp
      ring

/-- The product of two numbers, with room for `k + 1` cells. -/
lemma mulLoop_mul (hB : 0 < B) (hn : a.length + b.length ≤ n + 1) :
    ((mulLoop B (k + 1) a b n 0).1 : ℚ) * B + fr B (mulLoop B (k + 1) a b n 0).2 =
      ⌊fr B a * fr B b * B ^ k⌋ / B ^ k := by
  have hB' : (0 : ℚ) < B := by exact_mod_cast hB
  rw [eq_div_iff (by positivity), ← columns_eq_mul hn]
  exact mulLoop_value hB (by omega)

lemma mulLoop_le (hB : 0 < B) (hn : a.length + b.length ≤ n + 1) :
    ((mulLoop B (k + 1) a b n 0).1 : ℚ) * B + fr B (mulLoop B (k + 1) a b n 0).2 ≤
      fr B a * fr B b := by
  have hB' : (0 : ℚ) < B := by exact_mod_cast hB
  rw [mulLoop_mul hB hn, div_le_iff₀ (by positivity)]
  exact floor_le _

lemma Proper.mulLoop (hB : 0 < B) : Proper B (mulLoop B width a b n i).2 := by
  induction n generalizing i with
  | zero => simp [Lib.mulLoop, Proper]
  | succ n ih =>
    rw [Lib.mulLoop]
    split_ifs
    · exact forall_mem_cons.mpr ⟨Nat.mod_lt _ hB, ih⟩
    · exact ih

/-- The carry in front of the cells, of which the last one is dropped when there
is no room. -/
lemma fr_take_mulLoop (hB : 0 < B) (hn : a.length + b.length ≤ n + 1) :
    fr B (((mulLoop B (k + 1) a b n 0).1 :: (mulLoop B (k + 1) a b n 0).2).take (k + 1)) =
      ⌊fr B a * fr B b / B * B ^ k⌋ / B ^ k := by
  have hB' : (0 : ℚ) < B := by exact_mod_cast hB
  have hmul := mulLoop_mul (k := k) hB hn
  have hproper : Proper B (mulLoop B (k + 1) a b n 0).2 := .mulLoop hB
  rw [fr_take (l := _ :: _) hB (hproper.drop k), fr_cons]
  have hdiv : ((mulLoop B (k + 1) a b n 0).1 + fr B (mulLoop B (k + 1) a b n 0).2 / B) *
      (B : ℚ) ^ k = (⌊fr B a * fr B b * B ^ k⌋ : ℚ) / (B : ℕ) := by
    rw [eq_div_iff hB'.ne', ← div_mul_cancel₀ (⌊_⌋ : ℚ) (pow_pos hB' k).ne', ← hmul]
    field_simp
  have hcomm : fr B a * fr B b / B * (B : ℚ) ^ k = fr B a * fr B b * (B : ℚ) ^ k / (B : ℕ) := by
    ring
  rw [hdiv, hcomm, floor_div_natCast, floor_div_natCast, floor_intCast]

lemma length_mulLoop_le : (mulLoop B width a b n i).2.length ≤ width - i := by
  induction n generalizing i with
  | zero => simp [mulLoop]
  | succ n ih =>
    have := ih (i := i + 1)
    rw [mulLoop]
    dsimp only
    split_ifs
    · rw [length_cons]
      omega
    · omega

end Cantian.Lib
