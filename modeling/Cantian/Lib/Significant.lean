import Mathlib.Data.Int.Log
import Mathlib.Data.Rat.Floor
import Mathlib.Tactic.Positivity

/-!
# Significant digits

The scientific exponent of a number is the place of its first digit, and
`unitAt p` is one unit of its digit `p`. Rounding to `p` significant digits is
to the nearest multiple of that unit, with halves up.
-/

namespace Cantian.Lib

open Int

/-- The number has at most `p` significant digits. -/
def AtMostDigits (p : ℕ) (q : ℚ) : Prop := ∃ a k : ℤ, |a| < 10 ^ p ∧ q = a * 10 ^ k

/-- One unit of the digit `p` of a number, counted from its first digit. -/
def unitAt (p : ℕ) (q : ℚ) : ℚ := 10 ^ (Int.log 10 |q| - p + 1)

/-- A positive number rounded to `p` significant digits, with halves up. -/
def roundSig (p : ℕ) (q : ℚ) : ℚ := ⌊q / unitAt p q + 1 / 2⌋ * unitAt p q

variable {p : ℕ} {q : ℚ} {e : ℤ}

lemma AtMostDigits.neg (h : AtMostDigits p q) : AtMostDigits p (-q) := by
  obtain ⟨a, k, ha, rfl⟩ := h
  exact ⟨-a, k, by rwa [abs_neg], by push_cast; ring⟩

lemma zpow_ten_pos (e : ℤ) : (0 : ℚ) < 10 ^ e := zpow_pos (by norm_num) e

lemma unitAt_pos : 0 < unitAt p q := zpow_ten_pos _

/-- The scientific exponent, from the bounds of a number. -/
lemma log_eq (h0 : 10 ^ e ≤ q) (h1 : q < 10 ^ (e + 1)) : Int.log 10 q = e := by
  have hq : 0 < q := (zpow_ten_pos e).trans_le h0
  have hlow : e ≤ log 10 q :=
    (zpow_le_iff_le_log (by norm_num) hq).mp (by exact_mod_cast h0)
  have hup : log 10 q < e + 1 :=
    (lt_zpow_iff_log_lt (by norm_num) hq).mp (by exact_mod_cast h1)
  omega

lemma zpow_log_le (hq : 0 < q) : (10 : ℚ) ^ Int.log 10 q ≤ q := by
  have := zpow_log_le_self (b := 10) (r := q) (by norm_num) hq
  exact_mod_cast this

lemma lt_zpow_log (q : ℚ) : q < 10 ^ (Int.log 10 q + 1) := by
  have := lt_zpow_succ_log_self (b := 10) (by norm_num) q
  exact_mod_cast this

/-- In units of its digit `p` a number has `p` digits before the point. -/
lemma pow_le_div_unitAt (hq : 0 < q) (hp : 1 ≤ p) : (10 : ℚ) ^ (p - 1) ≤ q / unitAt p q := by
  rw [le_div_iff₀ unitAt_pos, unitAt, abs_of_pos hq, ← zpow_natCast, ← zpow_add₀ (by norm_num)]
  have : ((p - 1 : ℕ) : ℤ) + (log 10 q - p + 1) = log 10 q := by omega
  rw [this]
  exact zpow_log_le hq

lemma div_unitAt_lt (hq : 0 < q) : q / unitAt p q < 10 ^ p := by
  rw [div_lt_iff₀ unitAt_pos, unitAt, abs_of_pos hq, ← zpow_natCast, ← zpow_add₀ (by norm_num)]
  have : (p : ℤ) + (log 10 q - p + 1) = log 10 q + 1 := by omega
  rw [this]
  exact lt_zpow_log q

/-- A number with at most `p` digits is a multiple of the unit of its digit
`p`. -/
lemma AtMostDigits.exists_mul_unitAt (h : AtMostDigits p q) (hq : 0 < q) :
    ∃ n : ℤ, q = n * unitAt p q := by
  obtain ⟨a, k, ha, rfl⟩ := h
  set q := (a : ℚ) * 10 ^ k with hqdef
  have hlt : q < 10 ^ ((p : ℤ) + k) := by
    have ha' : (a : ℚ) < 10 ^ p := by exact_mod_cast (le_abs_self a).trans_lt ha
    rw [zpow_add₀ (by norm_num), zpow_natCast]
    exact mul_lt_mul_of_pos_right ha' (zpow_ten_pos k)
  have hlog : log 10 q < p + k :=
    (lt_zpow_iff_log_lt (by norm_num) hq).mp (by exact_mod_cast hlt)
  obtain ⟨j, hj⟩ : ∃ j : ℕ, k = (log 10 q - p + 1) + j :=
    ⟨(k - (log 10 q - p + 1)).toNat, by omega⟩
  refine ⟨a * 10 ^ j, ?_⟩
  rw [unitAt, abs_of_pos hq]
  nth_rewrite 1 [hqdef]
  rw [hj, zpow_add₀ (by norm_num), zpow_natCast]
  push_cast
  ring

lemma roundSig_of_mul_unitAt {n : ℤ} (h : q = n * unitAt p q) : roundSig p q = q := by
  have hdiv : q / unitAt p q = n := by
    rw [div_eq_iff unitAt_pos.ne']
    exact h
  have hfloor : ⌊(n : ℚ) + 1 / 2⌋ = n := by
    rw [floor_intCast_add]
    norm_num
  rw [roundSig, hdiv, hfloor]
  exact h.symm

lemma AtMostDigits.roundSig_eq (h : AtMostDigits p q) (hq : 0 < q) : roundSig p q = q := by
  obtain ⟨n, hn⟩ := h.exists_mul_unitAt hq
  exact roundSig_of_mul_unitAt hn

lemma abs_roundSig_sub_le : |roundSig p q - q| ≤ unitAt p q / 2 := by
  have hu : 0 < unitAt p q := unitAt_pos
  have hq : q = q / unitAt p q * unitAt p q := (div_mul_cancel₀ q hu.ne').symm
  have hlow := lt_floor_add_one (q / unitAt p q + 1 / 2)
  have hup := floor_le (q / unitAt p q + 1 / 2)
  have hsub : roundSig p q - q =
      (⌊q / unitAt p q + 1 / 2⌋ - q / unitAt p q) * unitAt p q := by
    rw [sub_mul, ← hq, roundSig]
  have hhalf : |(⌊q / unitAt p q + 1 / 2⌋ : ℚ) - q / unitAt p q| ≤ 1 / 2 := by
    rw [abs_le]
    constructor <;> linarith
  rw [hsub, abs_mul, abs_of_pos hu]
  calc _ ≤ 1 / 2 * unitAt p q := mul_le_mul_of_nonneg_right hhalf hu.le
    _ = unitAt p q / 2 := by ring

/-- Rounding keeps the first digit in its place or makes a power of ten. -/
lemma zpow_log_le_roundSig (hq : 0 < q) (hp : 1 ≤ p) : 10 ^ Int.log 10 q ≤ roundSig p q := by
  have hlow : ((10 ^ (p - 1) : ℤ) : ℚ) ≤ q / unitAt p q + 1 / 2 := by
    have := pow_le_div_unitAt hq hp
    push_cast
    linarith
  have hfloor : (10 : ℚ) ^ (p - 1) ≤ ⌊q / unitAt p q + 1 / 2⌋ := by
    exact_mod_cast le_floor.mpr hlow
  calc (10 : ℚ) ^ log 10 q = 10 ^ (p - 1) * unitAt p q := by
        rw [unitAt, abs_of_pos hq, ← zpow_natCast, ← zpow_add₀ (by norm_num)]
        congr 1
        omega
    _ ≤ roundSig p q := mul_le_mul_of_nonneg_right hfloor unitAt_pos.le

lemma floor_unitAt_le (hq : 0 < q) : ⌊q / unitAt p q + 1 / 2⌋ ≤ (10 : ℤ) ^ p := by
  have hup := div_unitAt_lt (p := p) hq
  have : ⌊q / unitAt p q + 1 / 2⌋ < (10 : ℤ) ^ p + 1 := by
    rw [floor_lt]
    push_cast
    linarith
  omega

lemma roundSig_le (hq : 0 < q) : roundSig p q ≤ 10 ^ (Int.log 10 q + 1) := by
  have hfloor : (⌊q / unitAt p q + 1 / 2⌋ : ℚ) ≤ 10 ^ p := by exact_mod_cast floor_unitAt_le hq
  calc roundSig p q ≤ 10 ^ p * unitAt p q := mul_le_mul_of_nonneg_right hfloor unitAt_pos.le
    _ = 10 ^ (log 10 q + 1) := by
        rw [unitAt, abs_of_pos hq, ← zpow_natCast, ← zpow_add₀ (by norm_num)]
        congr 1
        omega

lemma roundSig_pos (hq : 0 < q) (hp : 1 ≤ p) : 0 < roundSig p q :=
  (zpow_ten_pos _).trans_le (zpow_log_le_roundSig hq hp)

/-- Rounding keeps the order of numbers with the same scientific exponent. -/
lemma roundSig_le_roundSig {r} (hr : 0 < r) (hrq : r ≤ q) (hlog : Int.log 10 r = Int.log 10 q) :
    roundSig p r ≤ roundSig p q := by
  have hunit : unitAt p r = unitAt p q := by
    unfold unitAt
    rw [abs_of_pos hr, abs_of_pos (hr.trans_le hrq), hlog]
  have hfloor : ⌊r / unitAt p q + 1 / 2⌋ ≤ ⌊q / unitAt p q + 1 / 2⌋ := by
    refine floor_mono ?_
    have := (div_le_div_iff_of_pos_right (unitAt_pos (p := p) (q := q))).mpr hrq
    linarith
  unfold roundSig
  rw [hunit]
  exact mul_le_mul_of_nonneg_right (by exact_mod_cast hfloor) unitAt_pos.le

lemma atMostDigits_roundSig (hq : 0 < q) (hp : 1 ≤ p) : AtMostDigits p (roundSig p q) := by
  have hpos := roundSig_pos hq hp
  rcases (floor_unitAt_le (p := p) hq).lt_or_eq with hlt | heq
  · refine ⟨⌊q / unitAt p q + 1 / 2⌋, log 10 |q| - p + 1, ?_, rfl⟩
    have hnonneg : (0 : ℚ) < ⌊q / unitAt p q + 1 / 2⌋ :=
      pos_of_mul_pos_left hpos unitAt_pos.le
    rw [abs_of_pos (by exact_mod_cast hnonneg)]
    exact hlt
  · refine ⟨1, log 10 |q| + 1, ?_, ?_⟩
    · rw [abs_one]
      exact one_lt_pow₀ (by norm_num) (by omega)
    · rw [roundSig, heq, unitAt]
      push_cast
      rw [one_mul, ← zpow_natCast, ← zpow_add₀ (by norm_num)]
      congr 1
      omega

/-! ## Dropping what is below a unit -/

/-- The largest multiple of a unit that is not above a number. -/
def truncTo (g q : ℚ) : ℚ := ⌊q / g⌋ * g

section
variable {g : ℚ}

section
variable (hg : 0 < g)
include hg

lemma truncTo_le (q : ℚ) : truncTo g q ≤ q := by
  have := mul_le_mul_of_nonneg_right (floor_le (q / g)) hg.le
  rwa [div_mul_cancel₀ q hg.ne'] at this

lemma sub_truncTo_lt (q : ℚ) : q - truncTo g q < g := by
  have := mul_lt_mul_of_pos_right (lt_floor_add_one (q / g)) hg
  rw [div_mul_cancel₀ q hg.ne', add_mul, one_mul] at this
  unfold truncTo
  linarith

lemma truncTo_of_mul {n : ℤ} (h : q = n * g) : truncTo g q = q := by
  unfold truncTo
  rw [h, mul_div_assoc, div_self hg.ne', mul_one, floor_intCast]

lemma le_truncTo {n : ℤ} (h : n * g ≤ q) : n * g ≤ truncTo g q := by
  have : (n : ℚ) ≤ q / g := (le_div_iff₀ hg).mpr h
  have : n ≤ ⌊q / g⌋ := le_floor.mpr this
  exact mul_le_mul_of_nonneg_right (by exact_mod_cast this) hg.le

end

end

/-- What has at most `p` digits, in terms of a mantissa that does not end in
zero. -/
lemma atMostDigits_iff {a : ℕ} {k : ℤ} (ha : ¬ 10 ∣ a) :
    AtMostDigits p ((a : ℚ) * 10 ^ k) ↔ a < 10 ^ p := by
  constructor
  · rintro ⟨b, j, hb, heq⟩
    by_contra hbig
    rcases le_total j k with hjk | hkj
    · -- the other mantissa is a multiple of this one
      obtain ⟨m, rfl⟩ : ∃ m : ℕ, k = j + m := ⟨(k - j).toNat, by omega⟩
      have hbm : (b : ℚ) = a * 10 ^ m := by
        rw [zpow_add₀ (by norm_num), zpow_natCast] at heq
        have hj := (zpow_ten_pos j).ne'
        field_simp at heq
        linarith
      have hbm' : b = a * 10 ^ m := by exact_mod_cast hbm
      have hle : (a : ℤ) ≤ |b| := by
        rw [hbm', abs_of_nonneg (by positivity)]
        exact le_mul_of_one_le_right (by positivity) (one_le_pow₀ (by norm_num))
      have : (10 : ℤ) ^ p ≤ a := by exact_mod_cast not_lt.mp hbig
      omega
    · rcases hkj.eq_or_lt with rfl | hlt
      · have hba : (a : ℚ) = b := mul_right_cancel₀ (zpow_ten_pos k).ne' heq
        have hba' : (a : ℤ) = b := by exact_mod_cast hba
        have : (10 : ℤ) ^ p ≤ a := by exact_mod_cast not_lt.mp hbig
        have := le_abs_self b
        omega
      · obtain ⟨m, rfl⟩ : ∃ m : ℕ, j = k + (m + 1 : ℕ) := ⟨(j - k - 1).toNat, by omega⟩
        have hbm : (a : ℚ) = b * 10 ^ (m + 1) := by
          rw [zpow_add₀ (by norm_num), zpow_natCast] at heq
          have hk := (zpow_ten_pos k).ne'
          field_simp at heq
          linarith
        have hbm' : (a : ℤ) = b * 10 ^ (m + 1) := by exact_mod_cast hbm
        have hdvd : (10 : ℤ) ∣ (a : ℤ) := ⟨b * 10 ^ m, by rw [hbm', pow_succ]; ring⟩
        exact ha (by exact_mod_cast hdvd)
  · intro hlt
    exact ⟨a, k, by rw [abs_of_nonneg (by positivity)]; exact_mod_cast hlt, by push_cast; rfl⟩

end Cantian.Lib
