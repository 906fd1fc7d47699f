import Mathlib.Tactic.Linarith
import Mathlib.Tactic.Ring
import Cantian.Sequence.Cache

/-!
# What the sequence functions compute without overflow

Values move away from the start, up or down with the sign of the step.
`Ahead x y` says that `x` comes before `y` on the way, and `Past v` that `v`
is past the boundary.
-/

namespace Cantian.Sequence

open Int

/-- The bounds are 64-bit values, and the step is not 0. -/
structure Seq.Valid (q : Seq) : Prop where
  minval : fits q.minval = true
  maxval : fits q.maxval = true
  step : q.step ≠ 0

def InRange (q : Seq) (v : Int) : Prop := q.minval ≤ v ∧ v ≤ q.maxval

def Ahead (q : Seq) (x y : Int) : Prop := 0 < q.step ∧ x < y ∨ q.step < 0 ∧ y < x

def Past (q : Seq) (v : Int) : Prop := 0 < q.step ∧ q.maxval < v ∨ q.step < 0 ∧ v < q.minval

variable {q : Seq} {x : Int}

lemma outOfRange_eq_false {v} : outOfRange q v = false ↔ InRange q v := by
  simp only [outOfRange, Bool.or_eq_false_iff, decide_eq_false_iff_not, InRange]
  omega

lemma cycled_of_inRange {v} (hv : InRange q v) : cycled q v = v := by
  rw [cycled, outOfRange_eq_false.mpr hv]
  rfl

lemma fits_iff : fits x = true ↔ -9223372036854775808 ≤ x ∧ x ≤ 9223372036854775807 := by
  simp [fits]

lemma wrap_of_fits (h : fits x = true) : wrap x = x := by
  rw [fits_iff] at h
  unfold wrap
  omega

lemma fits_between {y z} (hx : fits x = true) (hz : fits z = true)
    (h : x ≤ y ∧ y ≤ z ∨ z ≤ y ∧ y ≤ x) : fits y = true := by
  rw [fits_iff] at *
  omega

lemma InRange.fits (hq : q.Valid) {v} (h : InRange q v) : fits v = true :=
  fits_between hq.minval hq.maxval (.inl h)

lemma Ahead.trans {y z} (hxy : Ahead q x y) (hyz : Ahead q y z) : Ahead q x z := by
  unfold Ahead at *
  omega

lemma Ahead.asymm {y} (hxy : Ahead q x y) : ¬Ahead q y x := by
  unfold Ahead at *
  omega

lemma InRange.ahead {v w} (hv : InRange q v) (hw : Past q w) : Ahead q v w := by
  unfold InRange Past Ahead at *
  omega

lemma InRange.not_past {v} (hv : InRange q v) : ¬Past q v := by
  unfold InRange Past at *
  omega

variable {i j : Int}

lemma mul_step_lt (h : i < j) (hs : 0 < q.step) : i * q.step < j * q.step :=
  mul_lt_mul_of_pos_right h hs

lemma mul_step_gt (h : i < j) (hs : q.step < 0) : j * q.step < i * q.step :=
  mul_lt_mul_of_neg_right h hs

lemma ahead_add (hq : q.Valid) (x : Int) (h : i < j) :
    Ahead q (x + i * q.step) (x + j * q.step) := by
  rcases lt_or_gt_of_ne hq.step with hs | hs
  · have := mul_step_gt h hs
    exact .inr ⟨hs, by omega⟩
  · have := mul_step_lt h hs
    exact .inl ⟨hs, by omega⟩

lemma add_injective (hq : q.Valid) (x : Int) (h : x + i * q.step = x + j * q.step) : i = j := by
  have : i * q.step = j * q.step := by omega
  exact Int.eq_of_mul_eq_mul_right hq.step this

lemma fits_add (hx : fits x = true) (hj : fits (x + j * q.step) = true) (hi : 0 ≤ i) (hij : i ≤ j) :
    fits (x + i * q.step) = true := by
  apply fits_between hx hj
  rcases le_total 0 q.step with hs | hs
  · have h1 := mul_nonneg hi hs
    have h2 := mul_le_mul_of_nonneg_right hij hs
    exact .inl ⟨by omega, by omega⟩
  · have h1 := mul_nonpos_of_nonneg_of_nonpos hi hs
    have h2 := mul_le_mul_of_nonpos_right hij hs
    exact .inr ⟨by omega, by omega⟩

/-- How many steps from `x` do not come after `e`. -/
lemma not_ahead_iff (hq : q.Valid) {e} (h : ¬Ahead q e x) (j : Nat) :
    ¬Ahead q e (x + j * q.step) ↔ j ≤ ((e - x).tdiv q.step).toNat := by
  unfold Ahead at *
  rcases lt_or_gt_of_ne hq.step with hs | hs
  · have hdiv : (e - x).tdiv q.step = (x - e) / -q.step := by
      rw [← Int.tdiv_eq_ediv_of_nonneg (by omega), ← Int.neg_tdiv_neg]
      congr 1
      omega
    have h0 : 0 ≤ (x - e) / -q.step := Int.ediv_nonneg (by omega) (by omega)
    have hj := Int.le_ediv_iff_mul_le (a := (j : Int)) (b := x - e) (c := -q.step) (by omega)
    rw [mul_neg] at hj
    rw [hdiv]
    omega
  · have h0 : 0 ≤ (e - x) / q.step := Int.ediv_nonneg (by omega) (by omega)
    have hj := Int.le_ediv_iff_mul_le (a := (j : Int)) (b := e - x) hs
    rw [Int.tdiv_eq_ediv_of_nonneg (by omega)]
    omega

lemma cacheCount_pos (q : Seq) : 0 < cacheCount q := by
  unfold cacheCount
  split <;> omega

lemma strideStays_of_inRange (hq : q.Valid) (hfit : fits (x + cacheCount q * q.step) = true)
    (hin : InRange q (x + cacheCount q * q.step)) : strideStays q x = true := by
  unfold strideStays
  rcases lt_or_gt_of_ne hq.step with hs | hs
  · simp [wrap_of_fits hfit, hs, hin.1]
  · simp [wrap_of_fits hfit, hs, hin.2]

lemma strideStays_of_past (hfit : fits (x + cacheCount q * q.step) = true)
    (hpast : Past q (x + cacheCount q * q.step)) : strideStays q x = false := by
  unfold strideStays
  unfold Past at hpast
  simp only [wrap_of_fits hfit, Bool.or_eq_false_iff, Bool.and_eq_false_iff,
    decide_eq_false_iff_not]
  omega

/-- From a value that `n` steps take past the boundary, the value past the boundary is at most
`n` steps away. -/
lemma past_pastBoundary (hq : q.Valid) {v n} (hn : 0 < n) (hend : Past q (v + n * q.step))
    (hfit : fits (v + n * q.step) = true) (hdist : fits (boundary q - v) = true) :
    Past q (pastBoundary q v) := by
  have hdiv := mul_tdiv_add_tmod (boundary q - v) q.step
  have hmod : ((boundary q - v).tmod q.step).natAbs < q.step.natAbs := by
    rw [natAbs_tmod]
    exact Nat.mod_lt _ (natAbs_pos.mpr hq.step)
  have hafter : Ahead q (boundary q) (v + n.toNat * q.step) := by
    rw [toNat_of_nonneg hn.le]
    unfold Past Ahead boundary at *
    split <;> omega
  unfold pastBoundary
  rw [wrap_of_fits hdist]
  -- at most `n` steps, or none when the value is past the boundary already
  have hle : (boundary q - v).tdiv q.step + 1 ≤ n := by
    by_cases hv : Ahead q (boundary q) v
    · rcases hv with ⟨hs, hv⟩ | ⟨hs, hv⟩
      · have := Int.tdiv_nonneg (a := v - boundary q) (by omega) hs.le
        rw [← neg_sub, Int.neg_tdiv] at this
        omega
      · have := Int.tdiv_nonpos_of_nonneg_of_nonpos (a := boundary q - v) (by omega) hs.le
        omega
    · have := (not_ahead_iff hq hv n.toNat).not.mp (not_not.mpr hafter)
      omega
  have hval := add_one_mul ((boundary q - v).tdiv q.step) q.step
  rw [mul_comm ((boundary q - v).tdiv q.step)] at hval
  rcases lt_or_gt_of_ne hq.step with hs | hs
  · have hmul := mul_le_mul_of_nonpos_right hle hs.le
    have hb : boundary q = q.minval := if_neg (by omega)
    rw [wrap_of_fits (fits_between hfit hq.minval (.inl ⟨by omega, by omega⟩))]
    exact .inr ⟨hs, by omega⟩
  · have hmul := mul_le_mul_of_nonneg_right hle hs.le
    have hb : boundary q = q.maxval := if_pos hs
    rw [wrap_of_fits (fits_between hq.maxval hfit (.inl ⟨by omega, by omega⟩))]
    exact .inl ⟨hs, by omega⟩

end Cantian.Sequence
