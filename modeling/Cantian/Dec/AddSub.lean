import Cantian.Dec.Aligned

/-!
# Addition and subtraction of decimals

The sum of two values with the same sign is exact up to what is below nine
cells. For values with different signs the operand with the smaller exponent is
cut before it is subtracted, so that the first cells can cancel while the
dropped ones are missing from the result.
-/

namespace Cantian.Dec

open Lib List

namespace Dec8

variable {x y L S : Dec8} {o : ℕ}

/-! ## The same signs -/

/-- How far the exponents are apart. -/
def offset (x y : Dec8) : ℕ := (x.expn - y.expn).natAbs

section
variable (hx : x.isZero = false) (hy : y.isZero = false)
include hx hy

end

lemma val_add (hneg : x.isNeg ≠ y.isNeg) :
    x.val + y.val = (if x.isNeg then -(x.mag - y.mag) else x.mag - y.mag) ∧
      x.val + y.val = (if y.isNeg then -(y.mag - x.mag) else y.mag - x.mag) := by
  unfold val
  cases hx : x.isNeg <;> cases hy : y.isNeg
  · rw [hx, hy] at hneg
    exact absurd rfl hneg
  · simp only [Bool.false_eq_true, if_false, if_true]
    constructor <;> ring
  · simp only [Bool.false_eq_true, if_false, if_true]
    constructor <;> ring
  · rw [hx, hy] at hneg
    exact absurd rfl hneg

lemma negate_spec (hd : x.Soft) :
    x.negate.head = convertExpn2 x.expn (!x.isNeg) ∧ x.negate.cells = x.cells ∧
      x.negate.isNeg = (!x.isNeg) ∧ x.negate.expn = x.expn ∧ x.negate.val = -x.val := by
  obtain ⟨hlow, hup⟩ := hd.expn_range
  have heq : x.negate = { x with head := convertExpn2 x.expn (!x.isNeg) } := by
    unfold negate
    rw [hd.isZero_eq]
    rfl
  have hneg : x.negate.isNeg = (!x.isNeg) := by
    rw [heq]
    exact isNeg_convertExpn2 hlow hup
  have hexpn : x.negate.expn = x.expn := by
    rw [heq]
    exact expn_convertExpn2 hlow hup
  refine ⟨by rw [heq], by rw [heq], hneg, hexpn, ?_⟩
  have hmag : x.negate.mag = x.mag := by
    unfold mag
    rw [hexpn, heq]
  unfold val
  rw [hneg, hmag]
  cases x.isNeg <;> simp

lemma Normal.negate (hd : x.Normal) : x.negate.Normal := by
  obtain ⟨hhead, hcells, -⟩ := negate_spec hd.soft
  refine ⟨hhead ▸ convertExpn2_lt _ _, ?_, ?_, ?_, ?_⟩
  · rw [hcells]
    exact hd.first
  · rw [hcells]
    exact hd.last
  · rw [hcells]
    exact hd.proper
  · rw [hcells]
    exact hd.length_le

end Dec8

end Cantian.Dec
