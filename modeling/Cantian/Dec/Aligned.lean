import Cantian.Dec.Multiply

/-!
# Sums and differences of cells with one exponent

`cm_dec8_add_op` and `cm_dec8_sub_op` shift the operand with the smaller
exponent to the right, which drops its cells behind the ninth, and then add or
subtract the cells (`cm_add_aligned_dec8`, `cm_sub_aligned_dec8`).
-/

namespace Cantian.Dec

open Lib List Dec8

namespace Dec8

variable {d d1 d2 large small : Dec8} {o : ℕ} {flip : Bool}

/-! ## Shifting to the right -/

/-- What `cm_add_aligned_dec8` computes from cells whose sum is `Q`; `proper`
says that the cells of the operands are below `10^8`. -/
structure Added (e : ℤ) (neg : Bool) (Q : ℚ) (proper : Prop) (r : Dec8) : Prop where
  soft : r.Soft
  isNeg : r.isNeg = neg
  expn : r.expn = e ∨ r.expn = e + 1
  le : (cellMask : ℚ) ^ r.expn ≤ Q
  nonneg : 0 ≤ Q - r.mag
  small : Q - r.mag ≤ (cellMask : ℚ) ^ (r.expn - 8)
  normal : proper → r.Normal ∧ Q - r.mag < (cellMask : ℚ) ^ (r.expn - 8)

end Dec8

end Cantian.Dec
