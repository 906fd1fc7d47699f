import Cantian.Lib.CellArith

/-!
# Decimals in nine cells

A `dec8_t` has up to nine cells of eight digits each and a head that codes the
sign and the exponent: the value is the number of the cells times a power of
`10^8`. The cells of a value without cells are not read, or in a place where
every number of digits gives the same result.

The cells of the operands are below `10^8` or equal to it, so no sum of the
32-bit cells and no column of 64-bit products wraps.
-/

namespace Cantian.Dec

open Lib

/-- `DEC8_CELL_MASK`. -/
def cellMask : ℕ := 100000000

/-- `DEC8_CELL_SIZE`. -/
def cellSize : ℕ := 9

/-- `dec8_t`; `len` is the number of the cells and one. -/
structure Dec8 where
  head : ℕ
  cells : List ℕ
deriving DecidableEq

/-- `cm_count_u32digits`. -/
def countU32Digits (u : ℕ) : ℕ :=
  if 100000 ≤ u then
    if 10000000 ≤ u then (if u < 100000000 then 8 else if 1000000000 ≤ u then 10 else 9)
    else if 1000000 ≤ u then 7
    else 6
  else if 1000 ≤ u then (if 10000 ≤ u then 5 else 4)
  else if 100 ≤ u then 3
  else if 10 ≤ u then 2
  else 1

/-- `g_1ten_powers`. -/
def oneTenPower (k : ℕ) : ℕ := 10 ^ k

/-- `g_5ten_powers`. -/
def fiveTenPower (k : ℕ) : ℕ := if k = 0 then 0 else 5 * 10 ^ (k - 1)

/-- `CONVERT_D8EXPN2`: the head of a value, a byte. -/
def convertExpn2 (expn : ℤ) (isNeg : Bool) : ℕ :=
  ((if isNeg then 62 - expn else expn + 193) % 256).toNat

/-- The digits of a cell after the last one that is not zero; a cell has at most
ten digits. -/
def tailZeros : ℕ → ℕ → ℕ
  | 0, _ => 0
  | n + 1, u => if u % 10 = 0 then tailZeros n (u / 10) + 1 else 0

/-- `cm_dec8_cmp_data`. -/
def cmpData : List ℕ → List ℕ → Ordering
  | [], [] => .eq
  | [], _ :: _ => .lt
  | _ :: _, [] => .gt
  | c :: cs, d :: ds => if d < c then .gt else if c < d then .lt else cmpData cs ds

namespace Dec8

/-- `IS_DEC8_NEG`. -/
def isNeg (d : Dec8) : Bool := decide (d.head < 128)

/-- `GET_DEC8_EXPN`. -/
def expn (d : Dec8) : ℤ := if d.isNeg then 62 - d.head else d.head - 193

/-- `cm_zero_dec8`. -/
def zero : Dec8 := ⟨128, []⟩

/-- `DECIMAL8_IS_ZERO`. -/
def isZero (d : Dec8) : Bool :=
  d.cells.isEmpty && (d.head == 128 || d.head == 193 || d.head == 62)

/-- The digits of the first cell. -/
def prec0 (d : Dec8) : ℕ := countU32Digits (d.cells.headD 0)

/-- `DEC8_GET_SEXP`. -/
def sciExp (d : Dec8) : ℤ := d.expn * 8 + d.prec0 - 1

/-- `cm_dec8_trim_zeros`. -/
def trimZeros (d : Dec8) : Dec8 :=
  if d.cells.rdropWhile (· == 0) = [] then zero
  else { d with cells := d.cells.rdropWhile (· == 0) }

/-- `cm_dec8_left_shift`. -/
def leftShift (d : Dec8) (offset : ℕ) : Dec8 :=
  ⟨convertExpn2 (d.expn - offset) d.isNeg, d.cells.drop offset⟩

/-- `cm_dec8_right_shift`. -/
def rightShift (d : Dec8) (offset : ℕ) : Dec8 :=
  ⟨convertExpn2 (d.expn + offset) d.isNeg, (List.replicate offset 0 ++ d.cells).take cellSize⟩

/-- `cm_dec8_rebuild`. -/
def rebuild (d : Dec8) (cell0 : ℕ) : Dec8 :=
  ⟨convertExpn2 (d.expn + 1) d.isNeg, (cell0 :: d.cells).take cellSize⟩

/-- `cm_dec8_calc_prec`. -/
def calcPrec (d : Dec8) : ℕ :=
  match d.cells with
  | [] => 0
  | c :: cs =>
    match (cs.rdropWhile (· == 0)).getLast? with
    | none => countU32Digits (c / 10 ^ tailZeros 10 c)
    | some u =>
      (cs.rdropWhile (· == 0)).length * 8 - tailZeros 10 u + countU32Digits c

/-- `cm_dec8_finalise`. -/
def finalise (d : Dec8) (prec : ℕ) (allowOverflow : Bool) : Option Dec8 :=
  if d.sciExp < -130 then some zero
  else if !allowOverflow ∧ 127 < d.sciExp then none
  else if d.cells.length ≤ prec / 8 then some d
  else if d.calcPrec ≤ prec then some d
  else
    let dpos := prec + 8 - d.prec0
    let npos := dpos % 8
    let r :=
      roundCells cellMask (oneTenPower (8 - npos)) (fiveTenPower (8 - npos)) (dpos / 8) d.cells
    let d' : Dec8 := { d with cells := r.2 }
    if r.1 = 0 then some d'.trimZeros
    else if !allowOverflow ∧ 127 < d.sciExp + 8 then none
    else if allowOverflow ∧ (496 < d.sciExp + 8 ∨ d.sciExp + 8 < -520) then none
    else some (d'.rebuild 1).trimZeros

/-- `cm_add_aligned_dec8`. -/
def addAlignedDec8 (d1 d2 : Dec8) : Dec8 :=
  let r := addAligned cellMask d1.cells d2.cells
  let rs : Dec8 := ⟨if d2.cells.length < d1.cells.length then d1.head else d2.head, r.2⟩
  (if r.1 = 0 then rs else rs.rebuild 1).trimZeros

/-- `cm_sub_aligned_dec8`. -/
def subAlignedDec8 (large small : Dec8) (flipSign : Bool) : Dec8 :=
  let r := subAligned cellMask large.cells small.cells
  let rs : Dec8 := ⟨if flipSign then convertExpn2 large.expn (!large.isNeg) else large.head, r.2⟩
  (if rs.cells.headD 0 = 0 then rs.leftShift (rs.cells.takeWhile (· == 0)).length else rs).trimZeros

/-- `cm_dec8_negate`. -/
def negate (d : Dec8) : Dec8 :=
  if d.isZero then d else { d with head := convertExpn2 d.expn (!d.isNeg) }

/-- `cm_dec8_add_op`, from the place where the operands have different
exponents: `d1` is the one with the larger exponent. -/
def addOpShifted (d1 d2 : Dec8) (offset : ℕ) (sameSign : Bool) : Dec8 :=
  if 9 ≤ offset then d1
  else if sameSign then addAlignedDec8 d1 (d2.rightShift offset)
  else subAlignedDec8 d1 (d2.rightShift offset) false

/-- `cm_dec8_add_op`. -/
def addOp (d1 d2 : Dec8) : Dec8 :=
  if d2.isZero then d1
  else if d1.isZero then d2
  else
    let offset := d1.expn - d2.expn
    let sameSign := d1.isNeg == d2.isNeg
    if offset < 0 then addOpShifted d2 d1 (-offset).toNat sameSign
    else if 0 < offset then addOpShifted d1 d2 offset.toNat sameSign
    else if sameSign then addAlignedDec8 d1 d2
    else
      match cmpData d1.cells d2.cells with
      | .lt => subAlignedDec8 d2 d1 false
      | .eq => zero
      | .gt => subAlignedDec8 d1 d2 false

/-- `cm_dec8_mul_op`. -/
def mulOp (d1 d2 : Dec8) : Dec8 :=
  if d1.isZero || d2.isZero then zero
  else
    let r := mulLoop cellMask cellSize d1.cells d2.cells (d1.cells.length + d2.cells.length - 1) 0
    let rs : Dec8 := ⟨convertExpn2 (d1.expn + d2.expn) (d1.isNeg != d2.isNeg), r.2⟩
    (if r.1 = 0 then rs else rs.rebuild r.1).trimZeros

/-- `cm_dec8_add`; `MAX_NUMERIC_BUFF` is 65. -/
def add (d1 d2 : Dec8) : Option Dec8 := (addOp d1 d2).finalise 65 false

/-- `cm_dec8_multiply`. -/
def multiply (d1 d2 : Dec8) : Option Dec8 := (mulOp d1 d2).finalise 65 false

end Dec8

end Cantian.Dec
