import Cantian.Dec.Integer

/-!
# Precision and scale

`cm_adjust_dec8` rounds a value to the scale of a column and refuses it when it
has more digits than the precision of the column. `cm_dec8_scale` rounds to a
scale without a precision. Both add half of the unit to the cell in which the
last kept digit stands, let the carry go up, and cut the cell there.
-/

namespace Cantian.Dec

open Lib List Int Dec8

namespace Dec8

/-! ## The source -/

/-- `cm_dec8_has_tail`. -/
def hasTail (cells : List ℕ) (cpos npos : ℕ) : Bool :=
  if 0 < npos then
    decide (0 < cells.getD cpos 0 % oneTenPower (8 - npos)) || (cells.drop (cpos + 1)).any (0 < ·)
  else (cells.drop cpos).any (0 < ·)

/-- `cm_dec8_make_round_carry`. -/
def makeRoundCarry (d : Dec8) (mode : RoundMode) (cpos npos : ℕ) : ℕ :=
  match mode with
  | .trunc => 0
  | .ceiling => if !d.isNeg && hasTail d.cells cpos npos then oneTenPower (8 - npos) else 0
  | .floor => if d.isNeg && hasTail d.cells cpos npos then oneTenPower (8 - npos) else 0
  | .halfUp => fiveTenPower (8 - npos)

/-- What `cm_dec8_round_cells` leaves for its caller: the cell of the round
position, the carry out of the first cell, and the cells. -/
structure RoundState where
  quot : ℕ
  carry : ℕ
  cells : List ℕ

/-- `cm_dec8_round_cells`. The cells are cut before the carry is made. -/
def roundCellsAt (d : Dec8) (precision deciPos : ℤ) (mode : RoundMode) : Option RoundState :=
  let rPos := deciPos + 8
  if 72 < rPos then none
  else
    let quot := (rPos / 8).toNat
    let rem := (rPos % 8).toNat
    if d.cells.length ≤ quot then some ⟨quot, 0, d.cells⟩
    else
      let l := d.cells.take (quot + 1)
      let carry := makeRoundCarry { d with cells := l } mode quot rem
      let r := addCarry cellMask l carry
      -- checked again when the loop has come to the first cell
      if (quot = 0 ∨ (addCarry cellMask l.tail carry).1 ≠ 0) ∧
          precision < deciPos + (if r.1 = 0 then (countU32Digits (r.2.headD 0) : ℤ) else 9)
      then none
      else some ⟨quot, r.1, truncLast (oneTenPower (8 - rem)) r.2⟩

/-- `cm_dec8_round`; `none` is a value with too many digits. -/
def round (d : Dec8) (precision scale : ℤ) (mode : RoundMode) : Option Dec8 :=
  if d.isZero then some d
  else
    let deciPos := scale + d.expn * 8
    let rPos := deciPos + d.prec0
    if precision < rPos then none
    else if rPos < 0 then some zero
    else
      match d.roundCellsAt precision deciPos mode with
      | none => none
      | some r =>
        if r.quot = 0 ∧ r.carry = 0 ∧ r.cells.headD 0 = 0 then some zero
        else
          let d' : Dec8 := { d with cells := r.cells }
          some (if 0 < r.carry then d'.rebuild 1 else d').trimZeros

/-- `cm_adjust_dec8`; the precision zero is `CT_UNSPECIFIED_NUM_PREC`. -/
def adjust (d : Dec8) (precision scale : ℤ) : Option Dec8 :=
  if precision = 0 then some d else d.round precision scale .halfUp

/-- `cm_dec8_scale`; `none` is an overflow. The sum for the round position is an
`int32`. -/
def scale (d : Dec8) (scale : ℤ) (mode : RoundMode) : Option Dec8 :=
  if d.isZero then some d
  else
    let rPos := bmod (d.expn * 8 + 8 + scale) 4294967296
    if rPos < 0 then some zero
    else if 72 < rPos then some d
    else
      let cpos := (rPos / 8).toNat
      let npos := 8 - (rPos % 8).toNat
      if d.cells.length ≤ cpos then some d
      else
        let l := d.cells.take (cpos + 1)
        let r := if mode = .halfUp then addCarry cellMask l (fiveTenPower npos) else (0, l)
        let cells := (truncLast (oneTenPower npos) r.2).rdropWhile (· == 0)
        if r.1 = 0 then some (trimZeros ⟨if cells = [] then 128 else d.head, cells⟩)
        else
          let d' := Dec8.rebuild { d with cells := cells } 1
          if 127 < d'.sciExp then none else some d'.trimZeros

/-! ## Rounding to a scale -/

/-- The number with `s` places after the point. -/
def roundedAt (mode : RoundMode) (s : ℤ) (q : ℚ) : ℚ := roundInt mode (q * 10 ^ s) / 10 ^ s

/-- What rounding adds before it cuts. -/
def roundShift : RoundMode → ℚ
  | .halfUp => 1 / 2
  | _ => 0

/-- The rounded absolute value. -/
def magAt (mode : RoundMode) (s : ℤ) (q : ℚ) : ℚ := ⌊q * 10 ^ s + roundShift mode⌋ / 10 ^ s

variable {d r : Dec8} {mode : RoundMode} {neg : Bool} {s : ℤ} {q v m : ℚ}

lemma roundShift_nonneg (mode : RoundMode) : 0 ≤ roundShift mode := by
  cases mode <;> norm_num [roundShift]

lemma roundShift_lt (mode : RoundMode) : roundShift mode < 1 := by
  cases mode <;> norm_num [roundShift]

/-- The modes that round the absolute value. -/
def Symmetric (mode : RoundMode) : Prop := mode = .halfUp ∨ mode = .trunc

lemma roundInt_symmetric (hmode : Symmetric mode) (hm : 0 ≤ m) (hv : v = if neg then -m else m) :
    roundInt mode v = if neg then -⌊m + roundShift mode⌋ else ⌊m + roundShift mode⌋ := by
  cases neg with
  | false =>
    rw [if_neg (by decide)] at hv ⊢
    subst hv
    have hnn : ¬ v < 0 := not_lt.mpr hm
    rcases hmode with rfl | rfl
    · exact if_neg hnn
    · rw [roundInt, if_neg hnn, roundShift, add_zero]
      rintro ⟨⟩
  | true =>
    rw [if_pos rfl] at hv ⊢
    subst hv
    rcases hm.eq_or_lt with rfl | hpos
    · rcases hmode with rfl | rfl <;> norm_num [roundInt, roundShift]
    · have hlt : -m < 0 := neg_neg_of_pos hpos
      rcases hmode with rfl | rfl
      · rw [roundInt, if_pos hlt, roundShift, ← ceil_neg, neg_add, sub_eq_add_neg]
      · rw [roundInt, if_pos hlt, ceil_neg, roundShift, add_zero]
        rintro ⟨⟩

lemma roundedAt_val (hmode : Symmetric mode) (d : Dec8) :
    roundedAt mode s d.val = if d.isNeg then -magAt mode s d.mag else magAt mode s d.mag := by
  have hval : d.val * 10 ^ s = if d.isNeg then -(d.mag * 10 ^ s) else d.mag * 10 ^ s := by
    unfold val
    split <;> ring
  unfold roundedAt magAt
  rw [roundInt_symmetric hmode (mul_nonneg d.mag_nonneg (zpow_ten_pos s).le) hval]
  split
  · push_cast
    rw [neg_div]
  · rfl

lemma floor_shift_nonneg (hq : 0 ≤ q) : 0 ≤ ⌊q * 10 ^ s + roundShift mode⌋ :=
  floor_nonneg.mpr (add_nonneg (mul_nonneg hq (zpow_ten_pos s).le) (roundShift_nonneg mode))

lemma floor_shift_le {j : ℕ} (hj : q * 10 ^ s < 10 ^ j) :
    ⌊q * 10 ^ s + roundShift mode⌋ ≤ 10 ^ j := by
  have : ⌊q * 10 ^ s + roundShift mode⌋ < 10 ^ j + 1 := by
    rw [floor_lt]
    push_cast
    have := roundShift_lt mode
    linarith
  omega

lemma magAt_nonneg (hq : 0 ≤ q) : 0 ≤ magAt mode s q :=
  div_nonneg (by exact_mod_cast floor_shift_nonneg hq) (zpow_ten_pos s).le

lemma magAt_of_int {n : ℤ} (h : q * 10 ^ s = n) : magAt mode s q = q := by
  have hfloor : ⌊(n : ℚ) + roundShift mode⌋ = n := by
    rw [floor_eq_iff]
    have := roundShift_nonneg mode
    have := roundShift_lt mode
    constructor <;> linarith
  unfold magAt
  rw [h, hfloor, ← h, mul_div_assoc, div_self (zpow_ten_pos s).ne', mul_one]

lemma magAt_of_small (h0 : 0 ≤ q) (h : q * 10 ^ s < 1 / 2) : magAt mode s q = 0 := by
  have hfloor : ⌊q * 10 ^ s + roundShift mode⌋ = 0 := by
    have hlt : ⌊q * 10 ^ s + roundShift mode⌋ < 1 := by
      have : roundShift mode ≤ 1 / 2 := by cases mode <;> norm_num [roundShift]
      rw [floor_lt]
      push_cast
      linarith
    have : 0 ≤ ⌊q * 10 ^ s + roundShift mode⌋ := floor_shift_nonneg h0
    omega
  unfold magAt
  rw [hfloor, cast_zero, zero_div]

/-- The rounded number is at most the next number with that many places. -/
lemma magAt_le {j : ℕ} (hj : q * 10 ^ s < 10 ^ j) : magAt mode s q ≤ 10 ^ ((j : ℤ) - s) := by
  unfold magAt
  rw [div_le_iff₀ (zpow_ten_pos s), ← zpow_add₀ (by norm_num), sub_add_cancel, zpow_natCast]
  exact_mod_cast floor_shift_le hj

lemma le_magAt {j : ℕ} (hj : 10 ^ j ≤ q * 10 ^ s) : 10 ^ ((j : ℤ) - s) ≤ magAt mode s q := by
  have hfloor : 10 ^ j ≤ ⌊q * 10 ^ s + roundShift mode⌋ := by
    rw [le_floor]
    push_cast
    have := roundShift_nonneg mode
    linarith
  unfold magAt
  rw [le_div_iff₀ (zpow_ten_pos s), ← zpow_add₀ (by norm_num), sub_add_cancel, zpow_natCast]
  exact_mod_cast hfloor

lemma atMostDigits_magAt {p} (hp : 1 ≤ p) (hq : 0 ≤ q) (h : AtMostDigits p q) :
    AtMostDigits p (magAt mode s q) := by
  obtain ⟨a, k, ha, rfl⟩ := h
  by_cases hk : 0 ≤ k + s
  · rw [magAt_of_int (n := a * 10 ^ (k + s).toNat)]
    · exact ⟨a, k, ha, rfl⟩
    · push_cast
      rw [mul_assoc, ← zpow_add₀ (by norm_num), ← zpow_natCast, toNat_of_nonneg hk]
  -- at least one digit of the number goes
  have hpos : 0 ≤ a := by
    have : (0 : ℚ) ≤ a := nonneg_of_mul_nonneg_left hq (zpow_ten_pos k)
    exact_mod_cast this
  rw [abs_of_nonneg hpos] at ha
  have ha' : (a : ℚ) < 10 ^ p := by exact_mod_cast ha
  have hsmall : (a : ℚ) * 10 ^ k * 10 ^ s < 10 ^ (p - 1) := by
    calc (a : ℚ) * 10 ^ k * 10 ^ s = a * 10 ^ (k + s) := by
          rw [mul_assoc, ← zpow_add₀ (by norm_num)]
      _ ≤ a * 10 ^ (-1 : ℤ) := by
          refine mul_le_mul_of_nonneg_left ?_ (by exact_mod_cast hpos)
          exact zpow_le_zpow_right₀ (by norm_num) (by omega)
      _ < 10 ^ p * 10 ^ (-1 : ℤ) := mul_lt_mul_of_pos_right ha' (by norm_num)
      _ = 10 ^ (p - 1) := by
          obtain ⟨j, rfl⟩ : ∃ j, p = j + 1 := ⟨p - 1, by omega⟩
          rw [pow_succ, Nat.add_sub_cancel, zpow_neg_one, mul_assoc, mul_inv_cancel₀ (by norm_num),
            mul_one]
  refine ⟨⌊(a : ℚ) * 10 ^ k * 10 ^ s + roundShift mode⌋, -s, ?_, ?_⟩
  · rw [abs_of_nonneg (floor_shift_nonneg hq)]
    exact (floor_shift_le hsmall).trans_lt (pow_lt_pow_right₀ (by norm_num) (by omega))
  · rw [magAt, zpow_neg, div_eq_mul_inv]

/-! ## Rounding the cells -/

variable {c k w : ℕ}

/-- The cells up to `c`, rounded to a multiple of the unit of a place in the
cell `c`. -/
structure CellsRounded (d : Dec8) (q : ℚ) (c : ℕ) (r : ℕ × List ℕ) : Prop where
  proper : Proper cellMask r.2
  length : r.2.length = c + 1
  le_one : r.1 ≤ 1
  value : (r.1 * cellMask + fr cellMask r.2) * (cellMask : ℚ) ^ d.expn = q
  carry : r.1 ≠ 0 → fr cellMask r.2 = 0
  first : r.1 = 0 → fr cellMask r.2 = 0 ∨ 1 ≤ fr cellMask r.2

variable {x : ℕ × List ℕ}

lemma CellsRounded.value_zero (h : CellsRounded d q c x) (hzero : x.1 = 0) :
    fr cellMask x.2 * (cellMask : ℚ) ^ d.expn = q := by
  have hval := h.value
  rwa [hzero, Nat.cast_zero, zero_mul, zero_add] at hval

lemma CellsRounded.value_one (h : CellsRounded d q c x) (hone : x.1 ≠ 0) :
    q = (cellMask : ℚ) ^ (d.expn + 1) := by
  have h1 : x.1 = 1 := by
    have := h.le_one
    omega
  rw [← h.value, h.carry hone, h1, Nat.cast_one, one_mul, add_zero, cellMask_zpow_add_one, mul_comm]

section
variable (hd : d.Normal) (hc : c < d.cells.length) (hk : k ≤ 8)
  (hplace : 8 * (c : ℤ) - k = 8 * d.expn + s) (hw : (w : ℚ) / oneTenPower k = roundShift mode)
include hd hc hk hplace hw

lemma Normal.roundCells_scale : ((roundCells cellMask (oneTenPower k) w c d.cells).1 * cellMask +
      fr cellMask (roundCells cellMask (oneTenPower k) w c d.cells).2) * (cellMask : ℚ) ^ d.expn =
      magAt mode s d.mag := by
  have hval := roundCells_value (v := w) cellMask_pos (oneTenPower_dvd hk) hd.proper hc
  have hunit : (cellMask : ℚ) ^ c / oneTenPower k = (cellMask : ℚ) ^ d.expn * 10 ^ s := by
    rw [cell_place rfl, hplace, zpow_add₀ (by norm_num), cellMask_zpow]
  have hB := pow_pos cellMask_cast_pos c
  have hten : (0 : ℚ) < oneTenPower k := by
    unfold oneTenPower
    positivity
  have hnum : (fr cellMask d.cells * cellMask ^ c + w) / oneTenPower k =
      d.mag * 10 ^ s + roundShift mode := by
    rw [add_div, mul_div_assoc, hunit, hw, ← mul_assoc]
    rfl
  rw [hnum] at hval
  unfold magAt
  rw [eq_div_iff (zpow_ten_pos s).ne', mul_assoc, ← hunit, ← mul_div_assoc, hval, mul_div_assoc,
    div_self hten.ne', mul_one]

lemma Normal.cellsRounded (hwle : w ≤ cellMask) :
    CellsRounded d (magAt mode s d.mag) c (roundCells cellMask (oneTenPower k) w c d.cells) := by
  have hval := hd.roundCells_scale hc hk hplace hw
  have hpow := cellMask_zpow_pos d.expn
  have hten := zpow_ten_pos s
  have hlen := length_roundCells (B := cellMask) (w := oneTenPower k) (v := w) hc
  refine ⟨hd.proper.roundCells cellMask_pos hwle, hlen, roundCells_le_one ?_, hval, ?_, ?_⟩
  · intro h
    rw [h] at hc
    exact Nat.not_lt_zero _ hc
  · -- the rounded value is at most the unit above the first cell
    intro hone
    have hle : magAt mode s d.mag ≤ 10 ^ (((8 * c + 8 - k : ℕ) : ℤ) - s) := by
      refine magAt_le ?_
      rw [← zpow_natCast, show (((8 * c + 8 - k : ℕ) : ℤ)) = 8 * (d.expn + 1) + s by omega,
        zpow_add₀ (by norm_num), ← cellMask_zpow]
      exact mul_lt_mul_of_pos_right hd.mag_lt hten
    rw [← hval, show ((8 * c + 8 - k : ℕ) : ℤ) - s = 8 * (d.expn + 1) by omega, ← cellMask_zpow,
      cellMask_zpow_add_one, mul_comm (_ ^ _)] at hle
    have hle' := le_of_mul_le_mul_right hle hpow
    have hnn := fr_nonneg (B := cellMask) (roundCells cellMask (oneTenPower k) w c d.cells).2
    have hge : (1 : ℚ) ≤ (roundCells cellMask (oneTenPower k) w c d.cells).1 := by
      exact_mod_cast Nat.one_le_iff_ne_zero.mpr hone
    have hB := cellMask_cast_pos
    have := mul_le_mul_of_nonneg_right hge hB.le
    linarith
  · intro hzero
    rw [hzero, Nat.cast_zero, zero_mul, zero_add] at hval
    rcases Nat.eq_zero_or_pos c with rfl | hpos
    · obtain ⟨x, hx⟩ := length_eq_one_iff.mp hlen
      rw [hx, fr_cons, fr_nil, zero_div, add_zero]
      rcases Nat.eq_zero_or_pos x with rfl | hx'
      · exact .inl Nat.cast_zero
      · exact .inr (by exact_mod_cast hx')
    · refine .inr ?_
      have hge : (10 : ℚ) ^ (((8 * c - k : ℕ) : ℤ) - s) ≤ magAt mode s d.mag := by
        refine le_magAt ?_
        rw [← zpow_natCast, show (((8 * c - k : ℕ) : ℤ)) = 8 * d.expn + s by omega,
          zpow_add₀ (by norm_num), ← cellMask_zpow]
        exact mul_le_mul_of_nonneg_right hd.le_mag hten.le
      rw [← hval, show ((8 * c - k : ℕ) : ℤ) - s = 8 * d.expn by omega, ← cellMask_zpow] at hge
      exact (le_mul_iff_one_le_left hpow).mp hge

end

/-- `r` is the absolute value `q` with the sign of `d`, or zero. -/
def RoundsTo (d : Dec8) (q : ℚ) (r : Dec8) : Prop :=
  (q = 0 ∧ r.isZero = true) ∨ (r.Normal ∧ r.isNeg = d.isNeg ∧ r.mag = q)

lemma RoundsTo.val (h : RoundsTo d q r) : r.val = if d.isNeg then -q else q := by
  rcases h with ⟨rfl, hzero⟩ | ⟨-, hneg, hmag⟩
  · rw [val_of_isZero hzero]
    split <;> norm_num
  · rw [Dec8.val, hneg, hmag]

lemma RoundsTo.canonical (h : RoundsTo d q r) (hq : AtMostDigits 65 q) : r.Canonical := by
  rcases h with ⟨-, hzero⟩ | ⟨hn, -, hmag⟩
  · exact .inl hzero
  · exact .inr ⟨hn, atMostDigits_val (hmag ▸ hq)⟩

lemma CellsRounded.trimZeros (h : CellsRounded d q c x) (hd : d.Normal) (hc : c < 9)
    (hzero : x.1 = 0) : RoundsTo d q (Dec8.trimZeros { d with cells := x.2 }) := by
  have hval := h.value_zero hzero
  rcases h.first hzero with hz | hone
  · refine .inl ⟨by rw [← hval, hz, zero_mul], ?_⟩
    have : x.2.rdropWhile (· == 0) = [] := by
      rw [rdropWhile_eq_nil_iff]
      intro y hy
      rw [fr_eq_zero cellMask_pos hz y hy]
      rfl
    rw [Dec8.trimZeros, if_pos this]
    rfl
  · obtain ⟨hn, hhead, hfr⟩ := trimZeros_normal (d := { d with cells := x.2 }) hd.head_lt h.proper
      (by rw [h.length]; unfold cellSize; omega) hone
    refine .inr ⟨hn, isNeg_of_head hhead, ?_⟩
    rw [mag, hfr, expn_of_head hhead]
    exact hval

variable {l : List ℕ}

lemma CellsRounded.rebuild (h : CellsRounded d q c x) (hd : d.Normal) (he : d.expn < 62)
    (hone : x.1 ≠ 0) (hl : fr cellMask l = fr cellMask x.2) :
    RoundsTo d q (Dec8.rebuild { d with cells := l } 1).trimZeros := by
  obtain ⟨hn, hneg, hmag⟩ := rebuild_one (d := { d with cells := l }) hd.head_lt he
    (by rw [hl, h.carry hone])
  refine .inr ⟨hn, hneg, ?_⟩
  rw [hmag, h.value_one hone, cellMask_zpow_add_one, mul_comm]
  rfl

lemma Normal.magAt_self (hd : d.Normal) (h : 8 * (d.cells.length : ℤ) ≤ d.expn * 8 + 8 + s) :
    magAt mode s d.mag = d.mag := by
  have hlen := hd.length_pos
  obtain ⟨n, hn⟩ := exists_nat_fr (B := cellMask) (l := d.cells) (k := d.cells.length - 1)
    cellMask_pos (by omega)
  obtain ⟨j, hj⟩ := eq_ofNat_of_zero_le (show 0 ≤ d.expn * 8 + 8 + s - 8 * d.cells.length by omega)
  refine magAt_of_int (n := n * 10 ^ j) ?_
  have hpow := pow_pos cellMask_cast_pos (d.cells.length - 1)
  have hfr : fr cellMask d.cells = n / cellMask ^ (d.cells.length - 1) := by
    rw [eq_div_iff hpow.ne', hn]
  have hB : (cellMask : ℚ) ^ (d.cells.length - 1) = 10 ^ (8 * ((d.cells.length : ℤ) - 1)) := by
    rw [← zpow_natCast, cellMask_zpow]
    congr 1
    omega
  push_cast
  rw [mag, hfr, hB, cellMask_zpow, div_mul_eq_mul_div, div_mul_eq_mul_div, mul_assoc,
    ← zpow_add₀ (by norm_num), mul_div_assoc, ← zpow_sub₀ (by norm_num), ← zpow_natCast]
  congr 2
  omega

lemma Normal.mag_lt_of_sciExp_lt {j} (hd : d.Normal) (hj : d.sciExp < j) : d.mag < 10 ^ j := by
  by_contra hge
  have := (hd.le_mag_iff j).mp (not_lt.mp hge)
  omega

lemma Normal.magAt_zero (hd : d.Normal) (h : d.sciExp + 1 + s < 0) : magAt mode s d.mag = 0 := by
  refine magAt_of_small d.mag_nonneg ?_
  have hlt := hd.mag_lt_of_sciExp_lt (Int.lt_succ d.sciExp)
  calc d.mag * 10 ^ s < 10 ^ (d.sciExp + 1) * 10 ^ s := mul_lt_mul_of_pos_right hlt (zpow_ten_pos s)
    _ = 10 ^ (d.sciExp + 1 + s) := (zpow_add₀ (by norm_num) _ _).symm
    _ ≤ 10 ^ (-1 : ℤ) := zpow_le_zpow_right₀ (by norm_num) (by omega)
    _ < 1 / 2 := by norm_num

lemma addCarry_zero (l : List ℕ) : addCarry cellMask l 0 = (0, l) := by
  induction l with
  | nil => rfl
  | cons c cs ih => rw [addCarry, ih]; rfl

lemma fiveTenPower_div (h : 1 ≤ k) : (fiveTenPower k : ℚ) / oneTenPower k = 1 / 2 := by
  obtain ⟨j, rfl⟩ : ∃ j, k = j + 1 := ⟨k - 1, by omega⟩
  rw [fiveTenPower_succ, oneTenPower]
  push_cast
  rw [pow_succ]
  field_simp
  norm_num

lemma trimZeros_trim (d : Dec8) :
    Dec8.trimZeros ⟨if d.cells.rdropWhile (· == 0) = [] then 128 else d.head,
      d.cells.rdropWhile (· == 0)⟩ = d.trimZeros := by
  unfold trimZeros
  rw [rdropWhile_idempotent]
  split <;> rfl

/-! ## `cm_dec8_scale` -/

lemma sciExp_rebuild (hd : d.Normal) (l : List ℕ) :
    127 < (Dec8.rebuild { d with cells := l } 1).sciExp ↔ 15 ≤ d.expn := by
  have hprec : (rebuild { d with cells := l } 1).prec0 = 1 := rfl
  unfold sciExp
  obtain ⟨hlow, hup⟩ := hd.expn_range
  have hexpn : (rebuild { d with cells := l } 1).expn =
      (⟨convertExpn2 (d.expn + 1) d.isNeg, l⟩ : Dec8).expn := rfl
  rw [hexpn]
  by_cases h : d.expn = 62
  · -- the exponent does not fit into the head and comes out the same
    have hwrap : ∀ neg, (⟨convertExpn2 (62 + 1) neg, l⟩ : Dec8).expn = 62 := by
      intro neg
      cases neg <;> norm_num [expn, isNeg, convertExpn2]
    rw [h, hwrap]
    omega
  · rw [expn_convertExpn2 (by omega) (by omega)]
    omega

/-- The round position of `cm_dec8_scale` fits into an `int32`. -/
def RoundPosFits (d : Dec8) (s : ℤ) : Prop :=
  -2147483648 ≤ d.expn * 8 + 8 + s ∧ d.expn * 8 + 8 + s < 2147483648

lemma Normal.scale_spec (hd : d.Normal) (hmode : Symmetric mode) (hfits : d.RoundPosFits s) :
    (d.scale s mode = none ∧
      ¬ (15 ≤ d.expn → magAt mode s d.mag < (cellMask : ℚ) ^ (d.expn + 1))) ∨
    ∃ r, d.scale s mode = some r ∧ RoundsTo d (magAt mode s d.mag) r ∧
      (15 ≤ d.expn → magAt mode s d.mag < (cellMask : ℚ) ^ (d.expn + 1)) := by
  have hsci := hd.prec0_spec.2.2
  have hpow := cellMask_zpow_pos d.expn
  unfold scale
  rw [hd.isZero_eq, if_neg (by decide), bmod_eq_of_le hfits.1 hfits.2]
  by_cases hneg : d.expn * 8 + 8 + s < 0
  · rw [if_pos hneg, hd.magAt_zero (by unfold sciExp; omega)]
    exact .inr ⟨zero, rfl, .inl ⟨rfl, rfl⟩, fun _ => cellMask_zpow_pos _⟩
  rw [if_neg hneg]
  have hself : 8 * (d.cells.length : ℤ) ≤ d.expn * 8 + 8 + s →
      RoundsTo d (magAt mode s d.mag) d ∧ magAt mode s d.mag < (cellMask : ℚ) ^ (d.expn + 1) := by
    intro h
    rw [hd.magAt_self h]
    exact ⟨.inr ⟨hd, rfl, rfl⟩, hd.mag_lt⟩
  have hlen : d.cells.length ≤ 9 := hd.length_le
  by_cases hbig : 72 < d.expn * 8 + 8 + s
  · obtain ⟨hr, hlt⟩ := hself (by omega)
    rw [if_pos hbig]
    exact .inr ⟨d, rfl, hr, fun _ => hlt⟩
  rw [if_neg hbig]
  by_cases hc : d.cells.length ≤ ((d.expn * 8 + 8 + s) / 8).toNat
  · obtain ⟨hr, hlt⟩ := hself (by omega)
    rw [if_pos hc]
    exact .inr ⟨d, rfl, hr, fun _ => hlt⟩
  rw [if_neg hc]
  set c := ((d.expn * 8 + 8 + s) / 8).toNat with hcdef
  set k := 8 - ((d.expn * 8 + 8 + s) % 8).toNat with hkdef
  set x := if mode = .halfUp then addCarry cellMask (d.cells.take (c + 1)) (fiveTenPower k)
    else (0, d.cells.take (c + 1)) with hx
  have hrounded : CellsRounded d (magAt mode s d.mag) c (x.1, truncLast (oneTenPower k) x.2) := by
    have hplace : 8 * (c : ℤ) - k = 8 * d.expn + s := by omega
    rcases hmode with rfl | rfl
    · exact hd.cellsRounded (not_le.mp hc) (by omega) hplace (fiveTenPower_div (by omega))
        (fiveTenPower_le (by omega))
    · have hcut : x = addCarry cellMask (d.cells.take (c + 1)) 0 := by
        rw [hx, if_neg (by decide), addCarry_zero]
      rw [hcut]
      exact hd.cellsRounded (not_le.mp hc) (by omega) hplace
        (show ((0 : ℕ) : ℚ) / oneTenPower k = roundShift .trunc by norm_num [roundShift])
        (Nat.zero_le _)
  by_cases hzero : x.1 = 0
  · rw [if_pos hzero, trimZeros_trim { d with cells := truncLast (oneTenPower k) x.2 }]
    refine .inr ⟨_, rfl, hrounded.trimZeros hd (by omega) hzero, fun _ => ?_⟩
    rw [← hrounded.value_zero hzero, cellMask_zpow_add_one, mul_comm]
    exact mul_lt_mul_of_pos_left (fr_lt cellMask_pos hrounded.proper) hpow
  · rw [if_neg hzero]
    by_cases hover : 15 ≤ d.expn
    · rw [if_pos ((sciExp_rebuild hd _).mpr hover)]
      exact .inl ⟨rfl, fun h => (h hover).ne (hrounded.value_one hzero)⟩
    · rw [if_neg fun h => hover ((sciExp_rebuild hd _).mp h)]
      exact .inr ⟨_, rfl, hrounded.rebuild hd (by omega) hzero (fr_trim _), fun h => absurd h hover⟩

/-! ## `cm_adjust_dec8` -/

/-- The digits of a number whose last cell is cut, from its first cell. -/
lemma digits_truncLast (hl : Proper cellMask l) (hlen : l.length = c + 1) (h0 : 0 < l.headD 0) :
    (fr cellMask (truncLast (oneTenPower k) l) = 0 ∧ c = 0 ∧ countU32Digits (l.headD 0) ≤ k) ∨
      ((10 : ℚ) ^ (countU32Digits (l.headD 0) - 1) ≤ fr cellMask (truncLast (oneTenPower k) l) ∧
        fr cellMask (truncLast (oneTenPower k) l) < 10 ^ countU32Digits (l.headD 0)) := by
  obtain ⟨x, cs, rfl⟩ := exists_cons_of_length_eq_add_one hlen
  have hx : x < cellMask := hl x mem_cons_self
  rw [headD_cons] at h0 ⊢
  obtain ⟨hlow, hup, hone⟩ := countU32Digits_spec h0 (hx.trans (by decide))
  cases cs with
  | nil =>
    have hc : c = 0 := by simpa using hlen.symm
    have hfr : fr cellMask (truncLast (oneTenPower k) [x]) = ((x / 10 ^ k * 10 ^ k : ℕ) : ℚ) := by
      rw [truncLast, fr_cons, fr_nil, zero_div, add_zero]
      rfl
    rw [hfr]
    by_cases hD : countU32Digits x ≤ k
    · -- the whole cell is cut
      refine .inl ⟨?_, hc, hD⟩
      rw [Nat.div_eq_of_lt (hup.trans_le (Nat.pow_le_pow_right (by norm_num) hD)), zero_mul,
        Nat.cast_zero]
    · refine .inr ⟨?_, ?_⟩
      · obtain ⟨m, hm⟩ := pow_dvd_pow 10 (show k ≤ countU32Digits x - 1 by omega)
        have : 10 ^ (countU32Digits x - 1) ≤ x / 10 ^ k * 10 ^ k := by
          rw [hm, mul_comm] at hlow ⊢
          exact Nat.mul_le_mul_right _ ((Nat.le_div_iff_mul_le (by positivity)).mpr hlow)
        exact_mod_cast this
      · exact_mod_cast (Nat.div_mul_le_self _ _).trans_lt hup
  | cons y cs =>
    refine .inr ⟨?_, ?_⟩
    · exact le_trans (by exact_mod_cast hlow) (le_fr_cons x _)
    · have hlt : fr cellMask (truncLast (oneTenPower k) (x :: y :: cs)) < x + 1 :=
        fr_cons_lt cellMask_pos hl.tail.truncLast
      exact hlt.trans_le (by exact_mod_cast hup)

/-- The first cell after a carry, and what the loop did to it. -/
lemma headD_addCarry {w} (hzero : (addCarry cellMask l w).1 = 0) (hl : l ≠ []) :
    l.headD 0 ≤ (addCarry cellMask l w).2.headD 0 := by
  obtain ⟨x, cs, rfl⟩ := exists_cons_of_ne_nil hl
  obtain ⟨q, y, heq, hsum, -⟩ := addCarry_cons (B := cellMask) x w cs
  rw [heq] at hzero ⊢
  dsimp only at hzero
  rw [hzero] at hsum
  rw [headD_cons, headD_cons]
  omega

lemma addCarry_unreached {w} (h : (addCarry cellMask l.tail w).1 = 0) (hl : l ≠ []) :
    (addCarry cellMask l w).1 = 0 ∧ (addCarry cellMask l w).2.headD 0 = l.headD 0 := by
  obtain ⟨x, cs, rfl⟩ := exists_cons_of_ne_nil hl
  rw [tail_cons] at h
  have heq : addCarry cellMask (x :: cs) w = (0, x :: (addCarry cellMask cs w).2) := by
    rw [addCarry, h]
    rfl
  rw [heq]
  exact ⟨rfl, rfl⟩

/-- Without a carry out of the first cell its digits decide whether the rounded
value is below a power of ten. -/
lemma CellsRounded.lt_iff {j} (h : CellsRounded d q c (0, truncLast (oneTenPower k) l))
    (hl : Proper cellMask l) (hlen : l.length = c + 1) (h0 : 0 < l.headD 0)
    (hj : c = 0 → (k : ℤ) ≤ j) :
    q < 10 ^ (8 * d.expn + j) ↔ (countU32Digits (l.headD 0) : ℤ) ≤ j := by
  have hpow := cellMask_zpow_pos d.expn
  rw [← h.value_zero rfl, zpow_add₀ (by norm_num), ← cellMask_zpow, mul_comm (_ ^ _),
    mul_lt_mul_iff_left₀ hpow]
  rcases digits_truncLast (k := k) hl hlen h0 with ⟨hzero, hc, hD⟩ | ⟨hlow, hup⟩
  · have := hj hc
    rw [hzero]
    exact iff_of_true (zpow_ten_pos _) (by omega)
  obtain ⟨x, cs, rfl⟩ := exists_cons_of_length_eq_add_one hlen
  have hone := (countU32Digits_spec h0 ((hl x mem_cons_self).trans (by decide))).2.2
  rw [headD_cons] at *
  constructor
  · intro hlt
    have hpow' := hlow.trans_lt hlt
    rw [← zpow_natCast] at hpow'
    have := (zpow_lt_zpow_iff_right₀ (by norm_num : (1 : ℚ) < 10)).mp hpow'
    omega
  · intro hle
    refine hup.trans_le ?_
    exact zpow_le_zpow_right₀ (by norm_num) hle

/-- The check of `cm_dec8_round_cells` is on the rounded value, also where the
loop has not come to the first cell and nothing is checked. -/
lemma Normal.check_iff {p deciPos} (hd : d.Normal) (hp : 1 ≤ p) (hc : c < d.cells.length)
    (hk1 : 1 ≤ k) (hk : k ≤ 8) (hplace : 8 * (c : ℤ) - k = deciPos)
    (hdeci : deciPos = s + d.expn * 8) (hprec : deciPos + d.prec0 ≤ p) :
    ((c = 0 ∨ (addCarry cellMask (d.cells.take (c + 1)).tail (fiveTenPower k)).1 ≠ 0) ∧
      p < deciPos + (if (addCarry cellMask (d.cells.take (c + 1)) (fiveTenPower k)).1 = 0 then
        (countU32Digits ((addCarry cellMask (d.cells.take (c + 1)) (fiveTenPower k)).2.headD 0) : ℤ)
        else 9)) ↔ ¬ magAt .halfUp s d.mag < 10 ^ (p - s) := by
  have hrounded : CellsRounded d (magAt .halfUp s d.mag) c (roundCells cellMask (oneTenPower k)
      (fiveTenPower k) c d.cells) :=
    hd.cellsRounded hc hk (by omega) (fiveTenPower_div hk1) (fiveTenPower_le hk)
  unfold roundCells at hrounded
  set l := d.cells.take (c + 1) with hl
  have hlen : l.length = c + 1 := by
    rw [hl, length_take]
    omega
  have hne : l ≠ [] := fun h => by
    rw [h] at hlen
    exact Nat.succ_ne_zero c hlen.symm
  have hhead : l.headD 0 = d.cells.headD 0 := by
    rw [hl]
    cases d.cells <;> rfl
  have hproper : Proper cellMask (addCarry cellMask l (fiveTenPower k)).2 :=
    (hd.proper.take _).addCarry cellMask_pos (fiveTenPower_le hk)
  have hlen' : (addCarry cellMask l (fiveTenPower k)).2.length = c + 1 := by
    rw [length_addCarry, hlen]
  have hunreached := addCarry_unreached (w := fiveTenPower k) (l := l)
  have hfirst := headD_addCarry (w := fiveTenPower k) (l := l)
  generalize addCarry cellMask l (fiveTenPower k) = a at *
  obtain ⟨carry, cs⟩ := a
  dsimp only at *
  rw [show p - s = 8 * d.expn + (p - deciPos) by omega]
  have hcheck : carry = 0 → (magAt .halfUp s d.mag < 10 ^ (8 * d.expn + (p - deciPos)) ↔
      (countU32Digits (cs.headD 0) : ℤ) ≤ p - deciPos) := by
    rintro rfl
    refine hrounded.lt_iff hproper hlen' ?_ (by omega)
    have := hfirst rfl hne
    have := hd.first
    omega
  by_cases hreach : c = 0 ∨ (addCarry cellMask l.tail (fiveTenPower k)).1 ≠ 0
  · by_cases hzero : carry = 0
    · rw [hcheck hzero, if_pos hzero]
      omega
    · rw [if_neg hzero, hrounded.value_one hzero, cellMask_zpow,
        zpow_lt_zpow_iff_right₀ (by norm_num)]
      omega
  · obtain ⟨hzero, hsame⟩ := hunreached (by tauto) hne
    have hD : countU32Digits (cs.headD 0) = d.prec0 := by
      rw [hsame, hhead]
      rfl
    rw [hcheck hzero, hD]
    exact iff_of_false (fun h => hreach h.1) (by omega)

lemma Normal.round_spec {p : ℤ} (hd : d.Normal) (hp : 1 ≤ p) (hp' : p ≤ 38) (hs : -84 ≤ s) :
    (d.round p s .halfUp = none ∧ ¬ magAt .halfUp s d.mag < 10 ^ (p - s)) ∨
      ∃ r, d.round p s .halfUp = some r ∧ RoundsTo d (magAt .halfUp s d.mag) r ∧
        magAt .halfUp s d.mag < 10 ^ (p - s) := by
  obtain ⟨-, -, hone, height⟩ := hd.prec0_spec
  have hsci : d.sciExp = d.expn * 8 + d.prec0 - 1 := rfl
  unfold round
  rw [hd.isZero_eq, if_neg (by decide)]
  by_cases hmany : p < s + d.expn * 8 + d.prec0
  · rw [if_pos hmany]
    refine .inl ⟨rfl, not_lt.mpr ?_⟩
    obtain ⟨j, rfl⟩ := eq_ofNat_of_zero_le (show 0 ≤ p by omega)
    refine le_magAt ?_
    rw [← zpow_natCast, ← div_le_iff₀ (zpow_ten_pos s), ← zpow_sub₀ (by norm_num)]
    exact (hd.le_mag_iff _).mpr (by omega)
  rw [if_neg hmany]
  by_cases hneg : s + d.expn * 8 + d.prec0 < 0
  · rw [if_pos hneg, hd.magAt_zero (by omega)]
    exact .inr ⟨zero, rfl, .inl ⟨rfl, rfl⟩, zpow_ten_pos _⟩
  rw [if_neg hneg]
  unfold roundCellsAt
  rw [if_neg (by omega)]
  by_cases hc : d.cells.length ≤ ((s + d.expn * 8 + 8) / 8).toNat
  · -- no digit behind the round position
    have hlen := hd.length_pos
    rw [if_pos hc]
    dsimp only
    rw [if_neg (by omega), if_neg (by omega), hd.magAt_self (by omega)]
    obtain ⟨hn, hhead, hfr⟩ := trimZeros_normal hd.head_lt hd.proper hd.length_le hd.one_le
    refine .inr ⟨_, rfl, .inr ⟨hn, isNeg_of_head hhead, ?_⟩, hd.mag_lt_of_sciExp_lt (by omega)⟩
    rw [mag, hfr, expn_of_head hhead]
    rfl
  rw [if_neg hc]
  set c := ((s + d.expn * 8 + 8) / 8).toNat
  set rem := ((s + d.expn * 8 + 8) % 8).toNat
  have hcheck := hd.check_iff (c := c) (k := 8 - rem) (p := p) hp (not_le.mp hc) (by omega)
    (by omega) (show 8 * (c : ℤ) - (8 - rem : ℕ) = s + d.expn * 8 by omega) rfl (by omega)
  have hrounded : CellsRounded d (magAt .halfUp s d.mag) c (roundCells cellMask
      (oneTenPower (8 - rem)) (fiveTenPower (8 - rem)) c d.cells) :=
    hd.cellsRounded (not_le.mp hc) (by omega) (by omega) (fiveTenPower_div (by omega))
      (fiveTenPower_le (by omega))
  unfold makeRoundCarry
  dsimp only
  unfold roundCells at hrounded
  generalize addCarry cellMask (d.cells.take (c + 1)) (fiveTenPower (8 - rem)) = a at *
  by_cases hfail : magAt .halfUp s d.mag < 10 ^ (p - s)
  · rw [if_neg fun h => hcheck.mp h hfail]
    refine .inr ?_
    dsimp only at hrounded ⊢
    by_cases hzero : a.1 = 0
    · have hlen : d.cells.length ≤ 9 := hd.length_le
      have hr := hrounded.trimZeros hd (by omega) hzero
      rw [if_neg (by omega : ¬ 0 < a.1)]
      split
      · -- the one cell is cut to zero
        rename_i hcut
        obtain ⟨x, hx⟩ := length_eq_one_iff.mp (hcut.1 ▸ hrounded.length)
        dsimp only at hx
        rw [hx] at hr hcut
        obtain rfl : x = 0 := hcut.2.2
        exact ⟨zero, rfl, hr, hfail⟩
      · exact ⟨_, rfl, hr, hfail⟩
    · rw [if_neg fun h => hzero h.2.1, if_pos (by omega : 0 < a.1)]
      exact ⟨_, rfl, hrounded.rebuild hd (by omega) hzero rfl, hfail⟩
  · rw [if_pos (hcheck.mpr hfail)]
    exact .inl ⟨rfl, hfail⟩

/-! ## Canonical decimals -/

lemma roundedAt_zero (mode : RoundMode) (s : ℤ) : roundedAt mode s 0 = 0 := by
  unfold roundedAt
  rw [zero_mul, roundInt_zero, cast_zero, zero_div]

lemma abs_roundedAt (hmode : Symmetric mode) (d : Dec8) :
    |roundedAt mode s d.val| = magAt mode s d.mag := by
  have hnn : 0 ≤ magAt mode s d.mag := magAt_nonneg d.mag_nonneg
  rw [roundedAt_val hmode]
  split
  · rw [abs_neg, abs_of_nonneg hnn]
  · rw [abs_of_nonneg hnn]

/-- The outcome of rounding a canonical decimal; `ok` says that the rounded
value is accepted. -/
structure ScaleOutcome (ok : Prop) (q : ℚ) (res : Option Dec8) : Prop where
  succeeds : (∃ r, res = some r) ↔ ok
  exact : ∀ r, res = some r → r.Canonical ∧ r.val = q

lemma Canonical.scaleOutcome_of_isZero {ok} (hd : d.Canonical) (hz : d.isZero = true) (hok : ok) :
    ScaleOutcome ok 0 (some d) where
  succeeds := iff_of_true ⟨d, rfl⟩ hok
  exact r hr := by
    cases hr
    exact ⟨hd, val_of_isZero hz⟩

lemma Canonical.scaleOutcome {ok res} (hd : d.Canonical) (hz : d.isZero = false)
    (hmode : Symmetric mode)
    (h : (res = none ∧ ¬ ok) ∨ ∃ r, res = some r ∧ RoundsTo d (magAt mode s d.mag) r ∧ ok) :
    ScaleOutcome ok (roundedAt mode s d.val) res := by
  rcases h with ⟨rfl, hfail⟩ | ⟨r, rfl, hr, hok⟩
  · exact ⟨iff_of_false (fun h => nomatch h.choose_spec) hfail, fun r h => nomatch h⟩
  · refine ⟨iff_of_true ⟨r, rfl⟩ hok, fun r' h => ?_⟩
    cases h
    obtain ⟨-, hdigits⟩ := hd.normal hz
    exact ⟨hr.canonical (atMostDigits_magAt (by norm_num) d.mag_nonneg hdigits),
      hr.val.trans (roundedAt_val hmode d).symm⟩

/-- Adjusting a value to a column, and rounding it to a scale. -/
theorem adjust_scale_correct (d : Dec8) (hd : d.Canonical) :
    (∀ p s : ℤ, 1 ≤ p → p ≤ 38 → -84 ≤ s → s ≤ 127 →
      ScaleOutcome (|roundedAt .halfUp s d.val| < 10 ^ (p - s)) (roundedAt .halfUp s d.val)
        (d.adjust p s)) ∧
    ∀ (s : ℤ) (mode : RoundMode), d.RoundPosFits s → mode = .halfUp ∨ mode = .trunc →
      ScaleOutcome (15 ≤ d.expn → |roundedAt mode s d.val| < (cellMask : ℚ) ^ (d.expn + 1))
        (roundedAt mode s d.val) (d.scale s mode) := by
  refine ⟨fun p s hp hp' hs _ => ?_, fun s mode hfits hmode => ?_⟩
  · rw [adjust, if_neg (by omega)]
    cases hz : d.isZero with
    | true =>
      rw [round, if_pos hz, val_of_isZero hz, roundedAt_zero, abs_zero]
      exact hd.scaleOutcome_of_isZero hz (zpow_ten_pos _)
    | false =>
      rw [abs_roundedAt (.inl rfl)]
      exact hd.scaleOutcome hz (.inl rfl) ((hd.normal hz).1.round_spec hp hp' hs)
  · cases hz : d.isZero with
    | true =>
      rw [scale, if_pos hz, val_of_isZero hz, roundedAt_zero, abs_zero]
      exact hd.scaleOutcome_of_isZero hz fun _ => cellMask_zpow_pos _
    | false =>
      rw [abs_roundedAt hmode]
      exact hd.scaleOutcome hz hmode ((hd.normal hz).1.scale_spec hmode hfits)

/-- The number 42 in a column with two digits. -/
theorem adjust_two_digits :
    ∃ r, (Dec8.mk 193 [42]).adjust 2 0 = some r ∧ r.Canonical ∧ r.val = 42 := by
  have hval : (mk 193 [42]).val = 42 := by norm_num [val, mag, isNeg, expn]
  have hr : (mk 193 [42]).adjust 2 0 = some ⟨193, [42]⟩ := by decide
  have h := ((adjust_scale_correct ⟨193, [42]⟩
    (canonical_single (by decide) (by decide) (by decide))).1 2 0 (by norm_num) (by norm_num)
    (by norm_num) (by norm_num)).exact _ hr
  refine ⟨_, hr, h.1, h.2.trans ?_⟩
  rw [hval]
  norm_num [roundedAt, roundInt]

/-- The largest value with sixteen nines before its zeros is rounded to `10^128`,
and this is reported as an overflow. -/
theorem scale_overflows :
    ∃ d : Dec8, d.Canonical ∧ d.InRange ∧ roundedAt .halfUp (-120) d.val = 10 ^ (128 : ℤ) ∧
      d.scale (-120) .halfUp = none := by
  have hval : (mk 208 [99999999, 99999999]).val = 9999999999999999 * 10 ^ (112 : ℤ) := by
    norm_num [val, mag, isNeg, expn, cellMask]
  refine ⟨⟨208, [99999999, 99999999]⟩,
    .inr ⟨⟨by decide, by decide, by decide, by unfold Proper; decide, by decide⟩,
      ⟨9999999999999999, 112, by norm_num, by rw [hval]; norm_num⟩⟩,
    .inr ⟨by decide, by decide⟩, ?_, by decide⟩
  rw [hval]
  norm_num [roundedAt, roundInt]

end Dec8

end Cantian.Dec
