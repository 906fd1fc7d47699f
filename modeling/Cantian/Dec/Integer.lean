import Cantian.Dec.Finalise

/-!
# Conversion to machine integers

The integer part of a value is read cell by cell into a 64-bit number, which is
rounded up by one where the mode asks for it. Whether the result fits is decided
by the exponent and the first cell, and by a check of the 64-bit number.

The conversion to a 32-bit unsigned number admits one cell too many: the 64-bit
number may wrap, and then the check sees only what is left of it.
-/

namespace Cantian.Dec

open Lib List Int

/-- `round_mode_t`. -/
inductive RoundMode where
  | trunc
  | ceiling
  | floor
  | halfUp
deriving DecidableEq

/-- A number rounded to an integer; half of one is rounded away from zero. -/
def roundInt : RoundMode → ℚ → ℤ
  | .trunc, q => if q < 0 then ⌈q⌉ else ⌊q⌋
  | .ceiling, q => ⌈q⌉
  | .floor, q => ⌊q⌋
  | .halfUp, q => if q < 0 then ⌈q - 1 / 2⌉ else ⌊q + 1 / 2⌋

namespace Dec8

/-! ## The source -/

/-- `DEC8_HALF_MASK`. -/
def halfMask : ℕ := 50000000

/-- `dec8_make_negexpn_round_value`. -/
def makeNegexpnRoundValue (d : Dec8) (mode : RoundMode) : ℤ :=
  match mode with
  | .floor => if d.isNeg then -1 else 0
  | .halfUp =>
    let v : ℤ := if d.expn = -1 ∧ halfMask ≤ d.cells.headD 0 then 1 else 0
    if d.isNeg then -v else v
  | .ceiling => if d.isNeg then 0 else 1
  | .trunc => 0

/-- `dec8_make_negexpn_round_value2`. -/
def makeNegexpnRoundValue2 (d : Dec8) (mode : RoundMode) : ℕ :=
  match mode with
  | .halfUp => if d.expn = -1 ∧ halfMask ≤ d.cells.headD 0 then 1 else 0
  | .ceiling => 1
  | .trunc => 0
  | .floor => 0

/-- What the conversions add to the integer part; `i` is the first cell of the
fraction. -/
def roundInc (mode : RoundMode) (neg : Bool) (cells : List ℕ) (i : ℕ) : ℕ :=
  if i < cells.length then
    match mode with
    | .ceiling => if neg then 0 else 1
    | .floor => if neg then 1 else 0
    | .halfUp => if halfMask ≤ cells.getD i 0 then 1 else 0
    | .trunc => 0
  else 0

/-- The loop of `cm_make_dec8_to_int` and `cm_make_dec8_to_uint`: the first cell
and `n` more. -/
def intLoop (cells : List ℕ) : ℕ → ℕ
  | 0 => cells.headD 0
  | n + 1 => (intLoop cells n * cellMask + cells.getD (n + 1) 0) % 2 ^ 64

/-- The loop of `cm_dec8_to_uint64` over the cells after the first. -/
def tailLoop (cells : List ℕ) : ℕ → ℕ
  | 0 => 0
  | n + 1 => (tailLoop cells n * cellMask + cells.getD (n + 1) 0) % 2 ^ 64

/-- `cm_dec2uint64_check_overflow`. -/
def dec2uint64CheckOverflow (u64h u64l : ℕ) : Option ℕ :=
  if u64h = 18440000000000000000 ∧ 6744073709551615 < u64l then none
  else some ((u64h + u64l) % 2 ^ 64)

/-- `cm_dec2int64_check_overflow`. -/
def dec2int64CheckOverflow (u64 : ℕ) (isNeg : Bool) : Option ℤ :=
  if 9223372036854775807 < u64 then
    if isNeg && u64 == 9223372036854775808 then some (-9223372036854775808) else none
  else some (if isNeg then -(u64 : ℤ) else u64)

/-- `cm_dec8_to_uint64`. -/
def toUint64 (d : Dec8) (mode : RoundMode) : Option ℕ :=
  if d.isNeg then none
  else if d.isZero then some 0
  else if d.expn < 0 then some (d.makeNegexpnRoundValue2 mode)
  -- the maximal UINT64 is 1844 67440737 09551615
  else if 2 < d.expn ∨ (d.expn = 2 ∧ 1844 < d.cells.headD 0) then none
  else
    let e := d.expn.toNat
    let n := min e (d.cells.length - 1)
    let u64h := d.cells.headD 0 * cellMask ^ e % 2 ^ 64
    let u64l := tailLoop d.cells n * cellMask ^ (e - n) % 2 ^ 64
    dec2uint64CheckOverflow u64h
      ((u64l + roundInc mode d.isNeg d.cells (e + 1)) % 2 ^ 64)

/-- `cm_make_dec8_to_int`. -/
def makeDec8ToInt (d : Dec8) (expn : ℕ) (mode : RoundMode) : ℕ :=
  (intLoop d.cells expn + roundInc mode d.isNeg d.cells (expn + 1)) % 2 ^ 64

/-- `cm_make_dec8_to_uint`: as for a value that is not negative. -/
def makeDec8ToUint (d : Dec8) (expn : ℕ) (mode : RoundMode) : ℕ :=
  (intLoop d.cells expn + roundInc mode false d.cells (expn + 1)) % 2 ^ 64

/-- `cm_dec8_to_int64`. -/
def toInt64 (d : Dec8) (mode : RoundMode) : Option ℤ :=
  if d.isZero then some 0
  else if d.expn < 0 then some (d.makeNegexpnRoundValue mode)
  -- the maximal BIGINT is 922 33720368 54775807
  else if 2 < d.expn ∨ (d.expn = 2 ∧ 922 < d.cells.headD 0) then none
  else dec2int64CheckOverflow (d.makeDec8ToInt d.expn.toNat mode) d.isNeg

/-- `cm_dec8_to_uint32`. -/
def toUint32 (d : Dec8) (mode : RoundMode) : Option ℕ :=
  if d.isZero then some 0
  else if 2 < d.expn ∨ d.isNeg then none
  else if d.expn < 0 then some (d.makeNegexpnRoundValue mode % 2 ^ 32).toNat
  else
    let u64 := d.makeDec8ToUint d.expn.toNat mode
    if 4294967295 < u64 then none else some u64

/-- `cm_dec8_to_int32`. -/
def toInt32 (d : Dec8) (mode : RoundMode) : Option ℤ :=
  if d.isZero then some 0
  else if d.expn < 0 then some (d.makeNegexpnRoundValue mode)
  -- the maximal INTEGER is 21 47483648
  else if 1 < d.expn then none
  else
    let u64 : ℤ := d.makeDec8ToInt d.expn.toNat mode
    let i64 := if d.isNeg then -u64 else u64
    if 2147483647 < i64 ∨ i64 < -2147483648 then none else some i64

/-! ## Integer part and fraction -/

variable {d : Dec8} {mode : RoundMode} {neg : Bool} {l : List ℕ} {v f : ℚ} {e n N : ℕ}

/-- What is added to the integer part of an absolute value, by its fraction. -/
def fracInc (mode : RoundMode) (neg : Bool) (f : ℚ) : ℕ :=
  match mode with
  | .ceiling => if neg ∨ f = 0 then 0 else 1
  | .floor => if neg ∧ f ≠ 0 then 1 else 0
  | .halfUp => if 1 / 2 ≤ f then 1 else 0
  | .trunc => 0

section
variable (h0 : 0 ≤ f) (h1 : f < 1)
include h0 h1

lemma floor_add_frac : ⌊(N : ℚ) + f⌋ = N := by
  rw [floor_eq_iff]
  push_cast
  constructor <;> linarith

lemma ceil_add_frac : ⌈(N : ℚ) + f⌉ = N + if f = 0 then 0 else 1 := by
  split_ifs with h
  · rw [h, add_zero, ceil_natCast, add_zero]
  · have : 0 < f := lt_of_le_of_ne h0 (Ne.symm h)
    rw [ceil_eq_iff]
    push_cast
    constructor <;> linarith

lemma floor_add_half :
    ⌊(N : ℚ) + f + 1 / 2⌋ = N + if 1 / 2 ≤ f then 1 else 0 := by
  split_ifs with h
  · rw [floor_eq_iff]
    push_cast
    constructor <;> linarith
  · rw [not_le] at h
    rw [floor_eq_iff]
    push_cast
    constructor <;> linarith

/-- Rounding a signed number is rounding its absolute value, in a direction that
the sign decides. -/
lemma roundInt_signed (hv : v = if neg then -(N + f) else N + f) :
    roundInt mode v = if neg then -((N + fracInc mode neg f : ℕ) : ℤ)
      else ((N + fracInc mode neg f : ℕ) : ℤ) := by
  have hfloor := floor_add_frac (N := N) h0 h1
  have hceil := ceil_add_frac (N := N) h0 h1
  have hhalf := floor_add_half (N := N) h0 h1
  have hN : (0 : ℚ) ≤ N + f := by positivity
  cases neg with
  | false =>
    rw [if_neg (by decide)] at hv ⊢
    subst hv
    have hnn : ¬ (N + f < 0) := not_lt.mpr hN
    cases mode with
    | trunc => rw [roundInt, if_neg hnn, hfloor]; rfl
    | ceiling => rw [roundInt, hceil]; simp only [fracInc]; split <;> simp_all
    | floor => rw [roundInt, hfloor]; simp [fracInc]
    | halfUp => rw [roundInt, if_neg hnn, hhalf]; simp only [fracInc]; split <;> simp
  | true =>
    rw [if_pos rfl] at hv ⊢
    subst hv
    rcases hN.eq_or_lt with hzero | hpos
    · -- zero has no fraction, and every mode leaves it
      have hNnn : (0 : ℚ) ≤ N := N.cast_nonneg
      have hf : f = 0 := by linarith
      have hNz : N = 0 := by
        rw [hf, add_zero] at hzero
        exact_mod_cast hzero.symm
      subst hf hNz
      cases mode <;> norm_num [roundInt, fracInc]
    · have hlt : -(N + f) < 0 := neg_neg_of_pos hpos
      cases mode with
      | trunc => rw [roundInt, if_pos hlt, ceil_neg, hfloor]; rfl
      | ceiling => rw [roundInt, ceil_neg, hfloor]; simp [fracInc]
      | floor => rw [roundInt, floor_neg, hceil]; simp only [fracInc]; split <;> simp_all
      | halfUp =>
        rw [roundInt, if_pos hlt, show -(N + f) - 1 / 2 = -(N + f + 1 / 2) by ring, ceil_neg,
          hhalf]
        simp only [fracInc]
        split <;> simp

end

/-- The integer that the first cell and `n` more stand for. -/
def intPart (l : List ℕ) : ℕ → ℕ
  | 0 => l.headD 0
  | n + 1 => intPart l n * cellMask + l.getD (n + 1) 0

lemma fr_drop_eq (l : List ℕ) (k : ℕ) :
    fr cellMask (l.drop k) = l.getD k 0 + fr cellMask (l.drop (k + 1)) / cellMask := by
  by_cases hk : k < l.length
  · rw [drop_eq_getElem_cons hk, fr_cons, getD_eq_getElem _ _ hk]
  · rw [drop_of_length_le (by omega), drop_of_length_le (by omega),
      getD_eq_default _ _ (by omega)]
    simp

/-- The integer part and the fraction of the cells. -/
lemma fr_mul_pow (l : List ℕ) (e : ℕ) :
    fr cellMask l * cellMask ^ e = intPart l e + fr cellMask (l.drop (e + 1)) / cellMask := by
  induction e with
  | zero =>
    have h := fr_drop_eq l 0
    rw [drop_zero] at h
    rw [pow_zero, mul_one, h, intPart]
    cases l <;> rfl
  | succ e ih =>
    rw [pow_succ, ← mul_assoc, ih, add_mul, div_mul_cancel₀ _ cellMask_cast_pos.ne',
      fr_drop_eq l (e + 1), intPart]
    push_cast
    ring

lemma intLoop_eq (h : l.headD 0 < 2 ^ 64) (n : ℕ) : intLoop l n = intPart l n % 2 ^ 64 := by
  induction n with
  | zero => exact (Nat.mod_eq_of_lt h).symm
  | succ n ih => rw [intLoop, intPart, ih, Nat.add_mod, Nat.mul_mod, Nat.mod_mod, ← Nat.mul_mod,
      ← Nat.add_mod]

lemma intPart_lt (h : Proper cellMask l) (n : ℕ) :
    intPart l n + 1 ≤ (l.headD 0 + 1) * cellMask ^ n := by
  induction n with
  | zero => rw [intPart, pow_zero, mul_one]
  | succ n ih =>
    have hcell : l.getD (n + 1) 0 < cellMask := by
      by_cases hn : n + 1 < l.length
      · rw [getD_eq_getElem _ _ hn]
        exact h _ (getElem_mem hn)
      · rw [getD_eq_default _ _ (by omega)]
        exact cellMask_pos
    calc intPart l (n + 1) + 1 ≤ (intPart l n + 1) * cellMask := by
          rw [intPart, add_mul, one_mul]
          omega
      _ ≤ (l.headD 0 + 1) * cellMask ^ n * cellMask := Nat.mul_le_mul_right _ ih
      _ = (l.headD 0 + 1) * cellMask ^ (n + 1) := by rw [pow_succ, mul_assoc]

lemma le_intPart (l : List ℕ) (n : ℕ) : l.headD 0 * cellMask ^ n ≤ intPart l n := by
  induction n with
  | zero => rw [intPart, pow_zero, mul_one]
  | succ n ih =>
    rw [intPart, pow_succ, ← mul_assoc]
    exact (Nat.mul_le_mul_right _ ih).trans (Nat.le_add_right _ _)

lemma fr_div_lt_one (h : Proper cellMask l) : fr cellMask l / cellMask < 1 := by
  rw [div_lt_one cellMask_cast_pos]
  exact fr_lt cellMask_pos h

/-- The first cell of a fraction decides whether it is at least one half. -/
lemma half_le_iff (h : Proper cellMask l) :
    1 / 2 ≤ fr cellMask l / cellMask ↔ halfMask ≤ l.headD 0 := by
  have hsplit := fr_drop_eq l 0
  have hlt := fr_div_lt_one (h.drop 1)
  have hnn : (0 : ℚ) ≤ fr cellMask (l.drop 1) / cellMask :=
    div_nonneg (fr_nonneg _) cellMask_cast_pos.le
  have hhead : l.getD 0 0 = l.headD 0 := by cases l <;> rfl
  rw [drop_zero, hhead] at hsplit
  rw [le_div_iff₀ cellMask_cast_pos, hsplit, show (1 / 2 : ℚ) * cellMask = (halfMask : ℕ) by
    norm_num [cellMask, halfMask]]
  constructor
  · intro hle
    have : (halfMask : ℚ) < (l.headD 0 + 1 : ℕ) := by
      push_cast
      linarith
    have : halfMask < l.headD 0 + 1 := by exact_mod_cast this
    omega
  · intro hle
    have : (halfMask : ℚ) ≤ l.headD 0 := by exact_mod_cast hle
    linarith

lemma getLastD_drop {i} (h : i < l.length) : (l.drop i).getLastD 0 = l.getLastD 0 := by
  rw [getLastD_eq_getLast?, getLastD_eq_getLast?, getLast?_drop, if_neg (by omega)]

/-- The code looks at the cells of the fraction, and only at the first of them. -/
lemma roundInc_eq (hp : Proper cellMask l) (hlast : 0 < l.getLastD 0) (i : ℕ) :
    roundInc mode neg l i = fracInc mode neg (fr cellMask (l.drop i) / cellMask) := by
  unfold roundInc
  by_cases hi : i < l.length
  · have hpos : fr cellMask (l.drop i) / cellMask ≠ 0 := by
      have := fr_pos_of_getLastD (l := l.drop i) (by rw [getLastD_drop hi]; exact hlast)
      exact (div_pos this cellMask_cast_pos).ne'
    have hhead : (l.drop i).headD 0 = l.getD i 0 := by
      rw [drop_eq_getElem_cons hi, headD_cons, getD_eq_getElem _ _ hi]
    have hhalf := half_le_iff (hp.drop i)
    rw [hhead] at hhalf
    rw [if_pos hi]
    cases mode with
    | halfUp => simp only [fracInc, hhalf]
    | trunc => rfl
    | ceiling | floor => simp [fracInc, hpos]
  · rw [if_neg hi, drop_of_length_le (by omega)]
    cases mode <;> simp [fracInc]

section
variable (hd : d.Normal)
include hd

lemma Normal.roundInt_eq (he : 0 ≤ d.expn) : roundInt mode d.val =
      if d.isNeg then
        -((intPart d.cells d.expn.toNat + roundInc mode d.isNeg d.cells (d.expn.toNat + 1) : ℕ) : ℤ)
      else
       ((intPart d.cells d.expn.toNat + roundInc mode d.isNeg d.cells (d.expn.toNat + 1) : ℕ) : ℤ)
     := by
  have hmag : d.mag = intPart d.cells d.expn.toNat +
      fr cellMask (d.cells.drop (d.expn.toNat + 1)) / cellMask := by
    rw [← fr_mul_pow, mag, ← zpow_natCast, toNat_of_nonneg he]
  rw [roundInc_eq hd.proper hd.last]
  refine roundInt_signed (div_nonneg (fr_nonneg _) cellMask_cast_pos.le)
   (fr_div_lt_one (hd.proper.drop _)) ?_
  rw [← hmag]
  rfl

lemma Normal.roundInt_of_pos (he : 0 ≤ d.expn) (hneg : d.isNeg = false) :
    roundInt mode d.val =
     ((intPart d.cells d.expn.toNat + roundInc mode false d.cells (d.expn.toNat + 1) : ℕ) : ℤ) := by
  rw [hd.roundInt_eq he, hneg]
  rfl

lemma Normal.mag_lt_one (he : d.expn < 0) : d.mag < 1 := by
  have h := mul_lt_mul_of_pos_right hd.lt (cellMask_zpow_pos d.expn)
  rw [mul_comm (cellMask : ℚ), ← cellMask_zpow_add_one] at h
  refine h.trans_le ?_
  rw [← zpow_zero (cellMask : ℚ)]
  exact zpow_le_zpow_right₀ (by norm_num [cellMask]) (by omega)

lemma Normal.half_le_mag (he : d.expn < 0) :
    1 / 2 ≤ d.mag ↔ d.expn = -1 ∧ halfMask ≤ d.cells.headD 0 := by
  by_cases hone : d.expn = -1
  · rw [← half_le_iff hd.proper, mag, hone, zpow_neg_one, ← div_eq_mul_inv]
    exact (and_iff_right rfl).symm
  -- two cells down the value is below 10^-8
  have h := mul_lt_mul_of_pos_right hd.lt (cellMask_zpow_pos d.expn)
  rw [mul_comm (cellMask : ℚ), ← cellMask_zpow_add_one] at h
  have hle : (cellMask : ℚ) ^ (d.expn + 1) ≤ cellMask ^ (-1 : ℤ) :=
    zpow_le_zpow_right₀ (by norm_num [cellMask]) (by omega)
  have hsmall : (cellMask : ℚ) ^ (-1 : ℤ) < 1 / 2 := by norm_num [cellMask]
  refine iff_of_false (not_le.mpr ?_) fun h => hone h.1
  exact (h.trans_le hle).trans hsmall

lemma Normal.roundInt_of_neg (he : d.expn < 0) :
    roundInt mode d.val = d.makeNegexpnRoundValue mode := by
  have hpos := hd.mag_pos.ne'
  have hval : d.val = if d.isNeg then -((0 : ℕ) + d.mag) else (0 : ℕ) + d.mag := by
    rw [Nat.cast_zero, zero_add]
    rfl
  rw [roundInt_signed d.mag_nonneg (hd.mag_lt_one he) hval]
  have hhalf := hd.half_le_mag he
  unfold makeNegexpnRoundValue
  cases mode with
  | halfUp =>
    simp only [fracInc, hhalf, zero_add]
    push_cast
    rfl
  | trunc => simp [fracInc]
  | ceiling | floor => cases hneg : d.isNeg <;> simp [fracInc, hpos]

end

lemma makeNegexpnRoundValue2_eq (h : d.isNeg = false) :
    (d.makeNegexpnRoundValue2 mode : ℤ) = d.makeNegexpnRoundValue mode := by
  unfold makeNegexpnRoundValue2 makeNegexpnRoundValue
  rw [h]
  cases mode <;> simp

lemma makeNegexpnRoundValue_bounds (d : Dec8) (mode : RoundMode) :
    (if d.isNeg then -1 else 0) ≤ d.makeNegexpnRoundValue mode ∧
      d.makeNegexpnRoundValue mode ≤ 1 := by
  unfold makeNegexpnRoundValue
  cases mode <;> dsimp only <;> split_ifs <;> omega

/-! ## The conversions -/

/-- The result that is asked for: `R` if it is in the range. -/
def exactly (lo hi R : ℤ) : Option ℤ := if lo ≤ R ∧ R ≤ hi then some R else none

lemma exactly_eq_some {lo hi R} (h0 : lo ≤ R) (h1 : R ≤ hi) : exactly lo hi R = some R :=
  if_pos ⟨h0, h1⟩

lemma exactly_eq_none {lo hi R} (h : R < lo ∨ hi < R) : exactly lo hi R = none :=
  if_neg (by omega)

lemma roundInc_le_one (mode : RoundMode) (neg : Bool) (l : List ℕ) (i : ℕ) :
    roundInc mode neg l i ≤ 1 := by
  unfold roundInc
  cases mode <;> dsimp only <;> split_ifs <;> omega

/-- The size of the integer part, by the cells before the point. -/
lemma Normal.intPart_size (hd : d.Normal) (e : ℕ) :
    0 < d.cells.headD 0 ∧ d.cells.headD 0 < 100000000 ∧
      ((e = 0 ∧ intPart d.cells e = d.cells.headD 0) ∨
        (e = 1 ∧ d.cells.headD 0 * 100000000 ≤ intPart d.cells e ∧
          intPart d.cells e < (d.cells.headD 0 + 1) * 100000000) ∨
        (e = 2 ∧ d.cells.headD 0 * 10000000000000000 ≤ intPart d.cells e ∧
          intPart d.cells e < (d.cells.headD 0 + 1) * 10000000000000000) ∨
        (3 ≤ e ∧ 1000000000000000000000000 ≤ intPart d.cells e)) := by
  obtain ⟨c, cs, hc, -⟩ := hd.exists_cons
  have hmask : d.cells.headD 0 < cellMask := by
    rw [hc]
    exact hd.proper c (hc ▸ mem_cons_self)
  refine ⟨hd.first, hmask, ?_⟩
  have hlow := le_intPart d.cells e
  have hup := intPart_lt hd.proper e
  rcases (by omega : e = 0 ∨ e = 1 ∨ e = 2 ∨ 3 ≤ e) with rfl | rfl | rfl | h
  · exact .inl ⟨rfl, rfl⟩
  · exact .inr (.inl ⟨rfl, hlow, hup⟩)
  · exact .inr (.inr (.inl ⟨rfl, hlow, hup⟩))
  · refine .inr (.inr (.inr ⟨h, le_trans ?_ hlow⟩))
    calc cellMask ^ 3 ≤ cellMask ^ e := Nat.pow_le_pow_right cellMask_pos h
      _ ≤ _ := Nat.le_mul_of_pos_left _ hd.first

lemma roundInt_zero (mode : RoundMode) : roundInt mode 0 = 0 := by
  cases mode <;> norm_num [roundInt]

lemma Normal.makeDec8ToInt_eq (hd : d.Normal) (e : ℕ) : d.makeDec8ToInt e mode =
      (intPart d.cells e + roundInc mode d.isNeg d.cells (e + 1)) % 2 ^ 64 := by
  have := (hd.intPart_size e).2.1
  rw [makeDec8ToInt, intLoop_eq (by omega), Nat.mod_add_mod]

lemma Canonical.toInt64_eq (hd : d.Canonical) : d.toInt64 mode =
      exactly (-9223372036854775808) 9223372036854775807 (roundInt mode d.val) := by
  unfold toInt64
  rcases hd with hzero | ⟨hn, -⟩
  · rw [if_pos hzero, val_of_isZero hzero, roundInt_zero]
    rfl
  rw [hn.isZero_eq, if_neg (by decide)]
  by_cases hneg : d.expn < 0
  · obtain ⟨hlow, hup⟩ := makeNegexpnRoundValue_bounds d mode
    rw [if_pos hneg, hn.roundInt_of_neg hneg, exactly_eq_some ?_ (by omega)]
    split at hlow <;> omega
  rw [if_neg hneg, hn.roundInt_eq (by omega), hn.makeDec8ToInt_eq]
  have hsize := hn.intPart_size d.expn.toNat
  have hinc := roundInc_le_one mode d.isNeg d.cells (d.expn.toNat + 1)
  generalize roundInc mode d.isNeg d.cells (d.expn.toNat + 1) = inc at *
  by_cases hlarge : 2 < d.expn ∨ (d.expn = 2 ∧ 922 < d.cells.headD 0)
  · rw [if_pos hlarge, exactly_eq_none]
    split <;> omega
  rw [if_neg hlarge, Nat.mod_eq_of_lt (by omega)]
  unfold dec2int64CheckOverflow exactly
  cases d.isNeg with
  | false =>
    simp only [Bool.false_and, Bool.false_eq_true, if_false]
    split_ifs <;> first | rfl | omega
  | true =>
    simp only [Bool.true_and, beq_iff_eq, if_true]
    split_ifs <;> first | rfl | omega | (congr 1; omega)

lemma Canonical.toInt32_eq (hd : d.Canonical) :
    d.toInt32 mode = exactly (-2147483648) 2147483647 (roundInt mode d.val) := by
  unfold toInt32
  rcases hd with hzero | ⟨hn, -⟩
  · rw [if_pos hzero, val_of_isZero hzero, roundInt_zero]
    rfl
  rw [hn.isZero_eq, if_neg (by decide)]
  by_cases hneg : d.expn < 0
  · obtain ⟨hlow, hup⟩ := makeNegexpnRoundValue_bounds d mode
    rw [if_pos hneg, hn.roundInt_of_neg hneg, exactly_eq_some ?_ (by omega)]
    split at hlow <;> omega
  rw [if_neg hneg, hn.roundInt_eq (by omega), hn.makeDec8ToInt_eq]
  have hsize := hn.intPart_size d.expn.toNat
  have hinc := roundInc_le_one mode d.isNeg d.cells (d.expn.toNat + 1)
  generalize roundInc mode d.isNeg d.cells (d.expn.toNat + 1) = inc at *
  by_cases hlarge : 1 < d.expn
  · rw [if_pos hlarge, exactly_eq_none]
    split <;> omega
  · rw [if_neg hlarge, Nat.mod_eq_of_lt (by omega)]
    unfold exactly
    dsimp only
    generalize (if d.isNeg then
      -((intPart d.cells d.expn.toNat + inc : ℕ) : ℤ) else _) = R
    split_ifs <;> first | rfl | omega

/-! ### Unsigned numbers -/

/-- Without the first cell. -/
def tailPart (l : List ℕ) : ℕ → ℕ
  | 0 => 0
  | n + 1 => tailPart l n * cellMask + l.getD (n + 1) 0

lemma intPart_eq (l : List ℕ) (n : ℕ) : intPart l n = l.headD 0 * cellMask ^ n + tailPart l n := by
  induction n with
  | zero => rw [intPart, tailPart, pow_zero, mul_one, add_zero]
  | succ n ih =>
    rw [intPart, tailPart, ih, pow_succ]
    ring

lemma tailLoop_eq (l : List ℕ) (n : ℕ) : tailLoop l n = tailPart l n % 2 ^ 64 := by
  induction n with
  | zero => rfl
  | succ n ih => rw [tailLoop, tailPart, ih, Nat.add_mod, Nat.mul_mod, Nat.mod_mod, ← Nat.mul_mod,
      ← Nat.add_mod]

lemma tailPart_add (h : l.length ≤ n + 1) (k : ℕ) :
    tailPart l (n + k) = tailPart l n * cellMask ^ k := by
  induction k with
  | zero => rw [add_zero, pow_zero, mul_one]
  | succ k ih =>
    rw [← add_assoc, tailPart, ih, getD_eq_default _ _ (by omega), pow_succ]
    ring

lemma tailLoop_mul (l : List ℕ) (e : ℕ) :
    tailLoop l (min e (l.length - 1)) * cellMask ^ (e - min e (l.length - 1)) % 2 ^ 64 =
      tailPart l e % 2 ^ 64 := by
  rw [tailLoop_eq, Nat.mod_mul_mod]
  by_cases h : e ≤ l.length - 1
  · rw [min_eq_left h, Nat.sub_self, pow_zero, mul_one]
  · rw [min_eq_right (by omega), ← tailPart_add (by omega)]
    congr 2
    omega

/-- The check of the two halves of a number up to `1845 * 10^16`. -/
lemma checkOverflow_eq {H T I inc} (hI : H + T = I) (hinc : inc ≤ 1)
    (hsmall : I < 18450000000000000000) (hH : H = 18440000000000000000 ∨ I < 18440000000000000000) :
    (dec2uint64CheckOverflow (H % 2 ^ 64) ((T % 2 ^ 64 + inc) % 2 ^ 64)).map (↑) =
      exactly 0 18446744073709551615 ((I + inc : ℕ) : ℤ) := by
  have hT : T < 18440000000000000000 ∨ H < 18440000000000000000 := by omega
  rw [Nat.mod_eq_of_lt (by omega : H < 2 ^ 64), Nat.mod_eq_of_lt (by omega : T < 2 ^ 64),
    Nat.mod_eq_of_lt (by omega : T + inc < 2 ^ 64)]
  unfold dec2uint64CheckOverflow exactly
  by_cases hover : H = 18440000000000000000 ∧ 6744073709551615 < T + inc
  · rw [if_pos hover, if_neg (by omega)]
    rfl
  · rw [if_neg hover, if_pos (by omega), Nat.mod_eq_of_lt (by omega)]
    exact congrArg some (by push_cast; omega)

lemma Canonical.toUint64_eq (hd : d.Canonical) (hneg : d.isNeg = false) :
    (d.toUint64 mode).map (↑) = exactly 0 18446744073709551615 (roundInt mode d.val) := by
  unfold toUint64
  rw [hneg, if_neg (by decide)]
  rcases hd with hzero | ⟨hn, -⟩
  · rw [if_pos hzero, val_of_isZero hzero, roundInt_zero]
    rfl
  rw [hn.isZero_eq, if_neg (by decide)]
  by_cases hexp : d.expn < 0
  · obtain ⟨hlow, hup⟩ := makeNegexpnRoundValue_bounds d mode
    rw [hneg, if_neg (by decide)] at hlow
    rw [if_pos hexp, hn.roundInt_of_neg hexp, exactly_eq_some hlow (by omega), Option.map_some,
      makeNegexpnRoundValue2_eq hneg]
  rw [if_neg hexp, hn.roundInt_of_pos (by omega) hneg]
  have hsize := hn.intPart_size d.expn.toNat
  have hinc := roundInc_le_one mode false d.cells (d.expn.toNat + 1)
  by_cases hlarge : 2 < d.expn ∨ (d.expn = 2 ∧ 1844 < d.cells.headD 0)
  · rw [if_pos hlarge, exactly_eq_none (by omega)]
    rfl
  rw [if_neg hlarge]
  dsimp only
  rw [tailLoop_mul]
  refine checkOverflow_eq (intPart_eq d.cells d.expn.toNat).symm hinc (by omega) ?_
  by_cases hfull : d.expn = 2 ∧ d.cells.headD 0 = 1844
  · rw [hfull.1, hfull.2]
    exact .inl rfl
  · exact .inr (by omega)

/-- Where the 64-bit number may have wrapped. -/
lemma Canonical.toUint32_eq (hd : d.Canonical) (hneg : d.isNeg = false) :
    (d.toUint32 mode).map (↑) = exactly 0 4294967295 (roundInt mode d.val) ↔
      ¬ (d.expn = 2 ∧ roundInt mode d.val % 2 ^ 64 < 2 ^ 32) := by
  unfold toUint32
  rcases hd with hzero | ⟨hn, -⟩
  · have hexpn : d.expn ≠ 2 := by
      unfold isZero at hzero
      unfold expn
      rw [hneg, if_neg (by decide)]
      simp only [Bool.and_eq_true, Bool.or_eq_true, beq_iff_eq] at hzero
      omega
    rw [if_pos hzero, val_of_isZero hzero, roundInt_zero]
    exact iff_of_true rfl fun h => hexpn h.1
  · rw [hn.isZero_eq, if_neg (by decide), hneg]
    simp only [Bool.false_eq_true, or_false]
    by_cases hbig : 2 < d.expn
    · have hsize := hn.intPart_size d.expn.toNat
      rw [if_pos hbig, hn.roundInt_of_pos (by omega) hneg, exactly_eq_none (by omega)]
      exact iff_of_true rfl fun h => by omega
    rw [if_neg hbig]
    by_cases hexp : d.expn < 0
    · obtain ⟨hlow, hup⟩ := makeNegexpnRoundValue_bounds d mode
      rw [hneg, if_neg (by decide)] at hlow
      rw [if_pos hexp, hn.roundInt_of_neg hexp, exactly_eq_some hlow (by omega), Option.map_some]
      refine iff_of_true (congrArg some ?_) fun h => by omega
      omega
    · rw [if_neg hexp, hn.roundInt_of_pos (by omega) hneg]
      have hsize := hn.intPart_size d.expn.toNat
      have hinc := roundInc_le_one mode false d.cells (d.expn.toNat + 1)
      have hmake : d.makeDec8ToUint d.expn.toNat mode = (intPart d.cells d.expn.toNat +
          roundInc mode false d.cells (d.expn.toNat + 1)) % 2 ^ 64 := by
        rw [makeDec8ToUint, intLoop_eq (by omega), Nat.mod_add_mod]
      rw [hmake]
      generalize roundInc mode false d.cells (d.expn.toNat + 1) = inc at *
      generalize hI : intPart d.cells d.expn.toNat + inc = I at *
      by_cases htwo : d.expn = 2
      · -- the number is too large, and only a check of what is left of it can tell
        rw [exactly_eq_none (by omega), Option.map_eq_none_iff]
        split
        · exact iff_of_true rfl (by omega)
        · exact iff_of_false (by simp) (by omega)
      · rw [Nat.mod_eq_of_lt (by omega)]
        refine iff_of_true ?_ fun h => htwo h.1
        unfold exactly
        split_ifs <;> first | rfl | omega

/-- The four conversions of one value: each succeeds exactly when the rounded
value is in the range, and then returns it. The conversions to unsigned numbers
may also refuse a negative value. -/
structure ConversionsExact (d : Dec8) (mode : RoundMode) : Prop where
  uint64 : (d.isNeg = true ∧ d.toUint64 mode = none) ∨
    (d.toUint64 mode).map (↑) = exactly 0 18446744073709551615 (roundInt mode d.val)
  int64 : d.toInt64 mode =
    exactly (-9223372036854775808) 9223372036854775807 (roundInt mode d.val)
  uint32 : (d.isNeg = true ∧ d.toUint32 mode = none) ∨
    (d.toUint32 mode).map (↑) = exactly 0 4294967295 (roundInt mode d.val)
  int32 : d.toInt32 mode = exactly (-2147483648) 2147483647 (roundInt mode d.val)

/-- The conversions are right except for values with three cells before the
point that are congruent to a 32-bit number. -/
theorem conversions_exact_iff (d : Dec8) (mode : RoundMode) (hd : d.Canonical) :
    d.ConversionsExact mode ↔
      ¬ (d.isNeg = false ∧ d.expn = 2 ∧ roundInt mode d.val % 2 ^ 64 < 2 ^ 32) := by
  constructor
  · rintro ⟨-, -, h, -⟩ ⟨hneg, hwrap⟩
    rw [hneg] at h
    exact (hd.toUint32_eq hneg).mp (h.resolve_left fun h => nomatch h.1) hwrap
  · intro hwrap
    refine ⟨?_, hd.toInt64_eq, ?_, hd.toInt32_eq⟩
    · cases hneg : d.isNeg with
      | true => exact .inl ⟨rfl, if_pos hneg⟩
      | false => exact .inr (hd.toUint64_eq hneg)
    · cases hneg : d.isNeg with
      | true =>
        rcases hd with hzero | ⟨hn, -⟩
        · refine .inr ?_
          rw [toUint32, if_pos hzero, val_of_isZero hzero, roundInt_zero]
          rfl
        · refine .inl ⟨rfl, ?_⟩
          rw [toUint32, hn.isZero_eq, if_neg (by decide), if_pos (.inr hneg)]
      | false => exact .inr ((hd.toUint32_eq hneg).mpr fun h => hwrap ⟨hneg, h⟩)

/-- Forty-two. -/
theorem conversions_exact_small : (Dec8.mk 193 [42]).ConversionsExact .halfUp :=
  (conversions_exact_iff ⟨193, [42]⟩ .halfUp
    (canonical_single (by decide) (by decide) (by decide))).mpr fun h => absurd h.2.1 (by decide)

/-- The value `2^64` is converted to the 32-bit number zero. -/
theorem toUint32_wraps :
    ∃ d : Dec8, d.Canonical ∧ d.val = 18446744073709551616 ∧ d.toUint32 .trunc = some 0 := by
  have hval : (Dec8.mk 195 [1844, 67440737, 9551616]).val = 18446744073709551616 := by
    norm_num [val, mag, isNeg, expn, cellMask]
  refine ⟨_, .inr ⟨⟨by decide, by decide, by decide, by unfold Proper; decide, by decide⟩,
    ⟨18446744073709551616, 0, by norm_num, by rw [hval]; norm_num⟩⟩, hval, by decide⟩

end Dec8

end Cantian.Dec
