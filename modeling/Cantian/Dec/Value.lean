import Cantian.Dec.Dec8
import Cantian.Lib.Significant

/-!
# The value of a decimal

`val` is the rational number that a decimal stands for. A normal decimal has a
first and a last cell that are not zero and cells below `10^8`; a canonical one
is zero, or normal with at most 65 significant digits.
-/

namespace Cantian.Dec

open Lib List Bool

/-! ## Cells and powers of ten -/

lemma cellMask_pos : 0 < cellMask := by decide

lemma cellMask_cast : (cellMask : ℚ) = 10 ^ 8 := by
  norm_num [cellMask]

lemma cellMask_cast_pos : (0 : ℚ) < cellMask := by
  rw [cellMask_cast]
  norm_num

lemma cellMask_zpow (e : ℤ) : (cellMask : ℚ) ^ e = 10 ^ (8 * e) := by
  rw [cellMask_cast, ← zpow_natCast, ← zpow_mul]
  rfl

lemma cellMask_zpow_pos (e : ℤ) : (0 : ℚ) < (cellMask : ℚ) ^ e := zpow_pos cellMask_cast_pos e

lemma cellMask_zpow_add_one (e : ℤ) : (cellMask : ℚ) ^ (e + 1) = (cellMask : ℚ) ^ e * cellMask :=
  zpow_add_one₀ cellMask_cast_pos.ne' e

lemma countU32Digits_spec {u} (h0 : 0 < u) (h1 : u < 10 ^ 10) :
    10 ^ (countU32Digits u - 1) ≤ u ∧ u < 10 ^ countU32Digits u ∧ 1 ≤ countU32Digits u := by
  unfold countU32Digits
  split_ifs <;> norm_num <;> omega

lemma countU32Digits_le {u} (h : u < cellMask) : countU32Digits u ≤ 8 := by
  unfold cellMask at h
  unfold countU32Digits
  split_ifs <;> omega

/-! ## The head -/

lemma convertExpn2_lt (e : ℤ) (neg : Bool) : convertExpn2 e neg < 256 := by
  unfold convertExpn2
  have := Int.emod_lt_of_pos (if neg then 62 - e else e + 193) (show (0 : ℤ) < 256 by norm_num)
  omega

namespace Dec8

variable {d x y : Dec8} {e : ℤ} {neg : Bool} {l : List ℕ}

lemma isNeg_convertExpn2 (h0 : -65 ≤ e) (h1 : e ≤ 62) :
    (⟨convertExpn2 e neg, l⟩ : Dec8).isNeg = neg := by
  unfold isNeg convertExpn2
  cases neg
  · simp only [false_eq_true, if_false, decide_eq_false_iff_not, not_lt]
    omega
  · simp only [if_true, decide_eq_true_eq]
    omega

lemma expn_convertExpn2 (h0 : -65 ≤ e) (h1 : e ≤ 62) :
    (⟨convertExpn2 e neg, l⟩ : Dec8).expn = e := by
  unfold expn
  rw [isNeg_convertExpn2 h0 h1]
  unfold convertExpn2
  cases neg
  · simp only [false_eq_true, if_false]
    omega
  · simp only [if_true]
    omega

lemma expn_range (h : d.head < 256) : -65 ≤ d.expn ∧ d.expn ≤ 62 := by
  unfold expn isNeg
  split_ifs with hneg
  · have := of_decide_eq_true hneg
    omega
  · have : ¬ d.head < 128 := fun h => hneg (decide_eq_true h)
    omega

/-! ## The value -/

/-- The absolute value of a decimal. -/
def mag (d : Dec8) : ℚ := fr cellMask d.cells * (cellMask : ℚ) ^ d.expn

/-- The value of a decimal. -/
def val (d : Dec8) : ℚ := if d.isNeg then -d.mag else d.mag

lemma mag_nonneg (d : Dec8) : 0 ≤ d.mag :=
  mul_nonneg (fr_nonneg _) (cellMask_zpow_pos _).le

lemma abs_val (d : Dec8) : |d.val| = d.mag := by
  unfold val
  split
  · rw [abs_neg, abs_of_nonneg d.mag_nonneg]
  · rw [abs_of_nonneg d.mag_nonneg]

lemma val_eq_zero : d.val = 0 ↔ d.mag = 0 := by
  rw [← abs_val, abs_eq_zero]

lemma cells_of_isZero (h : d.isZero = true) : d.cells = [] := by
  unfold Dec8.isZero at h
  rw [Bool.and_eq_true, List.isEmpty_iff] at h
  exact h.1

lemma val_of_isZero (h : d.isZero = true) : d.val = 0 := by
  rw [val_eq_zero, mag, cells_of_isZero h, fr_nil, zero_mul]

lemma val_zero : zero.val = 0 := val_of_isZero rfl

/-! ## Normal and canonical decimals -/

lemma fr_pos_of_getLastD {l} (h : 0 < l.getLastD 0) : 0 < fr cellMask l := by
  refine lt_of_le_of_ne (fr_nonneg l) fun hzero => ?_
  have hall := fr_eq_zero cellMask_pos hzero.symm
  rcases eq_nil_or_concat l with rfl | ⟨l', c, rfl⟩
  · cases h
  · rw [concat_eq_append, getLastD_concat] at h
    have := hall c (by simp)
    omega

/-- A value that is not zero, in the form in which the operations leave it. -/
structure Normal (d : Dec8) : Prop where
  head_lt : d.head < 256
  first : 0 < d.cells.headD 0
  last : 0 < d.cells.getLastD 0
  proper : Proper cellMask d.cells
  length_le : d.cells.length ≤ cellSize

/-- Zero, or a normal decimal with at most 65 significant digits. -/
def Canonical (d : Dec8) : Prop := d.isZero = true ∨ (d.Normal ∧ AtMostDigits 65 d.val)

lemma canonical_zero : zero.Canonical := .inl rfl

section
variable (hd : d.Normal)
include hd

lemma Normal.exists_cons : ∃ c cs, d.cells = c :: cs ∧ 0 < c := by
  have hfirst := hd.first
  cases hcells : d.cells with
  | nil =>
    rw [hcells] at hfirst
    cases hfirst
  | cons c cs =>
    rw [hcells] at hfirst
    exact ⟨c, cs, rfl, hfirst⟩

lemma Normal.isZero_eq : d.isZero = false := by
  obtain ⟨c, cs, hcells, -⟩ := hd.exists_cons
  unfold isZero
  rw [hcells]
  rfl

lemma Normal.one_le : 1 ≤ fr cellMask d.cells := by
  obtain ⟨c, cs, hcells, hc⟩ := hd.exists_cons
  rw [hcells]
  have : (1 : ℚ) ≤ c := by exact_mod_cast hc
  exact this.trans (le_fr_cons c cs)

lemma Normal.lt : fr cellMask d.cells < cellMask := fr_lt cellMask_pos hd.proper

lemma Normal.mag_pos : 0 < d.mag :=
  mul_pos (zero_lt_one.trans_le hd.one_le) (cellMask_zpow_pos _)

lemma Normal.val_ne : d.val ≠ 0 := fun h => hd.mag_pos.ne' (val_eq_zero.mp h)

lemma Normal.expn_range : -65 ≤ d.expn ∧ d.expn ≤ 62 := Dec8.expn_range hd.head_lt

lemma Normal.le_mag : (cellMask : ℚ) ^ d.expn ≤ d.mag :=
  le_mul_of_one_le_left (cellMask_zpow_pos _).le hd.one_le

lemma Normal.mag_lt : d.mag < (cellMask : ℚ) ^ (d.expn + 1) := by
  rw [cellMask_zpow_add_one, mul_comm]
  exact mul_lt_mul_of_pos_right hd.lt (cellMask_zpow_pos _)

lemma Normal.prec0_spec :
    (10 : ℚ) ^ (d.prec0 - 1) ≤ fr cellMask d.cells ∧ fr cellMask d.cells < 10 ^ d.prec0 ∧
      1 ≤ d.prec0 ∧ d.prec0 ≤ 8 := by
  obtain ⟨c, cs, hcells, hc⟩ := hd.exists_cons
  have hlt : c < cellMask := hd.proper c (hcells ▸ mem_cons_self)
  have hprec : d.prec0 = countU32Digits c := by
    unfold prec0
    rw [hcells]
    rfl
  obtain ⟨hlow, hup, hone⟩ := countU32Digits_spec hc (hlt.trans (by decide))
  rw [hprec, hcells]
  refine ⟨?_, ?_, hone, countU32Digits_le hlt⟩
  · have : ((10 ^ (countU32Digits c - 1) : ℕ) : ℚ) ≤ c := by exact_mod_cast hlow
    push_cast at this
    exact this.trans (le_fr_cons c cs)
  · have hproper : Proper cellMask cs := (hcells ▸ hd.proper : Proper cellMask (c :: cs)).tail
    have : ((c + 1 : ℕ) : ℚ) ≤ (10 ^ countU32Digits c : ℕ) := by exact_mod_cast hup
    push_cast at this
    exact (fr_cons_lt cellMask_pos hproper).trans_le this

lemma Normal.log_mag : Int.log 10 d.mag = d.sciExp := by
  obtain ⟨hlow, hup, hone, -⟩ := hd.prec0_spec
  have hpow := (cellMask_zpow_pos d.expn)
  have hsci : d.sciExp = ((d.prec0 - 1 : ℕ) : ℤ) + 8 * d.expn := by
    unfold sciExp
    omega
  refine log_eq ?_ ?_
  · rw [hsci, zpow_add₀ (by norm_num), zpow_natCast, ← cellMask_zpow]
    exact mul_le_mul_of_nonneg_right hlow hpow.le
  · rw [hsci, show ((d.prec0 - 1 : ℕ) : ℤ) + 8 * d.expn + 1 = (d.prec0 : ℤ) + 8 * d.expn by omega,
      zpow_add₀ (by norm_num), zpow_natCast, ← cellMask_zpow]
    exact mul_lt_mul_of_pos_right hup hpow

lemma Normal.le_mag_iff (k : ℤ) : 10 ^ k ≤ d.mag ↔ k ≤ d.sciExp := by
  rw [← hd.log_mag]
  have := Int.zpow_le_iff_le_log (b := 10) (x := k) (r := d.mag) (by norm_num) hd.mag_pos
  exact_mod_cast this

end

lemma Canonical.normal (h : d.Canonical) (hz : d.isZero = false) :
    d.Normal ∧ AtMostDigits 65 d.mag := by
  obtain ⟨hn, hdigits⟩ := h.resolve_left (by rw [hz]; decide)
  refine ⟨hn, ?_⟩
  unfold val at hdigits
  split at hdigits
  · simpa using hdigits.neg
  · exact hdigits

/-- Zero, or a scientific exponent that the type admits. -/
def InRange (d : Dec8) : Prop := d.isZero = true ∨ (-130 ≤ d.sciExp ∧ d.sciExp ≤ 127)

lemma headD_pos {l} (hl : Proper cellMask l) (h : 1 ≤ fr cellMask l) : 0 < l.headD 0 := by
  cases l with
  | nil =>
    norm_num at h
  | cons c =>
    by_contra hc
    obtain rfl : c = 0 := by simpa using hc
    have := fr_cons_lt (c := 0) cellMask_pos hl.tail
    rw [Nat.cast_zero] at this
    linarith

lemma rdropWhile_getLastD (l : List ℕ) (h : l.rdropWhile (· == 0) ≠ []) :
    0 < (l.rdropWhile (· == 0)).getLastD 0 := by
  have hlast := rdropWhile_last_not (· == 0) l h
  rw [getLastD_eq_getLast?, getLast?_eq_getLast_of_ne_nil h]
  exact pos_of_ne_zero (by simpa using hlast)

lemma rdropWhile_headD {l : List ℕ} (h : l.rdropWhile (· == 0) ≠ []) :
    (l.rdropWhile (· == 0)).headD 0 = l.headD 0 := by
  obtain ⟨t, ht⟩ := rdropWhile_prefix (· == 0) l
  cases hr : l.rdropWhile (· == 0) with
  | nil => exact absurd hr h
  | cons =>
    rw [hr] at ht
    rw [← ht]
    rfl

lemma trimZeros_eq (h : 1 ≤ fr cellMask d.cells) : d.cells.rdropWhile (· == 0) ≠ [] ∧
    d.trimZeros = { d with cells := d.cells.rdropWhile (· == 0) } := by
  have hne : d.cells.rdropWhile (· == 0) ≠ [] := by
    intro hnil
    rw [← fr_trim, hnil, fr_nil] at h
    norm_num at h
  exact ⟨hne, if_neg hne⟩

lemma trimZeros_normal (hhead : d.head < 256) (hl : Proper cellMask d.cells)
    (hlen : d.cells.length ≤ cellSize) (h : 1 ≤ fr cellMask d.cells) :
    d.trimZeros.Normal ∧ d.trimZeros.head = d.head ∧
      fr cellMask d.trimZeros.cells = fr cellMask d.cells := by
  obtain ⟨hne, heq⟩ := trimZeros_eq h
  rw [heq]
  refine ⟨⟨hhead, ?_, rdropWhile_getLastD _ hne, hl.trim, ?_⟩, rfl, fr_trim _⟩
  · rw [rdropWhile_headD hne]
    exact headD_pos hl h
  · exact ( rdropWhile_prefix _ _).length_le.trans hlen

lemma isNeg_of_head (h : x.head = y.head) : x.isNeg = y.isNeg := by
  unfold isNeg
  rw [h]

lemma expn_of_head (h : x.head = y.head) : x.expn = y.expn := by
  unfold expn
  rw [isNeg_of_head h, h]

/-- A value that is not zero, in a form that the operations take: the last cell
may be `10^8`, and it may be zero. -/
structure Soft (d : Dec8) : Prop where
  head_lt : d.head < 256
  first : 0 < d.cells.headD 0
  loose : Loose cellMask d.cells
  length_le : d.cells.length ≤ cellSize

lemma Normal.soft (hd : d.Normal) : d.Soft :=
  ⟨hd.head_lt, hd.first, hd.proper.loose, hd.length_le⟩

lemma one_le_fr {l} (h : 0 < l.headD 0) : 1 ≤ fr cellMask l := by
  cases l with
  | nil => cases h
  | cons c cs =>
    have : (1 : ℚ) ≤ c := by exact_mod_cast h
    exact this.trans (le_fr_cons c cs)

lemma Soft.one_le (hd : d.Soft) : 1 ≤ fr cellMask d.cells := one_le_fr hd.first

lemma Soft.le (hd : d.Soft) : fr cellMask d.cells ≤ cellMask :=
  fr_le cellMask_pos hd.loose

lemma Soft.isZero_eq (hd : d.Soft) : d.isZero = false := by
  have hfirst := hd.first
  unfold isZero
  cases hcells : d.cells with
  | nil =>
    rw [hcells] at hfirst
    cases hfirst
  | cons => rfl

lemma Soft.expn_range (hd : d.Soft) : -65 ≤ d.expn ∧ d.expn ≤ 62 := Dec8.expn_range hd.head_lt

end Dec8

end Cantian.Dec
