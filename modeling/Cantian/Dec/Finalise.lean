import Cantian.Dec.Value

/-!
# The digits of a decimal, and rounding to a number of them

`cm_dec8_calc_prec` counts the significant digits, and `cm_dec8_finalise`
rounds to a number of them with halves up. A value below the smallest exponent
becomes zero, and one whose rounded value is too large is an overflow.
-/

namespace Cantian.Dec

open Lib List Int

/-! ## Counting digits -/

lemma tailZeros_spec {n u} (h0 : 0 < u) (h1 : u < 10 ^ n) :
    10 ^ tailZeros n u ∣ u ∧ ¬ 10 ∣ u / 10 ^ tailZeros n u := by
  induction n generalizing u with
  | zero => omega
  | succ n ih =>
    rw [tailZeros]
    split_ifs with hu
    · obtain ⟨v, rfl⟩ := Nat.dvd_of_mod_eq_zero hu
      rw [Nat.mul_div_cancel_left v (by norm_num)]
      obtain ⟨hdvd, hnot⟩ := ih (u := v) (by omega) (by rw [pow_succ] at h1; omega)
      refine ⟨?_, ?_⟩
      · rw [pow_succ, mul_comm]
        exact mul_dvd_mul_left 10 hdvd
      · rw [pow_succ, mul_comm _ 10, Nat.mul_div_mul_left _ _ (by norm_num)]
        exact hnot
    · refine ⟨one_dvd u, ?_⟩
      omega

lemma tailZeros_lt {u} (h0 : 0 < u) (h1 : u < cellMask) : tailZeros 10 u < 8 := by
  obtain ⟨hdvd, -⟩ := tailZeros_spec (n := 10) h0 (h1.trans (by decide))
  have hle := (Nat.le_of_dvd h0 hdvd).trans_lt h1
  by_contra hz
  have : 10 ^ 8 ≤ 10 ^ tailZeros 10 u := Nat.pow_le_pow_right (by norm_num) (by omega)
  unfold cellMask at hle
  omega

namespace Dec8

variable {d : Dec8} {p : ℕ}

lemma rdropWhile_concat {l u} (hu : 0 < u) : (l ++ [u]).rdropWhile (· == 0) = l ++ [u] :=
  rdropWhile_concat_neg _ _ _ (by simpa using hu.ne')

/-- A normal decimal as a mantissa that does not end in zero, with as many
digits as `calcPrec` says. -/
lemma Normal.exists_mantissa (hd : d.Normal) :
    ∃ (a : ℕ) (k : ℤ), fr cellMask d.cells = a * 10 ^ k ∧ ¬ 10 ∣ a ∧
      10 ^ (d.calcPrec - 1) ≤ a ∧ a < 10 ^ d.calcPrec ∧ 1 ≤ d.calcPrec := by
  obtain ⟨hlow, hup, hone, -⟩ := hd.prec0_spec
  obtain ⟨c, cs, hcells, hc⟩ := hd.exists_cons
  have hproper : Proper cellMask (c :: cs) := hcells ▸ hd.proper
  have hlast : 0 < (c :: cs).getLastD 0 := hcells ▸ hd.last
  have hclt : c < cellMask := hproper c mem_cons_self
  have hprec : d.prec0 = countU32Digits c := by
    unfold prec0
    rw [hcells]
    rfl
  rcases eq_nil_or_concat cs with rfl | ⟨ds, u, rfl⟩
  · -- one cell: its own zeros are not counted
    obtain ⟨hdvd, hnot⟩ := tailZeros_spec (n := 10) hc (hclt.trans (by decide))
    have hcalc : d.calcPrec = countU32Digits (c / 10 ^ tailZeros 10 c) := by
      unfold calcPrec
      rw [hcells]
      rfl
    have hpos : 0 < c / 10 ^ tailZeros 10 c := Nat.div_pos (Nat.le_of_dvd hc hdvd) (by positivity)
    have hsmall : c / 10 ^ tailZeros 10 c < 10 ^ 10 :=
      (Nat.div_le_self _ _).trans_lt (hclt.trans (by decide))
    obtain ⟨h1, h2, h3⟩ := countU32Digits_spec hpos hsmall
    refine ⟨c / 10 ^ tailZeros 10 c, tailZeros 10 c, ?_, hnot, hcalc ▸ h1, hcalc ▸ h2, hcalc ▸ h3⟩
    rw [hcells, fr_cons, fr_nil, zero_div, add_zero, zpow_natCast]
    exact_mod_cast (Nat.div_mul_cancel hdvd).symm
  · -- the last cell ends where the digits end
    rw [concat_eq_append] at hcells hproper hlast
    have hu : 0 < u := by
      rw [← cons_append, getLastD_concat] at hlast
      exact hlast
    have hult : u < cellMask := hproper u (by simp)
    have hz := tailZeros_lt hu hult
    obtain ⟨hdvd, hnot⟩ := tailZeros_spec (n := 10) hu (hult.trans (by decide))
    obtain ⟨v, hv⟩ := hdvd
    set z := tailZeros 10 u with hzdef
    have hcalc : d.calcPrec = (ds.length + 1) * 8 - z + d.prec0 := by
      unfold calcPrec
      rw [hcells, hprec]
      simp only [rdropWhile_concat hu, getLast?_append, getLast?_singleton,
        Option.some_or, length_append, length_singleton]
      rfl
    obtain ⟨m, hm⟩ := exists_nat_fr (l := c :: ds) (k := ds.length) cellMask_pos
      (by rw [length_cons])
    have hpow : (cellMask : ℕ) = 10 ^ z * 10 ^ (8 - z) := by
      rw [← pow_add, show z + (8 - z) = 8 by omega]
      rfl
    have hfr : fr cellMask d.cells =
        ((m * 10 ^ (8 - z) + v : ℕ) : ℚ) * 10 ^ ((z : ℤ) - 8 * (ds.length + 1 : ℕ)) := by
      have hB : (cellMask : ℚ) ^ (ds.length + 1) = 10 ^ ((8 : ℤ) * (ds.length + 1 : ℕ)) := by
        rw [← cellMask_zpow, zpow_natCast]
      have hB' : (cellMask : ℚ) ≠ 0 := cellMask_cast_pos.ne'
      have hsum : fr cellMask d.cells * cellMask ^ (ds.length + 1) = m * cellMask + u := by
        rw [hcells, ← cons_append, fr_append, length_cons, add_mul, pow_succ, ← mul_assoc,
          hm, fr_cons, fr_nil]
        field_simp
        ring
      have hnat : (m * cellMask + u : ℕ) = (m * 10 ^ (8 - z) + v) * 10 ^ z := by
        rw [hv, hpow]
        ring
      have hnat' : (m : ℚ) * cellMask + u = ((m * 10 ^ (8 - z) + v : ℕ) : ℚ) * 10 ^ z := by
        exact_mod_cast hnat
      rw [zpow_sub₀ (by norm_num), ← hB, zpow_natCast, ← mul_div_assoc, ← hnat', ← hsum]
      field_simp
    have hnot' : ¬ 10 ∣ m * 10 ^ (8 - z) + v := by
      have hdiv : u / 10 ^ z = v := by
        rw [hv]
        exact Nat.mul_div_cancel_left v (by positivity)
      rw [hdiv] at hnot
      have htens : 10 ∣ m * 10 ^ (8 - z) :=
        (dvd_pow_self 10 (by omega : 8 - z ≠ 0)).trans (dvd_mul_left _ _)
      exact fun h => hnot ((Nat.dvd_add_right htens).mp h)
    have hscale : ∀ j : ℕ, (10 : ℚ) ^ ((j + (ds.length + 1) * 8 - z : ℕ)) =
        10 ^ j / 10 ^ ((z : ℤ) - 8 * (ds.length + 1 : ℕ)) := by
      intro j
      rw [← zpow_natCast, ← zpow_natCast, ← zpow_sub₀ (by norm_num)]
      congr 1
      omega
    refine ⟨m * 10 ^ (8 - z) + v, _, hfr, hnot', ?_, ?_, by omega⟩
    · have hle : (10 : ℚ) ^ (d.calcPrec - 1) ≤ ((m * 10 ^ (8 - z) + v : ℕ) : ℚ) := by
        rw [hcalc, show (ds.length + 1) * 8 - z + d.prec0 - 1 =
          (d.prec0 - 1) + (ds.length + 1) * 8 - z by omega, hscale,
          div_le_iff₀ (zpow_ten_pos _), ← hfr]
        exact hlow
      exact_mod_cast hle
    · have hlt : ((m * 10 ^ (8 - z) + v : ℕ) : ℚ) < (10 : ℚ) ^ d.calcPrec := by
        rw [hcalc, show (ds.length + 1) * 8 - z + d.prec0 =
          d.prec0 + (ds.length + 1) * 8 - z by omega, hscale,
          lt_div_iff₀ (zpow_ten_pos _), ← hfr]
        exact hup
      exact_mod_cast hlt

lemma Normal.calcPrec_le_iff (hd : d.Normal) : d.calcPrec ≤ p ↔ AtMostDigits p d.mag := by
  obtain ⟨a, k, hfr, hnot, hlow, hup, hone⟩ := hd.exists_mantissa
  have hmag : d.mag = a * 10 ^ (k + 8 * d.expn) := by
    unfold mag
    rw [hfr, cellMask_zpow, mul_assoc, ← zpow_add₀ (by norm_num)]
  rw [hmag, atMostDigits_iff hnot]
  constructor
  · intro hle
    exact hup.trans_le (Nat.pow_le_pow_right (by norm_num) hle)
  · intro hlt
    have := (Nat.pow_lt_pow_iff_right (by norm_num : 1 < 10)).mp (hlow.trans_lt hlt)
    omega

/-! ## Rounding -/

lemma Normal.atMostDigits_of_length (hd : d.Normal) (h : 8 * (d.cells.length - 1) + d.prec0 ≤ p) :
    AtMostDigits p d.mag := by
  obtain ⟨-, hup, -, -⟩ := hd.prec0_spec
  obtain ⟨m, hm⟩ := exists_nat_fr (l := d.cells) (k := d.cells.length - 1) cellMask_pos (by omega)
  have hB : (cellMask : ℚ) ^ (d.cells.length - 1) = 10 ^ (8 * (d.cells.length - 1)) := by
    rw [cellMask_cast, ← pow_mul]
  have hlt : m < 10 ^ p := by
    have hlt' : (m : ℚ) < 10 ^ (8 * (d.cells.length - 1) + d.prec0) := by
      rw [← hm, hB, pow_add, mul_comm]
      exact mul_lt_mul_of_pos_left hup (by positivity)
    have : m < 10 ^ (8 * (d.cells.length - 1) + d.prec0) := by exact_mod_cast hlt'
    exact this.trans_le (Nat.pow_le_pow_right (by norm_num) h)
  refine ⟨m, 8 * d.expn - (8 * (d.cells.length - 1) : ℕ), ?_, ?_⟩
  · exact_mod_cast hlt
  · unfold mag
    rw [zpow_sub₀ (by norm_num), zpow_natCast, ← hB, ← cellMask_zpow]
    push_cast
    rw [← hm]
    have := cellMask_cast_pos.ne'
    field_simp

lemma Normal.length_pos (hd : d.Normal) : 0 < d.cells.length := by
  obtain ⟨c, cs, hcells, -⟩ := hd.exists_cons
  rw [hcells]
  exact Nat.succ_pos _

lemma Normal.place_lt (hd : d.Normal) (hmore : ¬ AtMostDigits p d.mag) :
    (p + 8 - d.prec0) / 8 < d.cells.length := by
  obtain ⟨-, -, hone, height⟩ := hd.prec0_spec
  have := hd.length_pos
  by_contra hge
  exact hmore (hd.atMostDigits_of_length (by omega))

lemma fiveTenPower_succ (k : ℕ) : fiveTenPower (k + 1) = 5 * 10 ^ k := rfl

lemma fiveTenPower_le {k} (hk : k ≤ 8) : fiveTenPower k ≤ cellMask := by
  cases k with
  | zero => exact Nat.zero_le _
  | succ k =>
    rw [fiveTenPower_succ]
    have : 10 ^ k ≤ 10 ^ 7 := Nat.pow_le_pow_right (by norm_num) (by omega)
    unfold cellMask
    omega

lemma oneTenPower_dvd {k} (hk : k ≤ 8) : oneTenPower k ∣ cellMask :=
  pow_dvd_pow 10 hk

/-- A cell and a place in it are a place among the digits. -/
lemma cell_place {c k : ℕ} {j : ℤ} (hj : j = 8 * c - k) :
    (cellMask : ℚ) ^ c / oneTenPower k = 10 ^ j := by
  unfold oneTenPower
  rw [hj, zpow_sub₀ (by norm_num), zpow_natCast, cellMask_cast, ← pow_mul, ← zpow_natCast]
  push_cast
  rfl

/-- The cells of `cm_dec8_finalise`, as a number. -/
lemma Normal.roundCells_digits (hd : d.Normal) (hmore : ¬ AtMostDigits p d.mag) :
    (((roundCells cellMask (oneTenPower (8 - (p + 8 - d.prec0) % 8))
        (fiveTenPower (8 - (p + 8 - d.prec0) % 8)) ((p + 8 - d.prec0) / 8) d.cells).1 : ℚ) *
          cellMask +
      fr cellMask (roundCells cellMask (oneTenPower (8 - (p + 8 - d.prec0) % 8))
        (fiveTenPower (8 - (p + 8 - d.prec0) % 8)) ((p + 8 - d.prec0) / 8) d.cells).2) *
      (cellMask : ℚ) ^ d.expn = roundSig p d.mag := by
  obtain ⟨-, -, hone, height⟩ := hd.prec0_spec
  have hlen := hd.place_lt hmore
  set c := (p + 8 - d.prec0) / 8
  set k := 8 - (p + 8 - d.prec0) % 8 with hk
  have hk1 : 1 ≤ k := by omega
  have hval := roundCells_value (v := fiveTenPower k) cellMask_pos
    (oneTenPower_dvd (k := k) (by omega)) hd.proper hlen
  have hw : (0 : ℚ) < oneTenPower k := by
    unfold oneTenPower
    positivity
  have hB := cellMask_cast_pos
  -- the unit of the place is that of the digit `p`
  have hplace : (cellMask : ℚ) ^ c / oneTenPower k = 10 ^ ((p : ℤ) - d.prec0) :=
    cell_place (by omega)
  have hunit : unitAt p d.mag = 10 ^ ((d.prec0 : ℤ) - p) * (cellMask : ℚ) ^ d.expn := by
    unfold unitAt
    rw [abs_of_pos hd.mag_pos, hd.log_mag, cellMask_zpow, ← zpow_add₀ (by norm_num)]
    congr 1
    unfold sciExp
    ring
  have hinv : (10 : ℚ) ^ ((d.prec0 : ℤ) - p) = oneTenPower k / cellMask ^ c := by
    rw [← inv_div, hplace, ← zpow_neg]
    congr 1
    ring
  have hratio : d.mag / unitAt p d.mag = fr cellMask d.cells * cellMask ^ c / oneTenPower k := by
    unfold mag at hunit ⊢
    rw [hunit, hinv]
    have := (cellMask_zpow_pos d.expn).ne'
    field_simp
  have hhalf : (fiveTenPower k : ℚ) / oneTenPower k = 1 / 2 := by
    obtain ⟨j, hj⟩ : ∃ j, k = j + 1 := ⟨k - 1, by omega⟩
    rw [hj, fiveTenPower_succ, oneTenPower]
    push_cast
    rw [pow_succ]
    field_simp
    norm_num
  rw [add_div, hhalf, ← hratio] at hval
  rw [roundSig, hunit, ← hunit, hunit, hinv, ← mul_assoc]
  congr 1
  rw [← mul_div_assoc, eq_div_iff (by positivity)]
  rw [hunit, hinv] at hval
  exact hval

/-- The value is rounded to `p` digits. -/
structure Rounded (d : Dec8) (p : ℕ) (r : Dec8) : Prop where
  normal : r.Normal
  isNeg : r.isNeg = d.isNeg
  mag : r.mag = roundSig p d.mag

lemma Normal.rounded_self (hd : d.Normal) (h : AtMostDigits p d.mag) : Rounded d p d :=
  ⟨hd, rfl, (h.roundSig_eq hd.mag_pos).symm⟩

lemma fr_eq_zero_of_all {l} (h : ∀ c ∈ l, c = 0) : fr cellMask l = 0 := by
  rw [eq_replicate_of_mem h, fr_replicate]

/-- A carry out of the first cell leaves a one and zeros. -/
lemma rebuild_one (hhead : d.head < 256) (he : d.expn < 62) (hzero : fr cellMask d.cells = 0) :
    (d.rebuild 1).trimZeros.Normal ∧ (d.rebuild 1).trimZeros.isNeg = d.isNeg ∧
      (d.rebuild 1).trimZeros.mag = cellMask * (cellMask : ℚ) ^ d.expn := by
  have hlow := (expn_range hhead).1
  have hall := fr_eq_zero cellMask_pos hzero
  have hcells : (d.rebuild 1).cells = 1 :: d.cells.take 8 := rfl
  have hfr : fr cellMask (d.rebuild 1).cells = 1 := by
    rw [hcells, fr_cons, fr_eq_zero_of_all fun c hc => hall c (mem_of_mem_take hc)]
    norm_num
  obtain ⟨hnormal, hh, hfr'⟩ := trimZeros_normal (d := d.rebuild 1) (convertExpn2_lt _ _)
    (fun c hc => by
      rcases mem_cons.mp hc with rfl | hc
      · decide
      · rw [hall c (mem_of_mem_take hc)]
        exact cellMask_pos)
    (by rw [hcells, length_cons, length_take]; unfold cellSize; omega)
    (by rw [hfr])
  refine ⟨hnormal, ?_, ?_⟩
  · rw [isNeg_of_head hh]
    exact isNeg_convertExpn2 (by omega) (by omega)
  · unfold mag
    rw [hfr', hfr, expn_of_head hh]
    show 1 * (cellMask : ℚ) ^ (Dec8.mk (convertExpn2 (d.expn + 1) d.isNeg) _).expn = _
    rw [expn_convertExpn2 (by omega) (by omega), cellMask_zpow_add_one]
    ring

/-- What `cm_dec8_finalise` does with a value that has too many digits, after
the cells are rounded. -/
lemma Normal.rounded_cells (hd : d.Normal) (hp : 1 ≤ p) (hmore : ¬ AtMostDigits p d.mag) {r}
    (hr : r = roundCells cellMask (oneTenPower (8 - (p + 8 - d.prec0) % 8))
        (fiveTenPower (8 - (p + 8 - d.prec0) % 8)) ((p + 8 - d.prec0) / 8) d.cells) :
    (r.1 = 0 → Rounded d p (Dec8.trimZeros { d with cells := r.2 }) ∧
        roundSig p d.mag < (cellMask : ℚ) ^ (d.expn + 1)) ∧
      (r.1 ≠ 0 → roundSig p d.mag = (cellMask : ℚ) ^ (d.expn + 1) ∧ d.prec0 = 8 ∧
        (d.expn < 62 → Rounded d p ((Dec8.rebuild { d with cells := r.2 } 1).trimZeros))) := by
  have hval := hd.roundCells_digits hmore
  have hlen := hd.place_lt hmore
  have hproper : Proper cellMask r.2 := by
    rw [hr]
    exact hd.proper.roundCells cellMask_pos (fiveTenPower_le (by omega))
  have hlength : r.2.length ≤ cellSize := by
    rw [hr, length_roundCells hlen]
    have := hd.length_le
    omega
  have hle : r.1 ≤ 1 := by
    rw [hr]
    refine roundCells_le_one fun h => ?_
    rw [h] at hlen
    exact Nat.not_lt_zero _ hlen
  rw [← hr] at hval
  have hpow := cellMask_zpow_pos d.expn
  obtain ⟨hlow, hup, hone, height⟩ := hd.prec0_spec
  have hlog := hd.log_mag
  have hfloor := zpow_log_le_roundSig hd.mag_pos hp
  have hceil := roundSig_le (p := p) hd.mag_pos
  constructor
  · intro hzero
    rw [hzero, Nat.cast_zero, zero_mul, zero_add] at hval
    have hge : 1 ≤ fr cellMask r.2 := by
      have : (cellMask : ℚ) ^ d.expn ≤ fr cellMask r.2 * (cellMask : ℚ) ^ d.expn := by
        rw [hval]
        refine le_trans ?_ hfloor
        rw [hlog, cellMask_zpow]
        refine zpow_le_zpow_right₀ (by norm_num) ?_
        unfold sciExp
        omega
      exact (le_mul_iff_one_le_left hpow).mp this
    obtain ⟨hnormal, hh, hfr⟩ := trimZeros_normal (d := { d with cells := r.2 }) hd.head_lt hproper
      hlength hge
    refine ⟨⟨hnormal, isNeg_of_head hh, ?_⟩, ?_⟩
    · unfold mag
      rw [hfr, expn_of_head hh]
      exact hval
    · rw [← hval, cellMask_zpow_add_one, mul_comm]
      exact mul_lt_mul_of_pos_left (fr_lt cellMask_pos hproper) hpow
  · intro hcarry
    obtain hone' : r.1 = 1 := by omega
    rw [hone', Nat.cast_one, one_mul] at hval
    -- the rounded cells are at most one unit above them
    have hzero : fr cellMask r.2 = 0 := by
      have hnonneg := fr_nonneg (B := cellMask) r.2
      have hle' : ((cellMask : ℚ) + fr cellMask r.2) * (cellMask : ℚ) ^ d.expn ≤
          cellMask * (cellMask : ℚ) ^ d.expn := by
        rw [hval]
        refine hceil.trans ?_
        rw [hlog, mul_comm, ← cellMask_zpow_add_one, cellMask_zpow]
        refine zpow_le_zpow_right₀ (by norm_num) ?_
        unfold sciExp
        omega
      have := le_of_mul_le_mul_right hle' hpow
      linarith
    rw [hzero, add_zero, mul_comm, ← cellMask_zpow_add_one] at hval
    refine ⟨hval.symm, ?_, fun he => ?_⟩
    · by_contra hne
      rw [← hval, hlog, cellMask_zpow] at hceil
      have := (zpow_le_zpow_iff_right₀ (by norm_num : (1 : ℚ) < 10)).mp hceil
      unfold sciExp at this
      omega
    · obtain ⟨hnormal, hneg, hmag⟩ := rebuild_one (d := { d with cells := r.2 }) hd.head_lt he hzero
      refine ⟨hnormal, hneg, ?_⟩
      rw [hmag, ← hval, mul_comm, ← cellMask_zpow_add_one]
      rfl

lemma Normal.finalise_spec (hd : d.Normal) (hp : 1 ≤ p) :
    (d.mag < 10 ^ (-130 : ℤ) ∧ d.finalise p false = some zero) ∨
    (10 ^ (128 : ℤ) ≤ roundSig p d.mag ∧ d.finalise p false = none) ∨
    ∃ r, d.finalise p false = some r ∧ Rounded d p r := by
  have hlog := hd.log_mag
  have hfloor := zpow_log_le_roundSig hd.mag_pos hp
  obtain ⟨-, -, hone, height⟩ := hd.prec0_spec
  unfold finalise
  by_cases hunder : d.sciExp < -130
  · rw [if_pos hunder]
    refine .inl ⟨?_, rfl⟩
    by_contra hge
    have := (hd.le_mag_iff (-130)).mp (not_lt.mp hge)
    omega
  rw [if_neg hunder]
  simp only [Bool.not_false, true_and, Bool.false_eq_true, false_and, if_false]
  by_cases hover : 127 < d.sciExp
  · rw [if_pos hover]
    refine .inr (.inl ⟨le_trans ?_ hfloor, rfl⟩)
    exact zpow_le_zpow_right₀ (by norm_num) (by omega)
  rw [if_neg hover]
  by_cases hlen : d.cells.length ≤ p / 8
  · have hpos := hd.length_pos
    have h : AtMostDigits p d.mag := hd.atMostDigits_of_length (by omega)
    rw [if_pos hlen]
    exact .inr (.inr ⟨d, rfl, hd.rounded_self h⟩)
  rw [if_neg hlen]
  by_cases hprec : d.calcPrec ≤ p
  · have h := hd.calcPrec_le_iff.mp hprec
    rw [if_pos hprec]
    exact .inr (.inr ⟨d, rfl, hd.rounded_self h⟩)
  have hmore : ¬ AtMostDigits p d.mag := fun h => hprec (hd.calcPrec_le_iff.mpr h)
  obtain ⟨hcarry0, hcarry1⟩ := hd.rounded_cells hp hmore rfl
  have hexp : d.expn ≤ 15 := by
    unfold sciExp at hover
    omega
  split_ifs with hzero hcheck
  · exact .inr (.inr ⟨_, rfl, (hcarry0 hzero).1⟩)
  · obtain ⟨heq, hprec0, -⟩ := hcarry1 hzero
    refine .inr (.inl ⟨?_, rfl⟩)
    rw [heq, cellMask_zpow]
    refine zpow_le_zpow_right₀ (by norm_num) ?_
    unfold sciExp at hcheck
    omega
  · obtain ⟨heq, hprec0, hr⟩ := hcarry1 hzero
    exact .inr (.inr ⟨_, rfl, hr (by omega)⟩)

variable {Q : ℚ} {E : ℤ}

section
variable (hQ : (cellMask : ℚ) ^ E ≤ Q)
include hQ

lemma nine_cells : 8 * E ≤ Int.log 10 Q ∧
      Int.log 10 (truncTo ((cellMask : ℚ) ^ (E - 8)) Q) = Int.log 10 Q ∧
      0 < truncTo ((cellMask : ℚ) ^ (E - 8)) Q := by
  have hg := cellMask_zpow_pos (E - 8)
  have hQ0 : 0 < Q := (cellMask_zpow_pos E).trans_le hQ
  have hlog : 8 * E ≤ log 10 Q := by
    rw [cellMask_zpow] at hQ
    exact (zpow_le_iff_le_log (by norm_num) hQ0).mp (by exact_mod_cast hQ)
  obtain ⟨n, hn⟩ : ∃ n : ℕ, log 10 Q = 8 * (E - 8) + n :=
    ⟨(log 10 Q - 8 * (E - 8)).toNat, by omega⟩
  have hmul : (10 : ℚ) ^ log 10 Q = ((10 ^ n : ℤ) : ℚ) * (cellMask : ℚ) ^ (E - 8) := by
    rw [hn, zpow_add₀ (by norm_num), cellMask_zpow, zpow_natCast, mul_comm]
    push_cast
    rfl
  have hlow : (10 : ℚ) ^ log 10 Q ≤ truncTo ((cellMask : ℚ) ^ (E - 8)) Q := by
    rw [hmul]
    exact le_truncTo hg (hmul ▸ zpow_log_le hQ0)
  exact ⟨hlog, log_eq hlow ((truncTo_le hg Q).trans_lt (lt_zpow_log Q)),
   (zpow_ten_pos _).trans_le hlow⟩

/-- A number that is rounded to 65 digits after it was cut to nine cells is
less than one unit of its 65th digit away. -/
lemma roundSig_truncTo_close :
    |roundSig 65 (truncTo ((cellMask : ℚ) ^ (E - 8)) Q) - Q| < unitAt 65 Q := by
  obtain ⟨hlog, hsame, hpos⟩ := nine_cells hQ
  have hg := cellMask_zpow_pos (E - 8)
  have hQ0 : 0 < Q := (cellMask_zpow_pos E).trans_le hQ
  have hle := truncTo_le hg Q
  have hlt := (sub_truncTo_lt hg Q).trans_eq (cellMask_zpow (E - 8))
  have hunit : unitAt 65 (truncTo ((cellMask : ℚ) ^ (E - 8)) Q) = unitAt 65 Q := by
    unfold unitAt
    rw [abs_of_pos hpos, abs_of_pos hQ0, hsame]
  have hu : unitAt 65 Q = 10 ^ (log 10 Q - 64) := by
    unfold unitAt
    rw [abs_of_pos hQ0]
    congr 1
    ring
  have hu0 : 0 < unitAt 65 Q := unitAt_pos
  rcases hlog.eq_or_lt with heq | hgt
  · -- nine cells have no more than 65 digits
    have hmul : truncTo ((cellMask : ℚ) ^ (E - 8)) Q =
       (⌊Q / (cellMask : ℚ) ^ (E - 8)⌋ : ℤ) * unitAt 65 (truncTo ((cellMask : ℚ) ^ (E - 8)) Q) := by
      rw [hunit, hu, ← heq, show 8 * E - 64 = 8 * (E - 8) by ring, ← cellMask_zpow]
      rfl
    rw [roundSig_of_mul_unitAt hmul, abs_sub_comm, abs_of_nonneg (by linarith), hu, ← heq]
    rwa [show 8 * E - 64 = 8 * (E - 8) by ring]
  · have hround := abs_roundSig_sub_le (p := 65) (q := truncTo ((cellMask : ℚ) ^ (E - 8)) Q)
    have htenth : (10 : ℚ) ^ (8 * (E - 8)) ≤ unitAt 65 Q / 10 := by
      rw [hu, le_div_iff₀ (by norm_num), ← zpow_add_one₀ (by norm_num)]
      exact zpow_le_zpow_right₀ (by norm_num) (by omega)
    have hsplit := abs_sub_le (roundSig 65 (truncTo ((cellMask : ℚ) ^ (E - 8)) Q))
     (truncTo ((cellMask : ℚ) ^ (E - 8)) Q) Q
    rw [abs_sub_comm (truncTo _ _) Q, abs_of_nonneg (by linarith : 0 ≤ Q - truncTo _ Q)] at hsplit
    linarith

/-- A number with at most 65 digits has all of them in nine cells. -/
lemma truncTo_eq_of_atMostDigits (h : AtMostDigits 65 Q) :
    truncTo ((cellMask : ℚ) ^ (E - 8)) Q = Q := by
  obtain ⟨hlog, -, -⟩ := nine_cells hQ
  have hQ0 : 0 < Q := (cellMask_zpow_pos E).trans_le hQ
  obtain ⟨n, hn⟩ := h.exists_mul_unitAt hQ0
  obtain ⟨k, hk⟩ : ∃ k : ℕ, log 10 Q - (65 : ℕ) + 1 = 8 * (E - 8) + k :=
    ⟨(log 10 Q - (65 : ℕ) + 1 - 8 * (E - 8)).toNat, by push_cast; omega⟩
  refine truncTo_of_mul (n := n * 10 ^ k) (cellMask_zpow_pos _) ?_
  nth_rewrite 1 [hn]
  unfold unitAt
  rw [abs_of_pos hQ0, hk, zpow_add₀ (by norm_num), zpow_natCast, cellMask_zpow]
  push_cast
  ring

end

/-- What an operation returns whose exact result has the absolute value `Q` and
the sign `neg`. -/
inductive Outcome (neg : Bool) (Q : ℚ) : Option Dec8 → Prop
  | overflow (h : 10 ^ (128 : ℤ) ≤ roundSig 65 Q) : Outcome neg Q none
  | underflow (h : Q < 10 ^ (-130 : ℤ)) : Outcome neg Q (some zero)
  | rounded {r : Dec8} (normal : r.Normal) (digits : AtMostDigits 65 r.val)
      (isNeg : r.isNeg = neg) (close : |r.mag - Q| < unitAt 65 Q)
      (exact : AtMostDigits 65 Q → r.mag = Q) : Outcome neg Q (some r)

lemma atMostDigits_val {r : Dec8} (h : AtMostDigits p r.mag) : AtMostDigits p r.val := by
  unfold val
  split
  · exact h.neg
  · exact h

lemma Normal.finalise_outcome (hd : d.Normal)
    (hmag : d.mag = truncTo ((cellMask : ℚ) ^ (d.expn - 8)) Q) (hQ : (cellMask : ℚ) ^ d.expn ≤ Q) :
    Outcome d.isNeg Q (d.finalise 65 false) := by
  have hle : d.mag ≤ Q := hmag ▸ truncTo_le (cellMask_zpow_pos _) Q
  obtain ⟨-, hsame, -⟩ := nine_cells hQ
  rw [← hmag] at hsame
  rcases hd.finalise_spec (p := 65) (by norm_num) with
    ⟨hsmall, heq⟩ | ⟨hlarge, heq⟩ | ⟨r, heq, hr⟩
  · rw [heq]
    refine .underflow ?_
    by_contra hge
    have hQ0 : 0 < Q := hd.mag_pos.trans_le hle
    have hlog : -130 ≤ log 10 Q :=
      (zpow_le_iff_le_log (by norm_num) hQ0).mp (by exact_mod_cast not_lt.mp hge)
    rw [← hsame, hd.log_mag] at hlog
    have := (hd.le_mag_iff (-130)).mpr hlog
    linarith
  · rw [heq]
    exact .overflow (hlarge.trans (roundSig_le_roundSig hd.mag_pos hle hsame))
  · rw [heq]
    refine .rounded hr.normal (atMostDigits_val ?_) hr.isNeg ?_ fun h => ?_
    · rw [hr.mag]
      exact atMostDigits_roundSig hd.mag_pos (by norm_num)
    · rw [hr.mag, hmag]
      exact roundSig_truncTo_close hQ
    · have hQ0 : 0 < Q := hd.mag_pos.trans_le hle
      rw [hr.mag, hmag, truncTo_eq_of_atMostDigits hQ h]
      exact h.roundSig_eq hQ0

lemma canonical_single {head c : ℕ} (hhead : head < 256) (h0 : 0 < c) (h1 : c < cellMask) :
    (Dec8.mk head [c]).Canonical := by
  have hn : (Dec8.mk head [c]).Normal := by
    refine ⟨hhead, h0, h0, fun x hx => ?_, Nat.le_add_left 1 8⟩
    rw [mem_singleton.mp hx]
    exact h1
  have hprec := hn.prec0_spec.2.2.2
  refine .inr ⟨hn, atMostDigits_val (hn.atMostDigits_of_length ?_)⟩
  rw [length_singleton]
  omega

section
variable {r : Dec8} {v : ℚ} {neg : Bool}

lemma signed_close (hneg : r.isNeg = neg) (hv : v = if neg then -Q else Q)
    (h : |r.mag - Q| < unitAt 65 Q) : |r.val - v| < unitAt 65 v := by
  have hunit : unitAt 65 v = unitAt 65 Q := by
    unfold unitAt
    rw [hv]
    split
    · rw [abs_neg]
    · rfl
  rw [hunit]
  unfold val
  rw [hneg, hv]
  split
  · rwa [neg_sub_neg, abs_sub_comm]
  · exact h

lemma signed_exact (hneg : r.isNeg = neg) (hv : v = if neg then -Q else Q)
    (h : AtMostDigits 65 Q → r.mag = Q) (hdigits : AtMostDigits 65 v) : r.val = v := by
  have hQ : AtMostDigits 65 Q := by
    rw [hv] at hdigits
    split at hdigits
    · have := hdigits.neg
      rwa [neg_neg] at this
    · exact hdigits
  unfold val
  rw [hneg, hv, h hQ]

end

end Dec8

end Cantian.Dec
