import Cantian.Dec.Finalise

/-!
# Multiplication of decimals

`cm_dec8_mul_op` gives the product without what is below nine cells, and
`cm_dec8_multiply` rounds it to 65 digits.
-/

namespace Cantian.Dec

open Lib List Dec8

namespace Dec8

variable {x y : Dec8}

/-- What `cm_dec8_mul_op` computes from two values that are not zero. -/
structure Product (x y r : Dec8) : Prop where
  soft : r.Soft
  normal : x.mag * y.mag < (cellMask : ℚ) ^ (x.expn + y.expn + 2) → r.Normal
  isNeg : r.isNeg = (x.isNeg != y.isNeg)
  mag : r.mag = truncTo ((cellMask : ℚ) ^ (r.expn - 8)) (x.mag * y.mag)
  le : (cellMask : ℚ) ^ r.expn ≤ x.mag * y.mag
  expn : r.expn = x.expn + y.expn ∨ r.expn = x.expn + y.expn + 1

lemma mag_mul (x y : Dec8) : x.mag * y.mag =
      fr cellMask x.cells * fr cellMask y.cells * (cellMask : ℚ) ^ (x.expn + y.expn) := by
  unfold mag
  rw [zpow_add₀ cellMask_cast_pos.ne']
  ring

/-- Nine cells of a number, of which the first counts the power `E` of
`10^8`. -/
lemma truncTo_cells (P : ℚ) (E : ℤ) :
    truncTo ((cellMask : ℚ) ^ (E - 8)) (P * (cellMask : ℚ) ^ E) =
      ⌊P * (cellMask : ℚ) ^ 8⌋ / (cellMask : ℚ) ^ 8 * (cellMask : ℚ) ^ E := by
  have hB := cellMask_cast_pos
  have hpow := cellMask_zpow_pos E
  have hunit : (cellMask : ℚ) ^ (E - 8) = (cellMask : ℚ) ^ E / (cellMask : ℚ) ^ 8 := by
    rw [zpow_sub₀ hB.ne']
    rfl
  have hdiv : P * (cellMask : ℚ) ^ E / ((cellMask : ℚ) ^ E / (cellMask : ℚ) ^ 8) =
      P * (cellMask : ℚ) ^ 8 := by
    field_simp
  unfold truncTo
  rw [hunit, hdiv]
  ring

lemma product_of_cells {r P} (hsoft : r.Soft)
    (hnormal : x.mag * y.mag < (cellMask : ℚ) ^ (x.expn + y.expn + 2) → r.Normal)
    (hneg : r.isNeg = (x.isNeg != y.isNeg))
    (hexpn : r.expn = x.expn + y.expn ∨ r.expn = x.expn + y.expn + 1)
    (hmul : x.mag * y.mag = P * (cellMask : ℚ) ^ r.expn) (hP : 1 ≤ P)
    (hfr : fr cellMask r.cells = ⌊P * (cellMask : ℚ) ^ 8⌋ / (cellMask : ℚ) ^ 8) :
    Product x y r := by
  refine ⟨hsoft, hnormal, hneg, ?_, ?_, hexpn⟩
  · rw [hmul, truncTo_cells, ← hfr]
    rfl
  · rw [hmul]
    exact le_mul_of_one_le_left (cellMask_zpow_pos _).le hP

lemma carry_full {c : ℕ} {l : List ℕ} (hc : c ≠ 0)
    (hle : (c : ℚ) * cellMask + fr cellMask l ≤ (cellMask : ℚ) * cellMask) :
    c < cellMask ∨ (c = cellMask ∧ ((c :: l).take 9).rdropWhile (· == 0) = [cellMask]) := by
  have hB := cellMask_cast_pos
  have hnonneg := fr_nonneg (B := cellMask) l
  have hcle : (c : ℚ) ≤ cellMask := le_of_mul_le_mul_right (by linarith) hB
  rcases (show c ≤ cellMask by exact_mod_cast hcle).lt_or_eq with hlt | heq
  · exact .inl hlt
  · have hzero : fr cellMask l = 0 := by
      rw [heq] at hle
      linarith
    have hall := fr_eq_zero cellMask_pos hzero
    refine .inr ⟨heq, ?_⟩
    rw [take_succ_cons, trim_cons_zeros hc fun x hx => hall x (mem_of_mem_take hx), heq]

lemma mulOp_no_carry {r} (h0 : -65 ≤ x.expn + y.expn) (h1 : x.expn + y.expn ≤ 61)
    (hr : Proper cellMask r) (hlen : r.length ≤ cellSize)
    (hP : 1 ≤ fr cellMask x.cells * fr cellMask y.cells)
    (hfr : fr cellMask r = ⌊fr cellMask x.cells * fr cellMask y.cells * (cellMask : ℚ) ^ 8⌋ /
      (cellMask : ℚ) ^ 8) :
    Product x y (Dec8.trimZeros ⟨convertExpn2 (x.expn + y.expn) (x.isNeg != y.isNeg), r⟩) := by
  have hB := cellMask_cast_pos
  have hge : 1 ≤ fr cellMask r := by
    rw [hfr, le_div_iff₀ (by positivity), one_mul]
    have : ((cellMask ^ 8 : ℤ) : ℚ) ≤
        fr cellMask x.cells * fr cellMask y.cells * (cellMask : ℚ) ^ 8 := by
      exact le_mul_of_one_le_left (by positivity) hP
    exact_mod_cast Int.le_floor.mpr this
  obtain ⟨hnormal, hhead, hfr'⟩ := trimZeros_normal
    (d := ⟨convertExpn2 (x.expn + y.expn) (x.isNeg != y.isNeg), r⟩) (convertExpn2_lt _ _) hr hlen
    hge
  have hexpn := (expn_of_head hhead).trans (expn_convertExpn2 h0 (by omega))
  refine product_of_cells hnormal.soft (fun _ => hnormal) ?_ (.inl hexpn) ?_ hP (hfr'.trans hfr)
  · exact (isNeg_of_head hhead).trans (isNeg_convertExpn2 h0 (by omega))
  · rw [hexpn, mag_mul]

lemma mulOp_carry {c : ℕ} {r : List ℕ} (h0 : -65 ≤ x.expn + y.expn) (h1 : x.expn + y.expn ≤ 61)
    (hc : c ≠ 0) (hr : Proper cellMask r)
    (hle : (c : ℚ) * cellMask + fr cellMask r ≤ fr cellMask x.cells * fr cellMask y.cells)
    (hP : fr cellMask x.cells * fr cellMask y.cells ≤ (cellMask : ℚ) * cellMask)
    (hfr : fr cellMask ((c :: r).take 9) =
      ⌊fr cellMask x.cells * fr cellMask y.cells / cellMask * (cellMask : ℚ) ^ 8⌋ /
        (cellMask : ℚ) ^ 8) :
    Product x y
      (Dec8.rebuild ⟨convertExpn2 (x.expn + y.expn) (x.isNeg != y.isNeg), r⟩ c).trimZeros := by
  have hB := cellMask_cast_pos
  have hone : (1 : ℚ) ≤ c := by exact_mod_cast Nat.one_le_iff_ne_zero.mpr hc
  have hnonneg := fr_nonneg (B := cellMask) r
  set rs : Dec8 := ⟨convertExpn2 (x.expn + y.expn) (x.isNeg != y.isNeg), r⟩
  have hrsexpn : rs.expn = x.expn + y.expn := expn_convertExpn2 h0 (by omega)
  have hcells : (rs.rebuild c).cells = (c :: r).take 9 := rfl
  have hneg : (rs.rebuild c).isNeg = (x.isNeg != y.isNeg) :=
    (isNeg_convertExpn2 (by omega) (by omega)).trans (isNeg_convertExpn2 h0 (by omega))
  have hexpn : (rs.rebuild c).expn = x.expn + y.expn + 1 := by
    rw [← hrsexpn]
    exact expn_convertExpn2 (by omega) (by omega)
  have hmul : x.mag * y.mag = fr cellMask x.cells * fr cellMask y.cells / cellMask *
      (cellMask : ℚ) ^ (rs.rebuild c).expn := by
    rw [hexpn, mag_mul, cellMask_zpow_add_one]
    field_simp
  have hP1 : 1 ≤ fr cellMask x.cells * fr cellMask y.cells / cellMask := by
    rw [le_div_iff₀ hB]
    have := mul_le_mul_of_nonneg_right hone hB.le
    linarith
  rcases carry_full hc (hle.trans hP) with hlt | ⟨heq, htrim⟩
  · obtain ⟨hnormal, hhead, hfr'⟩ := trimZeros_normal (d := rs.rebuild c) (convertExpn2_lt _ _)
      (by
        exact Proper.take (forall_mem_cons.mpr ⟨hlt, hr⟩) 9)
      (by rw [hcells, length_take]; exact min_le_left _ _)
      (by rw [hcells]; exact hone.trans (le_fr_cons _ _))
    refine product_of_cells hnormal.soft (fun _ => hnormal) ((isNeg_of_head hhead).trans hneg)
      (.inr ((expn_of_head hhead).trans hexpn)) ?_ hP1 (hfr'.trans (hcells ▸ hfr))
    rw [expn_of_head hhead]
    exact hmul
  · -- both factors are as large as their cells allow
    have heq' : (rs.rebuild c).trimZeros = ⟨(rs.rebuild c).head, [cellMask]⟩ := by
      unfold trimZeros
      rw [hcells, htrim]
      rfl
    rw [heq']
    refine product_of_cells (P := fr cellMask x.cells * fr cellMask y.cells / cellMask)
      ⟨convertExpn2_lt _ _, cellMask_pos, le_rfl, Nat.le_add_left 1 8⟩ (fun h => ?_) hneg
      (.inr hexpn) hmul hP1 ?_
    · rw [mag_mul, zpow_add₀ hB.ne' (x.expn + y.expn), mul_comm _ ((cellMask : ℚ) ^ (2 : ℤ)),
        mul_lt_mul_iff_of_pos_right (cellMask_zpow_pos _)] at h
      have hsq : (cellMask : ℚ) ^ (2 : ℤ) = cellMask * cellMask := by
        rw [zpow_two]
      rw [hsq] at h
      rw [heq] at hle
      linarith
    · rw [← hfr, ← fr_trim ((c :: r).take 9), htrim]

lemma mulOp_product (hx : x.Soft) (hy : y.Soft) (h0 : -65 ≤ x.expn + y.expn)
    (h1 : x.expn + y.expn ≤ 61) : Product x y (x.mulOp y) := by
  have hlen : x.cells.length + y.cells.length ≤ x.cells.length + y.cells.length - 1 + 1 := by omega
  have hproper : Proper cellMask (mulLoop cellMask cellSize x.cells y.cells
      (x.cells.length + y.cells.length - 1) 0).2 := .mulLoop cellMask_pos
  have hzero : (x.isZero || y.isZero) = false := by rw [hx.isZero_eq, hy.isZero_eq, Bool.or_self]
  unfold mulOp
  rw [hzero]
  simp only [Bool.false_eq_true, if_false]
  by_cases hcarry :
      (mulLoop cellMask cellSize x.cells y.cells (x.cells.length + y.cells.length - 1) 0).1 = 0
  · rw [if_pos hcarry]
    refine mulOp_no_carry h0 h1 hproper length_mulLoop_le
      (one_le_mul_of_one_le_of_one_le hx.one_le hy.one_le) ?_
    have hmul := mulLoop_mul (k := 8) cellMask_pos hlen
    rw [show (8 + 1 : ℕ) = cellSize from rfl, hcarry, Nat.cast_zero, zero_mul, zero_add] at hmul
    exact hmul
  · rw [if_neg hcarry]
    exact mulOp_carry h0 h1 hcarry hproper (mulLoop_le (k := 8) cellMask_pos hlen)
      (mul_le_mul hx.le hy.le (fr_nonneg _) cellMask_cast_pos.le)
      (fr_take_mulLoop (k := 8) cellMask_pos hlen)

/-! ## The product of canonical decimals -/

lemma val_mul (x y : Dec8) :
    x.val * y.val = if x.isNeg != y.isNeg then -(x.mag * y.mag) else x.mag * y.mag := by
  unfold val
  cases x.isNeg <;> cases y.isNeg <;> simp

lemma mulOp_of_isZero (h : x.isZero = true ∨ y.isZero = true) : x.mulOp y = zero := by
  unfold mulOp
  rw [if_pos (Bool.or_eq_true_iff.mpr h)]

lemma multiply_outcome (hx : x.Normal) (hy : y.Normal) (h0 : -65 ≤ x.expn + y.expn)
    (h1 : x.expn + y.expn ≤ 61) : Outcome (x.isNeg != y.isNeg) (x.mag * y.mag) (x.multiply y) := by
  have hp := mulOp_product hx.soft hy.soft h0 h1
  have hlt : x.mag * y.mag < (cellMask : ℚ) ^ (x.expn + y.expn + 2) := by
    have hB := cellMask_cast_pos
    rw [mag_mul, zpow_add₀ hB.ne' (x.expn + y.expn), mul_comm _ ((cellMask : ℚ) ^ (2 : ℤ)),
      mul_lt_mul_iff_of_pos_right (cellMask_zpow_pos _), zpow_two]
    exact mul_lt_mul'' hx.lt hy.lt (fr_nonneg _) (fr_nonneg _)
  rw [← hp.isNeg]
  exact (hp.normal hlt).finalise_outcome hp.mag hp.le

/-- `cm_dec8_multiply` on canonical decimals whose exponents leave the exponent
of the product in the head. It reports an overflow only when the rounded
product is too large, and gives zero only for a factor zero or a product below
the smallest exponent. Any other result is canonical, differs from the product
by less than one unit of its 65th digit, and is exact when the product has at
most 65 digits. -/
theorem multiply_correct (x y : Dec8) (hx : x.Canonical) (hy : y.Canonical)
    (hrange : x.isZero = true ∨ y.isZero = true ∨ (-65 ≤ x.expn + y.expn ∧ x.expn + y.expn ≤ 61)) :
    (x.multiply y = none → 10 ^ (128 : ℤ) ≤ roundSig 65 |x.val * y.val|) ∧
    ∀ r, x.multiply y = some r →
      r.Canonical ∧
      (r.val = 0 → x.val = 0 ∨ y.val = 0 ∨ |x.val * y.val| < 10 ^ (-130 : ℤ)) ∧
      (r.val ≠ 0 → |r.val - x.val * y.val| < unitAt 65 (x.val * y.val) ∧
        (AtMostDigits 65 (x.val * y.val) → r.val = x.val * y.val)) := by
  by_cases hzero : x.isZero = true ∨ y.isZero = true
  · have hmul : x.multiply y = some zero := by
      unfold multiply
      rw [mulOp_of_isZero hzero]
      rfl
    rw [hmul]
    refine ⟨fun h => (nomatch h), fun r hr => ?_⟩
    cases hr
    refine ⟨canonical_zero, fun _ => ?_, fun h => absurd val_zero h⟩
    rcases hzero with h | h
    · exact .inl (val_of_isZero h)
    · exact .inr (.inl (val_of_isZero h))
  obtain ⟨hxz, hyz⟩ := not_or.mp hzero
  have hxn := (hx.resolve_left hxz).1
  have hyn := (hy.resolve_left hyz).1
  have hr := (hrange.resolve_left hxz).resolve_left hyz
  have hout := multiply_outcome hxn hyn hr.1 hr.2
  have habs : |x.val * y.val| = x.mag * y.mag := by rw [abs_mul, abs_val, abs_val]
  have hval := val_mul x y
  generalize x.multiply y = res at hout ⊢
  cases hout with
  | overflow h => exact ⟨fun _ => habs ▸ h, fun r hr => nomatch hr⟩
  | underflow h =>
    refine ⟨fun h => (nomatch h), fun r hr => ?_⟩
    cases hr
    exact ⟨canonical_zero, fun _ => .inr (.inr (habs ▸ h)), fun h => absurd val_zero h⟩
  | @rounded s hs hdigits hneg hclose hexact =>
    refine ⟨fun h => (nomatch h), fun r hr => ?_⟩
    cases hr
    refine ⟨.inr ⟨hs, hdigits⟩, fun h => absurd h hs.val_ne, fun _ => ?_⟩
    exact ⟨signed_close hneg hval hclose, signed_exact hneg hval hexact⟩

/-- Six times seven. -/
theorem multiply_six_seven :
    ∃ r, (Dec8.mk 193 [6]).multiply ⟨193, [7]⟩ = some r ∧ r.Canonical ∧ r.val = 42 := by
  have hsix : (mk 193 [6]).val = 6 := by norm_num [val, mag, isNeg, expn]
  have hseven : (mk 193 [7]).val = 7 := by norm_num [val, mag, isNeg, expn]
  have hr : (mk 193 [6]).multiply ⟨193, [7]⟩ = some ⟨193, [42]⟩ := by decide
  obtain ⟨hcanon, -, hval⟩ := (multiply_correct ⟨193, [6]⟩ ⟨193, [7]⟩
    (canonical_single (by decide) (by decide) (by decide))
    (canonical_single (by decide) (by decide) (by decide))
    (.inr (.inr ⟨by decide, by decide⟩))).2 _ hr
  refine ⟨_, hr, hcanon, ?_⟩
  have hne : (mk 193 [42]).val ≠ 0 := by norm_num [val, mag, isNeg, expn]
  rw [(hval hne).2 ?_, hsix, hseven]
  · norm_num
  · rw [hsix, hseven]
    exact ⟨42, 0, by norm_num, by norm_num⟩

/-- The exponent of the product of two large values does not fit into the
head: the product of two positive values comes out negative. -/
theorem multiply_head_wraps :
    ∃ x y r : Dec8, x.Canonical ∧ y.Canonical ∧ x.multiply y = some r ∧ 0 < x.val * y.val ∧
      r.val < 0 := by
  refine ⟨⟨255, [1]⟩, ⟨255, [1]⟩, ⟨61, [1]⟩, canonical_single (by decide) (by decide) (by decide),
    canonical_single (by decide) (by decide) (by decide), by decide, ?_, ?_⟩
  · have : 0 < (mk 255 [1]).val := by norm_num [val, mag, isNeg, expn, cellMask]
    exact mul_pos this this
  · norm_num [val, mag, isNeg, expn, cellMask]

end Dec8

end Cantian.Dec
