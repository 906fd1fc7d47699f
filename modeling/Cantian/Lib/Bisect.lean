import Mathlib.Tactic.Common

/-!
# Bisection

The least index with a property that is kept by larger ones.
-/

namespace Cantian.Lib

/-- The loop over the indices from `lo` on and below `hi`; `best` is the last
index found to have the property. -/
def bisect (q : Nat → Bool) : Nat → Nat → Nat → Option Nat → Option Nat
  | 0, _, _, best => best
  | fuel + 1, lo, hi, best =>
    if lo < hi then
      let curr := (hi - 1 + lo) / 2
      if q curr then bisect q fuel lo curr (some curr) else bisect q fuel (curr + 1) hi best
    else best

/-- All indices below `lo` lack the property, and `hi` is the best one found,
or the end. -/
lemma bisect_spec {q n} (hmono : ∀ i j, i < j → j < n → q i = true → q j = true) (fuel lo hi : Nat)
    (hfuel : hi ≤ lo + fuel) (hhi : hi ≤ n) (hlo : ∀ i < lo, q i = false)
    (hbest : hi < n → q hi = true) :
    ∃ l, bisect q fuel lo hi (if hi < n then some hi else none) =
        (if l < n then some l else none) ∧
      (l < n → q l = true) ∧ ∀ p < n, q p = true → l ≤ p := by
  induction fuel generalizing lo hi with
  | zero =>
    refine ⟨hi, rfl, hbest, fun p _ hq => ?_⟩
    by_contra hlt
    simp [hlo p (by omega)] at hq
  | succ fuel ih =>
    unfold bisect
    split
    case isFalse =>
      refine ⟨hi, rfl, hbest, fun p _ hq => ?_⟩
      by_contra hlt
      simp [hlo p (by omega)] at hq
    case isTrue hlt =>
      have hcurr : (hi - 1 + lo) / 2 < n := by omega
      dsimp only
      split
      case isTrue hq =>
        have := ih lo ((hi - 1 + lo) / 2) (by omega) (by omega) hlo fun _ => hq
        rwa [if_pos hcurr] at this
      case isFalse hq =>
        refine ih _ hi (by omega) hhi (fun i hi => ?_) hbest
        by_contra hi'
        rcases Nat.lt_succ_iff_lt_or_eq.mp hi with hlt | rfl
        · exact hq (hmono i _ hlt hcurr (by simpa using hi'))
        · simp [hi'] at hq

end Cantian.Lib
