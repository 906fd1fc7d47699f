import Mathlib.Order.Nat

/-!
# Walks along a partial function

A walk that never stops goes from a point to the next one by `f`. When it
comes back to a point it has been at it goes round a cycle from there on.
-/

namespace Cantian.Lib

variable {α : Type*} {f : α → Option α} {p : Nat → α} {i j n m : Nat}

/-- `p` goes from every point to the next one. -/
def Walk (f : α → Option α) (p : Nat → α) : Prop := ∀ n, f (p n) = some (p (n + 1))

namespace Walk

lemma shift (hp : Walk f p) (hij : p i = p j) (k : Nat) : p (i + k) = p (j + k) := by
  induction k with
  | zero => exact hij
  | succ k ih =>
    have hi := hp (i + k)
    rw [ih, hp (j + k)] at hi
    exact (Option.some.inj hi).symm

/-- A point of a cycle comes again and again. -/
lemma recur (hp : Walk f p) (hcycle : p (n + m) = p n) (hm : 0 < m) (hi : n ≤ i) (k : Nat) :
    ∃ i', k ≤ i' ∧ p i' = p i := by
  induction k with
  | zero => exact ⟨i, Nat.zero_le i, rfl⟩
  | succ k ih =>
    obtain ⟨i', hk, hi'⟩ := ih
    have hround : p (i + m) = p i := by
      have h := hp.shift hcycle (i - n)
      rwa [Nat.add_right_comm, Nat.add_sub_cancel' hi] at h
    refine ⟨i' + m, by omega, ?_⟩
    rw [hp.shift hi' m, hround]

/-- The first time that a walk comes back. -/
lemma first_repeat (hcycle : p (n + m) = p n) (hm : 0 < m) :
    ∃ k j, j < k ∧ p k = p j ∧ ∀ i < k, ∀ i' < i, p i' ≠ p i := by
  classical
  have hex : ∃ k, ∃ j, j < k ∧ p k = p j := ⟨n + m, n, by omega, hcycle⟩
  obtain ⟨j, hj, hpj⟩ := Nat.find_spec hex
  refine ⟨Nat.find hex, j, hj, hpj, fun i hi i' hi' heq => ?_⟩
  exact Nat.find_min hex hi ⟨i', hi', heq.symm⟩

/-- After the first return a walk meets no new point. -/
lemma mem_before {k} (hp : Walk f p) (hj : j < k) (hkj : p k = p j) (i : Nat) :
    ∃ i' < k, p i' = p i := by
  induction i with
  | zero => exact ⟨0, by omega, rfl⟩
  | succ i ih =>
    obtain ⟨i', hi', heq⟩ := ih
    have hnext := hp.shift heq 1
    by_cases hlt : i' + 1 < k
    · exact ⟨i' + 1, hlt, hnext⟩
    · obtain rfl : i' + 1 = k := by omega
      exact ⟨j, hj, hkj.symm.trans hnext⟩

end Walk

end Cantian.Lib
