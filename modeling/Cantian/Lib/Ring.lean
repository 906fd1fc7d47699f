import Mathlib.Logic.Basic

/-!
# Positions in a ring

A ring of `n` cells is walked from a start cell: `slotAt n s i` is the cell
`i` steps after `s`, and `offset n s x` is the number of steps from `s` to
`x`. The two are inverse to each other, and moving the start along the ring
lowers every offset by the length of the move.
-/

namespace Cantian.Lib

/-- The cell `i` steps after cell `s`. -/
def slotAt (n s i : Nat) : Nat := (s + i) % n

/-- The number of steps from cell `s` to cell `x`. -/
def offset (n s x : Nat) : Nat := (x + n - s) % n

section
variable {n s x i j : Nat}

lemma slotAt_lt (hn : 0 < n) : slotAt n s i < n := Nat.mod_lt _ hn

lemma offset_lt (hn : 0 < n) : offset n s x < n := Nat.mod_lt _ hn

section
variable (hs : s < n)
include hs

/-- One wrap is enough for the cell reached in at most `n` steps. -/
lemma slotAt_eq (hi : i ≤ n) : slotAt n s i = if s + i < n then s + i else s + i - n := by
  unfold slotAt
  split
  · exact Nat.mod_eq_of_lt ‹_›
  · rw [Nat.mod_eq_sub_mod (by omega), Nat.mod_eq_of_lt (by omega)]

lemma offset_eq (hx : x < n) : offset n s x = if s ≤ x then x - s else x + n - s := by
  unfold offset
  split
  · rw [Nat.mod_eq_sub_mod (by omega), Nat.mod_eq_of_lt (by omega)]
    omega
  · exact Nat.mod_eq_of_lt (by omega)

@[simp] lemma slotAt_zero : slotAt n s 0 = s := Nat.mod_eq_of_lt hs

@[simp] lemma offset_self : offset n s s = 0 := by
  rw [offset_eq hs hs]
  simp

lemma offset_slotAt (hi : i < n) : offset n s (slotAt n s i) = i := by
  rw [offset_eq hs (slotAt_lt (by omega)), slotAt_eq hs (by omega)]
  split <;> split <;> omega

lemma slotAt_offset (hx : x < n) : slotAt n s (offset n s x) = x := by
  have hlt : offset n s x < n := offset_lt (by omega)
  rw [slotAt_eq hs (by omega), offset_eq hs hx]
  split <;> split <;> omega

end

lemma slotAt_slotAt : slotAt n (slotAt n s i) j = slotAt n s (i + j) := by
  unfold slotAt
  rw [Nat.mod_add_mod, Nat.add_assoc]

lemma slotAt_inj (hs : s < n) (hi : i < n) (hj : j < n) (h : slotAt n s i = slotAt n s j) :
    i = j := by
  rw [← offset_slotAt hs hi, h, offset_slotAt hs hj]

/-- Moving the start by `j` steps towards `x` takes `j` off its offset. -/
lemma offset_slotAt_left (hs : s < n) (hx : x < n) (hj : j ≤ offset n s x) :
    offset n (slotAt n s j) x = offset n s x - j := by
  have hlt : offset n s x < n := offset_lt (by omega)
  rw [offset_eq (slotAt_lt (by omega)) hx]
  rw [slotAt_eq hs (by omega)]
  rw [offset_eq hs hx] at hj ⊢
  split at hj <;> split <;> split <;> omega

/-- Moving the far end one step on adds one, unless it comes back to the start. -/
lemma offset_succ (hs : s < n) (hx : x < n) (hne : (x + 1) % n ≠ s) :
    offset n s ((x + 1) % n) = offset n s x + 1 := by
  have hslot : (x + 1) % n = if x + 1 < n then x + 1 else x + 1 - n := slotAt_eq hx (by omega)
  rw [offset_eq hs (Nat.mod_lt _ (by omega)), offset_eq hs hx]
  rw [hslot] at hne ⊢
  by_cases hwrap : x + 1 < n
  · rw [if_pos hwrap] at hne ⊢
    split <;> split <;> omega
  · rw [if_neg hwrap] at hne ⊢
    split <;> split <;> omega

end

end Cantian.Lib
