import Mathlib.Data.BitVec

/-!
# Sets of small numbers as machine words

Bit `i` of the word says whether `i` is in the set. The operations are the
usual shifts and masks; the lemmas say which bits the result has.
-/

namespace Cantian.Lib.Bitmap

open BitVec

variable {w : Nat}

/-- Set bit `i`. -/
def setBit (b : BitVec w) (i : Fin w) : BitVec w := b ||| (1#w <<< i.val)

/-- Clear bit `i`. -/
def clearBit (b : BitVec w) (i : Fin w) : BitVec w := b &&& ~~~(1#w <<< i.val)

/-- Bit `i` is set. -/
def hasBit (b : BitVec w) (i : Fin w) : Bool := b &&& (1#w <<< i.val) != 0#w

lemma getLsbD_one_shiftLeft (i j : Fin w) : (1#w <<< i.val).getLsbD j.val = decide (i = j) := by
  rw [← twoPow_eq, getLsbD_twoPow]
  simp [Fin.ext_iff]

lemma hasBit_eq_getLsbD (b : BitVec w) (i : Fin w) : hasBit b i = b.getLsbD i.val := by
  by_cases hbit : b.getLsbD i.val = true
  · rw [hbit]
    simp only [hasBit, bne_iff_ne, ne_eq]
    intro hzero
    have := congrArg (fun v => v.getLsbD i.val) hzero
    simp only [getLsbD_and, getLsbD_one_shiftLeft, hbit, decide_true, Bool.and_self,
      getLsbD_zero, Bool.true_eq_false] at this
  · have hfalse : b.getLsbD i.val = false := by simpa using hbit
    rw [hfalse]
    simp only [hasBit, bne_eq_false_iff_eq]
    apply eq_of_getLsbD_eq
    intro j hj
    have hshift := getLsbD_one_shiftLeft i ⟨j, hj⟩
    rw [getLsbD_and, hshift, getLsbD_zero]
    by_cases hij : i = ⟨j, hj⟩
    · subst hij
      simpa using hbit
    · simp [hij]

@[simp] lemma hasBit_zero (i : Fin w) : hasBit (0#w) i = false := by
  simp [hasBit_eq_getLsbD]

@[simp] lemma hasBit_setBit (b : BitVec w) (i j : Fin w) :
    hasBit (setBit b i) j = (hasBit b j || decide (i = j)) := by
  rw [hasBit_eq_getLsbD, hasBit_eq_getLsbD, setBit, getLsbD_or, getLsbD_one_shiftLeft]

@[simp] lemma hasBit_clearBit (b : BitVec w) (i j : Fin w) :
    hasBit (clearBit b i) j = (hasBit b j && !decide (i = j)) := by
  rw [hasBit_eq_getLsbD, hasBit_eq_getLsbD, clearBit, getLsbD_and, getLsbD_not,
    getLsbD_one_shiftLeft]
  simp

lemma eq_zero_iff {b} : b = 0#w ↔ ∀ i, hasBit b i = false := by
  constructor
  · intro h i
    rw [h]
    exact hasBit_zero i
  · intro h
    apply eq_of_getLsbD_eq
    intro j hj
    have := h ⟨j, hj⟩
    rw [hasBit_eq_getLsbD] at this
    rw [this, getLsbD_zero]

lemma setBit_ne_zero (b : BitVec w) (i : Fin w) : setBit b i ≠ 0#w := by
  intro h
  have := eq_zero_iff.mp h i
  simp at this

end Cantian.Lib.Bitmap
