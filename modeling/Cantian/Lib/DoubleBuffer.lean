/-!
# Exchange through two buffers

A producer and a consumer hand data over through two slots, each with its
own alternating index and one full flag per slot. As long as both indices
move only with a slot that changes hands, the slots are a queue of at most
two (`Holds`); a reset that empties both slots keeps that only if the
indices agree.
-/

namespace Cantian.Lib

/-- Two slots, `none` for one that is not full, and the two indices. -/
structure DoubleBuffer (α : Type) where
  slot0 : Option α
  slot1 : Option α
  readIndex : Bool
  writeIndex : Bool
deriving DecidableEq, Repr

namespace DoubleBuffer

variable {α : Type} {b b' : DoubleBuffer α} {x : α} {q : List α}

def empty : DoubleBuffer α := ⟨none, none, false, false⟩

def slot (b : DoubleBuffer α) (i : Bool) : Option α := if i then b.slot1 else b.slot0

def setSlot (b : DoubleBuffer α) (i : Bool) (x : Option α) : DoubleBuffer α :=
  if i then { b with slot1 := x } else { b with slot0 := x }

/-- The slot of the producer is free. -/
def canPut (b : DoubleBuffer α) : Bool := (b.slot b.readIndex).isNone

def put (b : DoubleBuffer α) (x : α) : DoubleBuffer α :=
  { b.setSlot b.readIndex (some x) with readIndex := !b.readIndex }

/-- What the consumer finds. -/
def peek (b : DoubleBuffer α) : Option α := b.slot b.writeIndex

def take (b : DoubleBuffer α) : DoubleBuffer α :=
  { b.setSlot b.writeIndex none with writeIndex := !b.writeIndex }

/-- Both slots are marked free; the indices stay. -/
def reset (b : DoubleBuffer α) : DoubleBuffer α := { b with slot0 := none, slot1 := none }

def isEmpty (b : DoubleBuffer α) : Bool := b.slot0.isNone && b.slot1.isNone

/-- The slots hold the queue `q`, first the one that the consumer is at. -/
def Holds (b : DoubleBuffer α) : List α → Prop
  | [] => b.slot b.writeIndex = none ∧ b.slot (!b.writeIndex) = none ∧ b.readIndex = b.writeIndex
  | [x] => b.slot b.writeIndex = some x ∧ b.slot (!b.writeIndex) = none ∧
      b.readIndex = !b.writeIndex
  | [x, y] => b.slot b.writeIndex = some x ∧ b.slot (!b.writeIndex) = some y ∧
      b.readIndex = b.writeIndex
  | _ => False

theorem holds_empty : (empty : DoubleBuffer α).Holds [] := ⟨rfl, rfl, rfl⟩

theorem Holds.put (h : b.Holds q) (hput : b.canPut = true) : (b.put x).Holds (q ++ [x]) := by
  obtain ⟨s0, s1, r, w⟩ := b
  match q, h with
  | [], ⟨h1, h2, h3⟩ =>
    cases w <;> cases r <;> simp_all [DoubleBuffer.put, Holds, slot, setSlot]
  | [y], ⟨h1, h2, h3⟩ =>
    cases w <;> cases r <;> simp_all [DoubleBuffer.put, Holds, slot, setSlot]
  | [y, z], ⟨h1, h2, h3⟩ =>
    cases w <;> cases r <;> simp_all [canPut, slot]

theorem Holds.peek (h : b.Holds q) : b.peek = q.head? := by
  match q, h with
  | [], ⟨h1, _, _⟩ => exact h1
  | [_], ⟨h1, _, _⟩ => exact h1
  | [_, _], ⟨h1, _, _⟩ => exact h1

theorem Holds.take (h : b.Holds (x :: q)) : b.take.Holds q := by
  obtain ⟨s0, s1, r, w⟩ := b
  match q, h with
  | [], ⟨h1, h2, h3⟩ =>
    cases w <;> cases r <;> simp_all [DoubleBuffer.take, Holds, slot, setSlot]
  | [y], ⟨h1, h2, h3⟩ =>
    cases w <;> cases r <;> simp_all [DoubleBuffer.take, Holds, slot, setSlot]

theorem Holds.eq_nil (h : b.Holds q) (hempty : b.isEmpty = true) : q = [] := by
  obtain ⟨s0, s1, r, w⟩ := b
  simp only [isEmpty, Bool.and_eq_true, Option.isNone_iff_eq_none] at hempty
  match q, h with
  | [], _ => rfl
  | [y], ⟨h1, _, _⟩ => cases w <;> simp_all [slot]
  | [y, z], ⟨h1, _, _⟩ => cases w <;> simp_all [slot]

theorem Holds.readIndex_eq (h : b.Holds []) : b.readIndex = b.writeIndex := h.2.2

/-- A reset empties the queue if the indices agree; what was in it is gone. -/
theorem holds_reset (h : b.readIndex = b.writeIndex) : b.reset.Holds [] := by
  obtain ⟨s0, s1, r, w⟩ := b
  refine ⟨?_, ?_, h⟩ <;> cases w <;> rfl

end DoubleBuffer
end Cantian.Lib
