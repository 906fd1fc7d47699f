import Mathlib.Data.List.Nodup

/-!
# Doubly linked lists over numbered nodes

The nodes are stored outside the lists, and each knows the number under which
it is stored. A new node goes to the front, and a node is deleted with
nothing but its own links.

`DList.Holds` describes a list by the splits of the numbers in it: the links
of a node are the last number before it and the first behind it.
-/

namespace Cantian.Lib

open Function List

structure Node where
  prev : Option Nat
  next : Option Nat
  idx : Nat
deriving DecidableEq, Repr

structure DList where
  first : Option Nat
  last : Option Nat
  count : Nat
deriving DecidableEq, Repr

namespace DList

def empty : DList := ⟨none, none, 0⟩

/-- The node `i` goes to the front. -/
def addNode (node : Nat → Node) (l : DList) (i : Nat) : (Nat → Node) × DList :=
  let idx := (node i).idx
  if l.count = 0 then
    (update node i ⟨none, none, idx⟩, ⟨some idx, some idx, l.count + 1⟩)
  else
    let node' := update node i ⟨none, l.first, idx⟩
    let l' := { l with first := some idx, count := l.count + 1 }
    match l.first with
    | none => (node', l')
    | some h => (update node' h { node' h with prev := some idx }, l')

def deleteNode (node : Nat → Node) (l : DList) (i : Nat) : (Nat → Node) × DList :=
  let del := node i
  match del.prev, del.next with
  | some p, some q =>
    let node' := update node p { node p with next := del.next }
    (update node' q { node' q with prev := del.prev }, { l with count := l.count - 1 })
  | some p, none =>
    (update node p { node p with next := none },
      { l with last := some (node p).idx, count := l.count - 1 })
  | none, some q =>
    (update node q { node q with prev := none },
      { l with first := del.next, count := l.count - 1 })
  | none, none => (node, ⟨none, none, l.count - 1⟩)

/-- The numbers that a loop over the next nodes meets. -/
def walk (node : Nat → Node) : Nat → Option Nat → List Nat
  | 0, _ => []
  | _ + 1, none => []
  | n + 1, some i => i :: walk node n (node i).next

/-- The list has the nodes `ids`, in their order. -/
structure Holds (node : Nat → Node) (l : DList) (ids : List Nat) : Prop where
  nodup : ids.Nodup
  first : l.first = ids.head?
  last : l.last = ids.getLast?
  count : l.count = ids.length
  link : ∀ as i bs, ids = as ++ i :: bs → node i = ⟨as.getLast?, bs.head?, i⟩

namespace Holds

variable {node node' : Nat → Node} {l : DList} {ids as bs : List Nat} {i j : Nat}

lemma nil (node : Nat → Node) : Holds node empty [] := by
  refine ⟨nodup_nil, rfl, rfl, rfl, fun as i bs h => ?_⟩
  simp at h

lemma walk_suffix (hl : Holds node l (as ++ bs)) : walk node bs.length bs.head? = bs := by
  induction bs generalizing as with
  | nil => rfl
  | cons i bs ih =>
    have hnext : (node i).next = bs.head? := by rw [hl.link as i bs rfl]
    have happ : as ++ i :: bs = as ++ [i] ++ bs := by simp
    rw [happ] at hl
    show i :: walk node bs.length (node i).next = i :: bs
    rw [hnext, ih hl]

section
variable (hl : Holds node l ids)
include hl

lemma walk_eq : walk node l.count l.first = ids := by
  rw [hl.count, hl.first]
  exact walk_suffix (show Holds node l ([] ++ ids) from hl)

lemma unique {ids'} (hl' : Holds node l ids') : ids = ids' := by
  rw [← hl.walk_eq, hl'.walk_eq]

lemma congr (heq : ∀ j ∈ ids, node' j = node j) : Holds node' l ids := by
  refine { hl with link := fun as j bs h => ?_ }
  rw [heq j (h ▸ mem_append_right as mem_cons_self)]
  exact hl.link as j bs h

lemma addNode_of_not_mem (hj : j ∉ ids) (hji : j ≠ i) : (addNode node l i).1 j = node j := by
  have hfirst := hl.first
  unfold addNode
  split
  · exact update_of_ne hji ..
  cases hh : l.first with
  | none => exact update_of_ne hji ..
  | some h =>
    have hjh : j ≠ h := by
      rintro rfl
      exact hj (mem_of_head? (hfirst.symm.trans hh))
    dsimp only
    rw [update_of_ne hjh, update_of_ne hji]

lemma add (hi : i ∉ ids) (hidx : (node i).idx = i) :
    Holds (addNode node l i).1 (addNode node l i).2 (i :: ids) := by
  unfold addNode
  rw [hidx]
  cases ids with
  | nil =>
    have hzero : l.count = 0 := hl.count
    simp only [hzero, if_true]
    refine ⟨nodup_singleton i, rfl, rfl, rfl, fun as j bs h => ?_⟩
    obtain ⟨rfl, rfl, rfl⟩ : as = [] ∧ j = i ∧ bs = [] := by
      cases as with
      | nil => simpa [eq_comm] using h
      | cons => simp at h
    exact update_self ..
  | cons h ids =>
    have hcount := hl.count
    have hfirst : l.first = some h := hl.first
    have hne : h ≠ i := fun hhi => hi (hhi ▸ mem_cons_self)
    rw [if_neg (by rw [hcount]; exact Nat.succ_ne_zero _)]
    simp only [hfirst]
    refine ⟨nodup_cons.mpr ⟨hi, hl.nodup⟩, rfl, ?_, ?_, fun as j bs heq => ?_⟩
    · rw [getLast?_cons_cons]
      exact hl.last
    · rw [hcount]
      rfl
    · -- the new node, the old first one, or one behind it
      cases as with
      | nil =>
        obtain ⟨rfl, rfl⟩ := cons.inj heq
        rw [update_of_ne hne.symm, update_self]
        rfl
      | cons a as =>
        obtain ⟨rfl, hids⟩ := cons.inj heq
        have hold := hl.link as j bs hids
        cases as with
        | nil =>
          obtain ⟨rfl, rfl⟩ := cons.inj hids
          rw [update_self, update_of_ne hne, hold]
          rfl
        | cons b as =>
          obtain ⟨rfl, hids'⟩ := cons.inj hids
          have hmem : j ∈ ids := hids' ▸ mem_append_right as mem_cons_self
          have hjh : j ≠ h := fun hjh => (nodup_cons.mp hl.nodup).1 (hjh ▸ hmem)
          have hji : j ≠ i := fun hji => hi (hji ▸ mem_cons_of_mem h hmem)
          rw [update_of_ne hjh, update_of_ne hji, hold, getLast?_cons_cons]

end

lemma deleteNode_apply (node : Nat → Node) (l : DList) (i j : Nat) : (deleteNode node l i).1 j =
      { prev := if (node i).next = some j then (node i).prev else (node j).prev
        next := if (node i).prev = some j then (node i).next else (node j).next
        idx := (node j).idx } := by
  unfold deleteNode
  cases hp : (node i).prev with
  | none =>
    cases hq : (node i).next with
    | none => simp [hp, hq]
    | some q =>
      rcases eq_or_ne q j with rfl | hjq
      · simp [hp, hq]
      · simp [hp, hq, Ne.symm hjq, hjq]
  | some p =>
    cases hq : (node i).next with
    | none =>
      rcases eq_or_ne p j with rfl | hjp
      · simp [hp, hq]
      · simp [hp, hq, Ne.symm hjp, hjp]
    | some q =>
      rcases eq_or_ne q j with rfl | hjq
      · by_cases hpq : p = q
        · subst hpq
          simp [hp, hq]
        · simp [hp, hq, hpq, Ne.symm hpq]
      · rcases eq_or_ne p j with rfl | hjp
        · simp [hp, hq, Ne.symm hjq, hjq]
        · simp [hp, hq, Ne.symm hjq, hjq, Ne.symm hjp, hjp]

section
variable (hl : Holds node l (as ++ i :: bs))
include hl

lemma deleteNode_snd :
   (deleteNode node l i).2 = ⟨(as ++ bs).head?, (as ++ bs).getLast?, (as ++ bs).length⟩ := by
  have hnode := hl.link as i bs rfl
  have hcount : l.count - 1 = (as ++ bs).length := by
    rw [hl.count]
    simp
  have hfirst := hl.first
  have hlast := hl.last
  unfold deleteNode
  rw [hnode]
  rcases eq_nil_or_concat as with rfl | ⟨as, p, rfl⟩
  · cases bs with
    | nil => simpa using hcount
    | cons => simp_all
  · cases bs with
    | nil =>
      have hp := hl.link as p [i] (by simp)
      simp_all
    | cons => simp_all

lemma deleteNode_of_not_mem (hj : j ∉ as ++ i :: bs) : (deleteNode node l i).1 j = node j := by
  have hprev : as.getLast? ≠ some j := fun h =>
    hj (mem_append_left _ (mem_of_getLast? h))
  have hnext : bs.head? ≠ some j := fun h =>
    hj (mem_append_right as (mem_cons_of_mem i (mem_of_head? h)))
  rw [deleteNode_apply, hl.link as i bs rfl, if_neg hprev, if_neg hnext]

lemma delete :
    Holds (deleteNode node l i).1 (deleteNode node l i).2 (as ++ bs) := by
  have hnode := hl.link as i bs rfl
  have hnodup : (as ++ bs).Nodup := hl.nodup.sublist (by simp)
  rw [deleteNode_snd hl]
  refine ⟨hnodup, rfl, rfl, rfl, fun cs j ds heq => ?_⟩
  rw [deleteNode_apply, hnode]
  have hdis : ∀ a ∈ as, a ∉ bs := fun a ha hb =>
   (nodup_append.mp hnodup).2.2 a ha a hb rfl
  rcases append_eq_append_iff.mp heq with ⟨es, rfl, rfl⟩ | ⟨es, rfl, hds⟩
  · -- a node behind the deleted one
    have hold := hl.link (as ++ i :: es) j ds (by simp)
    have hnext : as.getLast? ≠ some j := fun h =>
      hdis j (mem_of_getLast? h) (mem_append_right es mem_cons_self)
    rw [hold, if_neg hnext]
    cases es with
    | nil => simp
    | cons e =>
      have hne : e ≠ j := by
        rintro rfl
        have := (nodup_append.mp hnodup).2.1
        simp at this
      simp [hne]
  · -- a node before it, or the next one again
    cases es with
    | nil =>
      obtain rfl : bs = j :: ds := by simpa using hds.symm
      have hold := hl.link (cs ++ [i]) j ds (by simp)
      have hnext : cs.getLast? ≠ some j := fun h =>
        hdis j (by simpa using mem_of_getLast? h) mem_cons_self
      simp [hold, hnext]
    | cons e es =>
      obtain ⟨rfl, rfl⟩ := cons.inj hds
      have hold := hl.link cs j (es ++ i :: bs) (by simp)
      have hprev : bs.head? ≠ some j := fun h =>
        hdis j (by simp) (mem_of_head? h)
      rw [hold, if_neg hprev]
      cases es with
      | nil => simp
      | cons e es =>
        have hne : (e :: es).getLast? ≠ some j := by
          intro h
          have hmem := mem_of_getLast? h
          have := (nodup_append.mp (nodup_append.mp hnodup).1).2.1
          exact (nodup_cons.mp this).1 hmem
        simp [hne]

end

end Holds

end DList

end Cantian.Lib
