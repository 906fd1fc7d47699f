import Mathlib.Data.List.Nodup
import Mathlib.Data.List.Perm.Basic
import Cantian.Lib.Transition

/-!
# Linked queues over a pool of items

An item is a cell with a link and a value. The free cells of a pool are
chained by their links, and so are the cells of a queue, which also knows
its last cell and how many it has. A cell has one link only, so a cell that
is freed twice, or freed while it is still in a queue, breaks both chains.

`Custody` says that every cell is in exactly one place: in the chain of the
free cells, in the queue, or with some other holder. Its lemmas say what
each operation does to it.
-/

namespace Cantian.Lib

open Function List

structure Cell (α : Type*) where
  next : Option Nat
  val : α

structure ItemPool (α : Type*) where
  cell : Nat → Cell α
  freeList : Option Nat

structure LinkedQueue where
  first : Option Nat
  last : Option Nat
  count : Nat
deriving DecidableEq, Repr

def LinkedQueue.empty : LinkedQueue := ⟨none, none, 0⟩

namespace ItemPool

variable {α : Type*}

def setCell (p : ItemPool α) (i : Nat) (c : Cell α) : ItemPool α :=
  { p with cell := update p.cell i c }

def alloc (p : ItemPool α) : Option (Nat × ItemPool α) :=
  p.freeList.map fun i => (i, { p with freeList := (p.cell i).next })

def free (p : ItemPool α) (i : Nat) : ItemPool α :=
  { p.setCell i { p.cell i with next := p.freeList } with freeList := some i }

/-- Put the cell `i` with the value `v` at the end of the queue. -/
def enqueue (p : ItemPool α) (q : LinkedQueue) (i : Nat) (v : α) : ItemPool α × LinkedQueue :=
  let p := p.setCell i ⟨none, v⟩
  if q.count = 0 then (p, ⟨some i, some i, q.count + 1⟩)
  else
    let q' := { q with last := some i, count := q.count + 1 }
    match q.last with
    | none => (p, q')
    | some t => (p.setCell t { p.cell t with next := some i }, q')

/-- The queue without its first cell. -/
def unlink (p : ItemPool α) (q : LinkedQueue) (i : Nat) : LinkedQueue :=
  { q with first := (p.cell i).next, count := q.count - 1 }

/-- The first cell from `h` on whose value satisfies `f`. -/
def search (p : ItemPool α) (f : α → Bool) : Nat → Option Nat → Option Nat
  | _, none => none
  | 0, some _ => none
  | fuel + 1, some i => if f (p.cell i).val then some i else search p f fuel (p.cell i).next

lemma setCell_self (p : ItemPool α) (i : Nat) (c : Cell α) : (p.setCell i c).cell i = c :=
  update_self ..

lemma setCell_of_ne (p : ItemPool α) {i j} (c : Cell α) (h : j ≠ i) :
    (p.setCell i c).cell j = p.cell j :=
  update_of_ne h ..

end ItemPool

section
variable {α : Type*} {p p' : ItemPool α} {q : LinkedQueue} {h : Option Nat} {i n : Nat}
  {ids other : List Nat}

/-- The links from `h` on lead through the cells `ids` and end there. -/
def Linked (p : ItemPool α) : Option Nat → List Nat → Prop
  | h, [] => h = none
  | h, i :: ids => h = some i ∧ Linked p (p.cell i).next ids

lemma Linked.congr (hl : Linked p h ids) (heq : ∀ i ∈ ids, (p'.cell i).next = (p.cell i).next) :
    Linked p' h ids := by
  induction ids generalizing h with
  | nil => exact hl
  | cons i ids ih =>
    obtain ⟨hh, hl⟩ := hl
    refine ⟨hh, ?_⟩
    rw [heq i mem_cons_self]
    exact ih hl fun j hj => heq j (mem_cons_of_mem i hj)

lemma Linked.setCell (hl : Linked p h ids) (hi : i ∉ ids) (c : Cell α) :
    Linked (p.setCell i c) h ids := by
  refine hl.congr fun j hj => ?_
  rw [p.setCell_of_ne c (ne_of_mem_of_not_mem hj hi)]

lemma Linked.append {t} (hl : Linked p h (ids ++ [t])) (hnodup : (ids ++ [t]).Nodup)
    (hi : i ∉ ids ++ [t]) (hend : (p.cell i).next = none) :
    Linked (p.setCell t { p.cell t with next := some i }) h (ids ++ [t] ++ [i]) := by
  induction ids generalizing h with
  | nil =>
    obtain ⟨hh, -⟩ := hl
    refine ⟨hh, ?_, ?_⟩
    · rw [p.setCell_self]
    · have hne : i ≠ t := fun hit => hi (hit ▸ mem_singleton_self i)
      show ((p.setCell t _).cell i).next = none
      rw [p.setCell_of_ne _ hne, hend]
  | cons j ids ih =>
    obtain ⟨hh, hl⟩ := hl
    obtain ⟨hj, hnodup⟩ := nodup_cons.mp hnodup
    refine ⟨hh, ?_⟩
    have hjt : j ≠ t := fun hjt => hj (hjt ▸ mem_append_right ids (mem_singleton_self j))
    rw [p.setCell_of_ne _ hjt]
    exact ih hl hnodup fun hmem => hi (mem_cons_of_mem j hmem)

/-- The search looks at the values in their order, when there is fuel for
all of them. -/
lemma Linked.search_eq (hl : Linked p h ids) (f : α → Bool) {fuel} (hfuel : ids.length ≤ fuel) :
    p.search f fuel h = ids.find? fun i => f (p.cell i).val := by
  induction ids generalizing h fuel with
  | nil =>
    obtain rfl : h = none := hl
    cases fuel <;> rfl
  | cons i ids ih =>
    obtain ⟨rfl, hl⟩ := hl
    cases fuel with
    | zero => exact absurd hfuel (Nat.not_succ_le_zero _)
    | succ =>
      rw [ItemPool.search, find?_cons]
      cases hf : f (p.cell i).val
      · exact ih hl (Nat.le_of_succ_le_succ hfuel)
      · rfl

/-- The links determine the cells. -/
lemma Linked.unique {ids'} (hl : Linked p h ids) (hl' : Linked p h ids') : ids = ids' := by
  induction ids generalizing h ids' with
  | nil =>
    obtain rfl : h = none := hl
    cases ids' with
    | nil => rfl
    | cons => cases hl'.1
  | cons i ids ih =>
    obtain ⟨rfl, hl⟩ := hl
    cases ids' with
    | nil => cases hl'
    | cons =>
      obtain ⟨hj, hl'⟩ := hl'
      cases hj
      rw [ih hl hl']

/-- Of the `n` cells of the pool, `ids` are in the queue, in their order,
`other` are with other holders, and the rest is free. -/
structure Custody (p : ItemPool α) (n : Nat) (q : LinkedQueue) (ids other : List Nat) : Prop where
  links : Linked p q.first ids
  count : q.count = ids.length
  last : ∀ t, ids.getLast? = some t → q.last = some t
  free : ∃ free, Linked p p.freeList free ∧ (free ++ ids ++ other).Perm (List.range n)

namespace Custody

lemma nodup_append_of_perm {free} (h : (free ++ ids ++ other).Perm (List.range n)) :
    free.Nodup ∧ (ids ++ other).Nodup ∧ ∀ i ∈ free, ∀ j ∈ ids ++ other, i ≠ j := by
  have hall := h.nodup_iff.mpr nodup_range
  rw [append_assoc] at hall
  exact nodup_append.mp hall

section
variable (hc : Custody p n q ids other)
include hc

lemma nodup : (ids ++ other).Nodup := by
  obtain ⟨free, -, hperm⟩ := hc.free
  exact (nodup_append_of_perm hperm).2.1

lemma length_le : ids.length ≤ n := by
  obtain ⟨free, -, hperm⟩ := hc.free
  have hlen := hperm.length_eq
  simp only [length_append, length_range] at hlen
  omega

/-- A cell of another holder is neither free nor in the queue. -/
lemma not_mem (hi : i ∈ other) :
    i ∉ ids ∧ ∀ free, (free ++ ids ++ other).Perm (List.range n) → i ∉ free := by
  constructor
  · intro hids
    exact (nodup_append.mp hc.nodup).2.2 i hids i hi rfl
  · intro free hperm hfree
    exact (nodup_append_of_perm hperm).2.2 i hfree i (mem_append_right ids hi) rfl

lemma perm {other'} (hp : other.Perm other') : Custody p n q ids other' := by
  obtain ⟨free, hfree, hperm⟩ := hc.free
  exact ⟨hc.links, hc.count, hc.last, free, hfree,
    ((List.Perm.append_left (free ++ ids) hp).symm).trans hperm⟩

lemma setCell (hi : i ∈ other) (c : Cell α) : Custody (p.setCell i c) n q ids other := by
  obtain ⟨hids, hnfree⟩ := hc.not_mem hi
  obtain ⟨free, hfree, hperm⟩ := hc.free
  exact ⟨hc.links.setCell hids c, hc.count, hc.last, free,
    hfree.setCell (hnfree free hperm) c, hperm⟩

lemma setVal (i : Nat) (v : α) :
    Custody (p.setCell i { p.cell i with val := v }) n q ids other := by
  have hsame : ∀ j, ((p.setCell i { p.cell i with val := v }).cell j).next = (p.cell j).next :=
    apply_update_eq (f := Cell.next) rfl
  obtain ⟨free, hfree, hperm⟩ := hc.free
  exact ⟨hc.links.congr fun j _ => hsame j, hc.count, hc.last, free,
    hfree.congr fun j _ => hsame j, hperm⟩

lemma alloc (ha : p.alloc = some (i, p')) :
    Custody p' n q ids (i :: other) ∧ ∀ j, p'.cell j = p.cell j := by
  obtain ⟨j, hj, heq⟩ := Option.map_eq_some_iff.mp ha
  obtain ⟨rfl, rfl⟩ := Prod.mk.inj heq
  obtain ⟨free, hfree, hperm⟩ := hc.free
  rw [hj] at hfree
  cases free with
  | nil => cases hfree
  | cons k free =>
    obtain ⟨hk, hfree⟩ := hfree
    cases hk
    refine ⟨⟨hc.links.congr fun _ _ => rfl, hc.count, hc.last, free,
      hfree.congr fun _ _ => rfl, ?_⟩, fun _ => rfl⟩
    exact perm_middle.trans hperm

end

lemma freeItem (hc : Custody p n q ids (i :: other)) : Custody (p.free i) n q ids other := by
  obtain ⟨hids, hnfree⟩ := hc.not_mem mem_cons_self
  obtain ⟨free, hfree, hperm⟩ := hc.free
  have hcell : ∀ {h l}, Linked p h l → i ∉ l → Linked (p.free i) h l := by
    intro h l hl hil
    exact (hl.setCell hil _).congr fun _ _ => rfl
  refine ⟨hcell hc.links hids, hc.count, hc.last, i :: free, ⟨rfl, ?_⟩, ?_⟩
  · have hnext : (p.free i).cell i = { p.cell i with next := p.freeList } := p.setCell_self ..
    rw [hnext]
    exact hcell hfree (hnfree free hperm)
  · exact perm_middle.symm.trans hperm

lemma unlink (hc : Custody p n q (i :: ids) other) :
    q.first = some i ∧ Custody p n (p.unlink q i) ids (i :: other) := by
  obtain ⟨hfirst, hlinks⟩ := hc.links
  obtain ⟨free, hfree, hperm⟩ := hc.free
  refine ⟨hfirst, hlinks, ?_, fun t ht => ?_, free, hfree, ?_⟩
  · show q.count - 1 = ids.length
    rw [hc.count]
    rfl
  · refine hc.last t ?_
    cases ids with
    | nil => cases ht
    | cons => exact ht
  · refine List.Perm.trans ?_ hperm
    rw [append_assoc, append_assoc]
    exact List.Perm.append_left free perm_middle

lemma enqueue (hc : Custody p n q ids (i :: other)) (v : α) :
    Custody (p.enqueue q i v).1 n (p.enqueue q i v).2 (ids ++ [i]) other ∧
      (((p.enqueue q i v).1.cell i).val = v) ∧
      ∀ j ≠ i, ((p.enqueue q i v).1.cell j).val = (p.cell j).val := by
  obtain ⟨hids, hnfree⟩ := hc.not_mem mem_cons_self
  have hset := hc.setCell mem_cons_self ⟨none, v⟩
  have hown := p.setCell_self i ⟨none, v⟩
  have hother := fun j => p.setCell_of_ne (i := i) (j := j) ⟨none, v⟩
  have hperm : ∀ free, (free ++ ids ++ i :: other).Perm (range n) →
      (free ++ (ids ++ [i]) ++ other).Perm (range n) := by
    intro free hperm
    refine List.Perm.trans (List.Perm.of_eq ?_) hperm
    simp
  unfold ItemPool.enqueue
  cases ids with
  | nil =>
    have hzero : q.count = 0 := hc.count
    obtain ⟨free, hfree, hp⟩ := hset.free
    simp only [hzero, if_true]
    refine ⟨⟨⟨rfl, ?_⟩, rfl, fun t ht => ht, free, hfree, hperm free hp⟩, ?_, ?_⟩
    · rw [hown]
      rfl
    · rw [hown]
    · intro j hj
      rw [hother j hj]
  | cons a l =>
    have hpos : q.count ≠ 0 := by
      rw [hc.count]
      exact Nat.succ_ne_zero _
    obtain ⟨t, ht⟩ : ∃ t, (a :: l).getLast? = some t :=
      ⟨_, getLast?_eq_some_getLast (cons_ne_nil a l)⟩
    obtain ⟨pre, hpre⟩ := getLast?_eq_some_iff.mp ht
    have hlast := hc.last t ht
    have htmem : t ∈ a :: l := by
      rw [hpre]
      exact mem_append_right pre (mem_singleton_self t)
    have hti : t ≠ i := fun hti => hids (hti ▸ htmem)
    obtain ⟨free, hfree, hp⟩ := hset.free
    have htfree : t ∉ free := fun hmem =>
      (nodup_append_of_perm hp).2.2 t hmem t (mem_append_left _ htmem) rfl
    have hnodup : (a :: l).Nodup := (nodup_append.mp hc.nodup).1
    simp only [hpos, if_false, hlast]
    refine ⟨⟨?_, ?_, ?_, free, (hfree.setCell htfree _).congr fun _ _ => rfl, hperm free hp⟩,
      ?_, ?_⟩
    · have hlinks := hset.links
      rw [hpre] at hlinks hnodup hids ⊢
      exact hlinks.append hnodup hids (by rw [hown])
    · rw [hc.count, length_append]
      rfl
    · intro t' ht'
      rw [getLast?_concat] at ht'
      exact ht'
    · rw [ItemPool.setCell_of_ne _ _ (Ne.symm hti), hown]
    · intro j hj
      rw [← hother j hj]
      exact apply_update_eq (f := Cell.val) (by rfl) j

end Custody

/-! ## The values in a queue -/

/-- The queue holds the values `l`, in their order. -/
def Queued (p : ItemPool α) (n : Nat) (q : LinkedQueue) (other : List Nat) (l : List α) : Prop :=
  ∃ ids, Custody p n q ids other ∧ l = ids.map fun i => (p.cell i).val

namespace Queued

variable {l : List α} {v : α} {f : α → Bool}

lemma count (hq : Queued p n q other l) : q.count = l.length := by
  obtain ⟨ids, hc, rfl⟩ := hq
  rw [hc.count, length_map]

/-- The pool has one cell after the other in its chain, and no queue has
any. -/
lemma init (hl : Linked p p.freeList (List.range n)) : Queued p n .empty [] ([] : List α) := by
  refine ⟨[], ⟨rfl, rfl, fun t ht => ?_, range n, hl, ?_⟩, rfl⟩
  · cases ht
  · rw [append_nil, append_nil]

/-- An empty queue may be written as a new one. -/
lemma renew (hq : Queued p n q other ([] : List α)) : Queued p n .empty other [] := by
  obtain ⟨ids, hc, hids⟩ := hq
  obtain rfl : ids = [] := map_eq_nil_iff.mp hids.symm
  refine ⟨[], ⟨rfl, rfl, fun t ht => ?_, hc.free⟩, rfl⟩
  cases ht

lemma otherAlloc (hq : Queued p n q other l) (ha : p.alloc = some (i, p')) :
    Queued p' n q (i :: other) l := by
  obtain ⟨ids, hc, rfl⟩ := hq
  obtain ⟨hc', hcell⟩ := hc.alloc ha
  exact ⟨ids, hc', map_congr_left fun j _ => by rw [hcell j]⟩

lemma otherWrite (hq : Queued p n q other l) (hi : i ∈ other) (c : Cell α) :
    Queued (p.setCell i c) n q other l := by
  obtain ⟨ids, hc, rfl⟩ := hq
  refine ⟨ids, hc.setCell hi c, map_congr_left fun j hj => ?_⟩
  rw [p.setCell_of_ne c (ne_of_mem_of_not_mem hj (hc.not_mem hi).1)]

lemma otherFree (hq : Queued p n q (i :: other) l) : Queued (p.free i) n q other l := by
  obtain ⟨ids, hc, rfl⟩ := hq
  refine ⟨ids, hc.freeItem, map_congr_left fun j hj => ?_⟩
  have hne : j ≠ i := fun hji => (hc.not_mem mem_cons_self).1 (hji ▸ hj)
  exact congrArg Cell.val (p.setCell_of_ne _ hne).symm

lemma perm {other'} (hq : Queued p n q other l) (hp : other.Perm other') :
    Queued p n q other' l := by
  obtain ⟨ids, hc, hl⟩ := hq
  exact ⟨ids, hc.perm hp, hl⟩

lemma push (hq : Queued p n q other l) (ha : p.alloc = some (i, p')) (v : α) :
    Queued (p'.enqueue q i v).1 n (p'.enqueue q i v).2 other (l ++ [v]) := by
  obtain ⟨ids, hc, rfl⟩ := hq.otherAlloc ha
  obtain ⟨hc', hown, hother⟩ := hc.enqueue v
  refine ⟨ids ++ [i], hc', ?_⟩
  rw [map_append, map_singleton, hown]
  refine congrArg (· ++ [v]) (map_congr_left fun j hj => ?_)
  exact (hother j fun hji => (hc.not_mem mem_cons_self).1 (hji ▸ hj)).symm

lemma pop (hq : Queued p n q other (v :: l)) :
    ∃ i, q.first = some i ∧ (p.cell i).val = v ∧ Queued (p.free i) n (p.unlink q i) other l := by
  obtain ⟨ids, hc, hids⟩ := hq
  cases ids with
  | nil => cases hids
  | cons i ids =>
    obtain ⟨rfl, rfl⟩ := cons.inj hids
    obtain ⟨hfirst, hc'⟩ := hc.unlink
    exact ⟨i, hfirst, rfl, otherFree ⟨ids, hc', rfl⟩⟩

lemma search_none (hq : Queued p n q other l) (hs : p.search f n q.first = none) :
    ∀ v ∈ l, f v = false := by
  obtain ⟨ids, hc, rfl⟩ := hq
  rw [hc.links.search_eq f hc.length_le] at hs
  intro v hv
  obtain ⟨i, hi, rfl⟩ := mem_map.mp hv
  simpa using find?_eq_none.mp hs i hi

/-- The value that a search found is replaced. -/
lemma replace (hq : Queued p n q other l) (hs : p.search f n q.first = some i) (v : α) :
    ∃ l1 l2, l = l1 ++ (p.cell i).val :: l2 ∧ f (p.cell i).val = true ∧ (∀ u ∈ l1, f u = false) ∧
      Queued (p.setCell i { p.cell i with val := v }) n q other (l1 ++ v :: l2) := by
  obtain ⟨ids, hc, rfl⟩ := hq
  rw [hc.links.search_eq f hc.length_le] at hs
  obtain ⟨hf, as, bs, rfl, has⟩ := find?_eq_some_iff_append.mp hs
  have hnodup : (as ++ i :: bs).Nodup := (nodup_append.mp hc.nodup).1
  obtain ⟨-, hbs, hdis⟩ := nodup_append.mp hnodup
  refine ⟨as.map fun i => (p.cell i).val, bs.map fun i => (p.cell i).val, ?_, hf, ?_,
    as ++ i :: bs, hc.setVal i v, ?_⟩
  · rw [map_append, map_cons]
  · intro u hu
    obtain ⟨j, hj, rfl⟩ := mem_map.mp hu
    simpa using has j hj
  · -- the cell occurs once, so no other value changes
    rw [map_append, map_cons, p.setCell_self]
    congr 1
    · refine map_congr_left fun j hj => ?_
      rw [p.setCell_of_ne _ (hdis j hj i mem_cons_self)]
    · refine congrArg (v :: ·) (map_congr_left fun j hj => ?_)
      rw [p.setCell_of_ne _ (ne_of_mem_of_not_mem hj (nodup_cons.mp hbs).1)]

end Queued

end

end Cantian.Lib
