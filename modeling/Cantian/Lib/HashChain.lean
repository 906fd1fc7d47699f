import Cantian.Lib.LinkedPool

/-!
# Chains of a hash map over a pool of items

A bucket has the number of its items and the first of them; the items of a
bucket are chained by the links of their cells. A new item goes to the front
of its chain, and an item is removed by value.
-/

namespace Cantian.Lib

open Function List

structure Bucket where
  count : Nat
  first : Option Nat
deriving DecidableEq, Repr

namespace ItemPool

variable {α : Type*}

def chainAdd (p : ItemPool α) (b : Bucket) (i : Nat) : ItemPool α × Bucket :=
  (p.setCell i { p.cell i with next := if b.count = 0 then none else b.first },
    ⟨b.count + 1, some i⟩)

def chainFind (p : ItemPool α) (f : α → Bool) (b : Bucket) : Option Nat :=
  p.search f b.count b.first

/-- The loop of `chainRemove`: the item before and the item to look at. -/
def chainRemoveLoop (p : ItemPool α) (f : α → Bool) (b : Bucket) :
    Nat → Option Nat → Option Nat → ItemPool α × Bucket
  | 0, _, _ => (p, b)
  | _ + 1, _, none => (p, b)
  | fuel + 1, pre, some i =>
    if f (p.cell i).val then
      match pre with
      | none => (p, ⟨b.count - 1, (p.cell i).next⟩)
      | some j =>
        (p.setCell j { p.cell j with next := (p.cell i).next }, { b with count := b.count - 1 })
    else chainRemoveLoop p f b fuel (some i) (p.cell i).next

/-- The first item whose value satisfies `f` leaves the chain. -/
def chainRemove (p : ItemPool α) (f : α → Bool) (b : Bucket) : ItemPool α × Bucket :=
  chainRemoveLoop p f b b.count none b.first

end ItemPool

section
variable {α : Type*} {p p' : ItemPool α} {b : Bucket} {h : Option Nat} {i j : Nat}
  {ids as bs : List Nat} {f : α → Bool}

lemma ItemPool.setNext_val (p : ItemPool α) (i : Nat) (h : Option Nat) (j : Nat) :
    ((p.setCell i { p.cell i with next := h }).cell j).val = (p.cell j).val :=
  apply_update_eq (f := Cell.val) (by rfl) j

/-- The cell behind `j` leaves the chain. -/
lemma Linked.unlinkNext (hl : Linked p h (as ++ j :: i :: bs))
    (hnodup : (as ++ j :: i :: bs).Nodup) :
    Linked (p.setCell j { p.cell j with next := (p.cell i).next }) h (as ++ j :: bs) := by
  induction as generalizing h with
  | nil =>
    obtain ⟨hh, -, hl⟩ := hl
    have hj : j ∉ bs := fun hmem =>
      (nodup_cons.mp hnodup).1 (mem_cons_of_mem i hmem)
    refine ⟨hh, ?_⟩
    show Linked _ (update p.cell j _ j).next bs
    rw [update_self]
    exact hl.setCell hj _
  | cons a as ih =>
    obtain ⟨hh, hl⟩ := hl
    obtain ⟨ha, hnodup⟩ := nodup_cons.mp hnodup
    have haj : a ≠ j := fun haj => ha (haj ▸ mem_append_right as mem_cons_self)
    refine ⟨hh, ?_⟩
    show Linked _ (update p.cell j _ a).next (as ++ j :: bs)
    rw [update_of_ne haj]
    exact ih hl hnodup

/-- Where the loop stops, and with which item before. -/
lemma Linked.chainRemoveLoop_eq (hl : Linked p h (as ++ i :: bs)) (hi : f (p.cell i).val = true)
    (has : ∀ a ∈ as, f (p.cell a).val = false) {fuel} (hfuel : as.length < fuel)
    (pre : Option Nat) : p.chainRemoveLoop f b fuel pre h =
      match (as.getLast?).or pre with
      | none => (p, ⟨b.count - 1, (p.cell i).next⟩)
      | some j =>
        (p.setCell j { p.cell j with next := (p.cell i).next },
          { b with count := b.count - 1 }) := by
  induction as generalizing h fuel pre with
  | nil =>
    obtain ⟨rfl, -⟩ := hl
    cases fuel with
    | zero => exact absurd hfuel (Nat.not_lt_zero _)
    | succ =>
      show (if f (p.cell i).val then _ else _) = _
      rw [if_pos hi]
      rfl
  | cons a as ih =>
    obtain ⟨rfl, hl⟩ := hl
    cases fuel with
    | zero => exact absurd hfuel (Nat.not_lt_zero _)
    | succ fuel =>
      have ha : ¬ f (p.cell a).val = true := by
        rw [has a mem_cons_self]
        exact Bool.false_ne_true
      show (if f (p.cell a).val then _ else p.chainRemoveLoop f b fuel (some a) (p.cell a).next) = _
      rw [if_neg ha,
        ih hl (fun c hc => has c (mem_cons_of_mem a hc)) (Nat.lt_of_succ_lt_succ hfuel)]
      cases as with
      | nil => rfl
      | cons c as =>
        rw [getLast?_cons_cons, getLast?_eq_some_getLast (cons_ne_nil c as)]
        rfl

/-- The bucket has the items `ids`, in their order. -/
structure Chained (p : ItemPool α) (b : Bucket) (ids : List Nat) : Prop where
  count : b.count = ids.length
  links : ids ≠ [] → Linked p b.first ids

namespace Chained

lemma congr (hc : Chained p b ids) (heq : ∀ i ∈ ids, (p'.cell i).next = (p.cell i).next) :
    Chained p' b ids :=
  ⟨hc.count, fun hne => (hc.links hne).congr heq⟩

lemma find_eq (hc : Chained p b ids) (f : α → Bool) :
    p.chainFind f b = ids.find? fun i => f (p.cell i).val := by
  cases ids with
  | nil =>
    have hzero : b.count = 0 := hc.count
    unfold ItemPool.chainFind
    rw [hzero]
    cases b.first <;> rfl
  | cons i ids => exact (hc.links (cons_ne_nil i ids)).search_eq f (Nat.le_of_eq hc.count.symm)

lemma add (hc : Chained p b ids) (hi : i ∉ ids) :
    Chained (p.chainAdd b i).1 (p.chainAdd b i).2 (i :: ids) := by
  refine ⟨congrArg (· + 1) hc.count, fun _ => ⟨rfl, ?_⟩⟩
  show Linked _ (update p.cell i _ i).next ids
  rw [update_self]
  cases ids with
  | nil => exact if_pos hc.count
  | cons a ids =>
    have hpos : b.count ≠ 0 := by
      rw [hc.count]
      exact Nat.succ_ne_zero _
    rw [if_neg hpos]
    exact (hc.links (cons_ne_nil a ids)).setCell hi _

/-- The item is removed, and only the link of an item before it changes. -/
lemma remove (hc : Chained p b (as ++ i :: bs)) (hnodup : (as ++ i :: bs).Nodup)
    (hi : f (p.cell i).val = true) (has : ∀ a ∈ as, f (p.cell a).val = false) :
    Chained (p.chainRemove f b).1 (p.chainRemove f b).2 (as ++ bs) ∧
      (p.chainRemove f b).1.freeList = p.freeList ∧
      (∀ j, ((p.chainRemove f b).1.cell j).val = (p.cell j).val) ∧
      ∀ j ∉ as, (p.chainRemove f b).1.cell j = p.cell j := by
  have hlinks := hc.links (by simp)
  have hcount : b.count - 1 = (as ++ bs).length := by
    rw [hc.count]
    simp
  have hfuel : as.length < b.count := by
    rw [hc.count]
    simp
  unfold ItemPool.chainRemove
  rw [hlinks.chainRemoveLoop_eq hi has hfuel none]
  rcases eq_nil_or_concat as with rfl | ⟨as, j, rfl⟩
  · exact ⟨⟨hcount, fun _ => hlinks.2⟩, rfl, fun _ => rfl, fun _ _ => rfl⟩
  have hlast : ((as.concat j).getLast?).or none = some j := by simp
  rw [hlast]
  refine ⟨⟨hcount, fun _ => ?_⟩, rfl, p.setNext_val j _, fun k hk => ?_⟩
  · have hsplit : as.concat j ++ i :: bs = as ++ j :: i :: bs := by simp
    have hsplit' : as.concat j ++ bs = as ++ j :: bs := by simp
    rw [hsplit] at hlinks hnodup
    rw [hsplit']
    exact hlinks.unlinkNext hnodup
  · have hkj : k ≠ j := by
      rintro rfl
      simp at hk
    exact update_of_ne hkj ..

end Chained

end

end Cantian.Lib
