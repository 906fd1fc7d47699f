import Mathlib.Data.Prod.Lex
import Mathlib.Data.Set.Insert
import Mathlib.Order.WithBot

/-!
# Merging the ranges of an index scan

A condition on an indexed column is a list of ranges that is built one range at
a time: a new range swallows those that it overlaps or touches. Two ranges that
touch are made one even if both exclude the value between them, and the
comparison of an infinite border with itself does not say that they are equal.
-/

namespace Cantian.Plan

open List

/-- `border_type_t`; a border of a scan is calculated. -/
inductive BorderType where
  | infiniteLeft
  | infiniteRight
  | const
  | isNull
deriving DecidableEq

/-- `range_type_t`. -/
inductive RangeType where
  | rangeEmpty
  | rangeFull
  | rangeSection
  | rangePoint
  | rangeList
  | rangeLike
  | rangeAny
  | rangeUnknown
deriving DecidableEq

/-- `range_list_type_t`. -/
inductive RangeListType where
  | rangeListEmpty
  | rangeListFull
  | rangeListNormal
deriving DecidableEq

/-- `range_merge_mode_t`. -/
inductive RangeMergeMode where
  | mergeEqual
  | mergeLessGreat
  | mergeGreatLess
deriving DecidableEq

structure ScanBorder (α : Type*) where
  type : BorderType
  var : α
  closed : Bool

structure ScanRange (α : Type*) where
  left : ScanBorder α
  right : ScanBorder α
  type : RangeType

structure ScanRangeList (α : Type*) where
  type : RangeListType
  ranges : List (ScanRange α)

variable {α : Type*} [LinearOrder α]

def sqlQuickCompareBorder (b₁ b₂ : ScanBorder α) : Option Ordering :=
  match b₁.type, b₂.type with
  | .infiniteLeft, _ => some .lt
  | .infiniteRight, _ => some .gt
  | _, .infiniteLeft => some .gt
  | _, .infiniteRight => some .lt
  | .isNull, .isNull => some .eq
  | .isNull, .const => some .gt
  | .const, .isNull => some .lt
  | .const, .const => none

/-- The comparisons of two borders differ for two borders at one value. -/
def compareBorder (tie : Bool → Bool → Ordering) (b₁ b₂ : ScanBorder α) : Ordering :=
  (sqlQuickCompareBorder b₁ b₂).getD ((compare b₁.var b₂.var).then (tie b₁.closed b₂.closed))

def sqlCompareRightBorder : ScanBorder α → ScanBorder α → Ordering :=
  compareBorder fun c₁ c₂ =>
    if c₁ then if c₂ then .eq else .gt else if c₂ then .lt else .eq

def sqlCompareLeftBorder : ScanBorder α → ScanBorder α → Ordering :=
  compareBorder fun c₁ c₂ =>
    if c₁ then if c₂ then .eq else .lt else if c₂ then .gt else .eq

def sqlCompareBorderWithRelaxedRule : ScanBorder α → ScanBorder α → Ordering :=
  compareBorder fun _ _ => .eq

/-- The loop of `sql_merge_scan_range`: the last range that begins before the
border `right` ends, after `last`, and the ranges behind it. -/
def mergeLoop (right : ScanBorder α) (last : ScanRange α) :
    List (ScanRange α) → ScanRange α × List (ScanRange α)
  | [] => (last, [])
  | t :: ts =>
    if (sqlCompareBorderWithRelaxedRule right t.left).isGE then mergeLoop right t ts
    else (last, t :: ts)

/-- `sql_merge_scan_range` at the range `r` of the list, with `rs` behind it. -/
def sqlMergeScanRange (r : ScanRange α) (rs : List (ScanRange α)) (range : ScanRange α)
    (mode : RangeMergeMode) : List (ScanRange α) :=
  let r :=
    if mode = .mergeLessGreat then { r with type := .rangeSection, left := range.left } else r
  if (sqlCompareRightBorder range.right r.right).isLE then r :: rs
  else
    let (mergeRange, rest) := mergeLoop range.right r rs
    let right := if (sqlCompareRightBorder range.right mergeRange.right).isGE then range.right
      else mergeRange.right
    { r with type := .rangeSection, right := right } :: rest

/-- The loop of `sql_put_scan_range`. -/
def putLoop (range : ScanRange α) : List (ScanRange α) → List (ScanRange α)
  | [] => [range]
  | r :: rs =>
    match sqlCompareLeftBorder range.left r.left with
    | .eq => sqlMergeScanRange r rs range .mergeEqual
    | .lt =>
      if (sqlCompareBorderWithRelaxedRule range.right r.left).isGE then
        sqlMergeScanRange r rs range .mergeLessGreat
      else range :: r :: rs
    | .gt =>
      if (sqlCompareBorderWithRelaxedRule range.left r.right).isLE then
        sqlMergeScanRange r rs range .mergeGreatLess
      else r :: putLoop range rs

def sqlPutScanRange (list : ScanRangeList α) (range : ScanRange α) : ScanRangeList α :=
  match range.type with
  | .rangeEmpty | .rangeUnknown | .rangeAny => list
  | .rangeFull => { list with type := .rangeListFull }
  | _ =>
    if list.ranges.length = 0 then ⟨.rangeListNormal, [range]⟩
    else { list with ranges := putLoop range list.ranges }

/-! ## Borders as cuts -/

namespace ScanBorder

/-- The end value; the values of the column are `WithTop α`, with NULL on top. -/
def pos (b : ScanBorder α) : WithBot (WithTop (WithTop α)) :=
  match b.type with
  | .infiniteLeft => ⊥
  | .infiniteRight => .some ⊤
  | .const => .some (.some (.some b.var))
  | .isNull => .some (.some ⊤)

def isClosed (b : ScanBorder α) : Bool :=
  match b.type with
  | .const => b.closed
  | _ => true

/-- A cut between the values: before the end value, or after it. -/
def cut (after : Bool → Bool) (b : ScanBorder α) : WithBot (WithTop (WithTop α)) ×ₗ Bool :=
  toLex (b.pos, after b.isClosed)

/-- A left border excludes its value when it is open. -/
def leftCut (b : ScanBorder α) : WithBot (WithTop (WithTop α)) ×ₗ Bool := b.cut not

/-- A right border excludes its value when it is open. -/
def rightCut (b : ScanBorder α) : WithBot (WithTop (WithTop α)) ×ₗ Bool := b.cut id

/-- The value is not to the left of the border. -/
def After (b : ScanBorder α) (x : WithTop α) : Prop := b.leftCut ≤ toLex (.some (.some x), false)

/-- The value is not to the right of the border. -/
def Before (b : ScanBorder α) (x : WithTop α) : Prop := toLex (.some (.some x), true) ≤ b.rightCut

end ScanBorder

lemma compareBorder_spec {tie after} (htie : ∀ c d, ((tie c d).isLE = true → after c ≤ after d) ∧
      ((tie c d).isGE = true → after d ≤ after c)) (a b : ScanBorder α) :
    ((compareBorder tie a b).isLE = true → a.cut after ≤ b.cut after) ∧
      ((compareBorder tie a b).isGE = true → b.cut after ≤ a.cut after) := by
  obtain ⟨ta, va, ca⟩ := a
  obtain ⟨tb, vb, cb⟩ := b
  unfold compareBorder ScanBorder.cut
  cases ta <;> cases tb <;> simp [sqlQuickCompareBorder, ScanBorder.pos, ScanBorder.isClosed,
    Prod.Lex.toLex_le_toLex, -WithBot.coe_top]
  rcases lt_trichotomy va vb with h | rfl | h
  · simp [compare_lt_iff_lt.mpr h, h]
  · simpa using htie ca cb
  · simp [compare_gt_iff_gt.mpr h, h]

variable {a b : ScanBorder α}

/-- A right border and a left one are never the same infinite border. -/
lemma relaxed_isGE (ha : a.type ≠ .infiniteLeft) (hb : b.type ≠ .infiniteRight) :
    (sqlCompareBorderWithRelaxedRule a b).isGE = true ↔ b.pos ≤ a.pos := by
  obtain ⟨ta, va, ca⟩ := a
  obtain ⟨tb, vb, cb⟩ := b
  unfold sqlCompareBorderWithRelaxedRule compareBorder
  cases ta <;> cases tb <;>
    simp [sqlQuickCompareBorder, ScanBorder.pos, -WithBot.coe_top, Ordering.isGE_iff_ne_lt,
      compare_lt_iff_lt] at ha hb ⊢

lemma relaxed_isLE (ha : a.type ≠ .infiniteRight) (hb : b.type ≠ .infiniteLeft) :
    (sqlCompareBorderWithRelaxedRule a b).isLE = true ↔ a.pos ≤ b.pos := by
  obtain ⟨ta, va, ca⟩ := a
  obtain ⟨tb, vb, cb⟩ := b
  unfold sqlCompareBorderWithRelaxedRule compareBorder
  cases ta <;> cases tb <;>
    simp [sqlQuickCompareBorder, ScanBorder.pos, -WithBot.coe_top, Ordering.isLE_iff_ne_gt,
      compare_gt_iff_gt] at ha hb ⊢

lemma sqlCompareRightBorder_spec (a b : ScanBorder α) :
    ((sqlCompareRightBorder a b).isLE = true → a.rightCut ≤ b.rightCut) ∧
      ((sqlCompareRightBorder a b).isGE = true → b.rightCut ≤ a.rightCut) :=
  compareBorder_spec (by decide) a b

lemma sqlCompareLeftBorder_spec (a b : ScanBorder α) :
    ((sqlCompareLeftBorder a b).isLE = true → a.leftCut ≤ b.leftCut) ∧
      ((sqlCompareLeftBorder a b).isGE = true → b.leftCut ≤ a.leftCut) :=
  compareBorder_spec (by decide) a b

lemma cut_le_of_pos_lt {f} (h : a.pos < b.pos) : a.cut f ≤ b.cut f :=
  Prod.Lex.toLex_le_toLex.mpr (.inl h)

lemma pos_le {f} (h : a.cut f ≤ b.cut f) : a.pos ≤ b.pos :=
  Prod.Lex.monotone_fst _ _ h

/-- The value between two borders that touch. -/
lemma touching (h : b.pos ≤ a.pos) (x : WithTop α) :
    a.Before x ∨ b.After x ∨
      (a.pos = .some (.some x) ∧ b.pos = .some (.some x) ∧ ¬ a.Before x ∧ ¬ b.After x) := by
  by_cases ha : a.Before x
  · exact .inl ha
  by_cases hb : b.After x
  · exact .inr (.inl hb)
  have hax : a.pos ≤ .some (.some x) := Prod.Lex.monotone_fst _ _ (not_le.mp ha).le
  have hxb : .some (.some x) ≤ b.pos := Prod.Lex.monotone_fst _ _ (not_le.mp hb).le
  exact .inr (.inr ⟨le_antisymm hax (hxb.trans h), le_antisymm (h.trans hax) hxb, ha, hb⟩)

/-! ## The list of ranges -/

namespace ScanRange

def Contains (r : ScanRange α) (x : WithTop α) : Prop := r.left.After x ∧ r.right.Before x

/-- The range is neither empty nor full: its ends are in order. -/
structure Proper (r : ScanRange α) : Prop where
  left : r.left.type ≠ .infiniteRight
  right : r.right.type ≠ .infiniteLeft
  le : r.left.pos ≤ r.right.pos

lemma Contains.pos_le {r : ScanRange α} {x} (h : r.Contains x) :
    r.left.pos ≤ .some (.some x) ∧ .some (.some x) ≤ r.right.pos :=
  ⟨Prod.Lex.monotone_fst _ _ h.1, Prod.Lex.monotone_fst _ _ h.2⟩

/-- A range that contains a value. -/
lemma Contains.proper {r : ScanRange α} {x : WithTop α} (h : r.Contains x) : r.Proper where
  left hl := by
    have := h.pos_le.1
    simp [ScanBorder.pos, hl] at this
  right hr := by
    have := h.pos_le.2
    simp [ScanBorder.pos, hr] at this
  le := h.pos_le.1.trans h.pos_le.2

/-- The ranges that `sql_put_scan_range` puts into the list. -/
def Inserted (r : ScanRange α) : Prop :=
  r.type ∉ [RangeType.rangeEmpty, .rangeUnknown, .rangeAny, .rangeFull]

end ScanRange

/-- A range is made of the ranges of `S`: its borders are borders of them, and a
value that is in none of them is between two that touch there. -/
structure MadeOf (S : Set (ScanRange α)) (t : ScanRange α) : Prop where
  left : ∃ a ∈ S, a.left = t.left
  right : ∃ a ∈ S, a.right = t.right
  only : ∀ x, t.Contains x → (∃ a ∈ S, a.Contains x) ∨ ∃ a ∈ S, ∃ b ∈ S,
    a.right.pos = .some (.some x) ∧ b.left.pos = .some (.some x) ∧ ¬ a.right.Before x ∧
      ¬ b.left.After x

/-- What a list of ranges has to do with the ranges that were put into it; two
ranges of the list do not even share an end value. -/
structure Merged (S : Set (ScanRange α)) (ranges : List (ScanRange α)) : Prop where
  proper : ∀ t ∈ ranges, t.Proper
  sorted : ranges.Pairwise fun a b => a.right.pos < b.left.pos
  covers : ∀ a ∈ S, ∀ x, a.Contains x → ∃ t ∈ ranges, t.Contains x
  made : ∀ t ∈ ranges, MadeOf S t

variable {S S' : Set (ScanRange α)} {r range c t : ScanRange α} {rs g rest : List (ScanRange α)}

lemma MadeOf.of_mem (h : t ∈ S) : MadeOf S t :=
  ⟨⟨t, h, rfl⟩, ⟨t, h, rfl⟩, fun _ hx => .inl ⟨t, h, hx⟩⟩

lemma MadeOf.trans (h : MadeOf S t) (hS : ∀ a ∈ S, MadeOf S' a) : MadeOf S' t where
  left := by
    obtain ⟨a, ha, heq⟩ := h.left
    obtain ⟨b, hb, hab⟩ := (hS a ha).left
    exact ⟨b, hb, hab.trans heq⟩
  right := by
    obtain ⟨a, ha, heq⟩ := h.right
    obtain ⟨b, hb, hab⟩ := (hS a ha).right
    exact ⟨b, hb, hab.trans heq⟩
  only x hx := by
    rcases h.only x hx with ⟨a, ha, hx⟩ | ⟨a, ha, b, hb, hx⟩
    · exact (hS a ha).only x hx
    · obtain ⟨a', ha', hright⟩ := (hS a ha).right
      obtain ⟨b', hb', hleft⟩ := (hS b hb).left
      rw [← hright, ← hleft] at hx
      exact .inr ⟨a', ha', b', hb', hx⟩

lemma Merged.self (hp : ∀ t ∈ rs, t.Proper) (hs : rs.Pairwise fun a b => a.right.pos < b.left.pos) :
    Merged {t | t ∈ rs} rs :=
  ⟨hp, hs, fun a ha _ hx => ⟨a, ha, hx⟩, fun _ ht => .of_mem ht⟩

/-- The next range is put into the list. -/
lemma Merged.trans (h : Merged S rs) (h' : Merged {t | t ∈ range :: rs} rest) :
    Merged (insert range S) rest where
  proper := h'.proper
  sorted := h'.sorted
  covers := by
    rintro a (rfl | ha) x hx
    · exact h'.covers a mem_cons_self x hx
    · obtain ⟨t, ht, hx⟩ := h.covers a ha x hx
      exact h'.covers t (mem_cons_of_mem _ ht) x hx
  made t ht := by
    refine (h'.made t ht).trans (forall_mem_cons.mpr ⟨.of_mem (.inl rfl), fun a ha => ?_⟩)
    exact (h.made a ha).trans fun _ hb => .of_mem (.inr hb)

lemma Merged.cons (h : Merged {t | t ∈ range :: rs} rest) (hr : r.Proper)
    (hlt : ∀ a ∈ range :: rs, r.right.pos < a.left.pos) :
    Merged {t | t ∈ range :: r :: rs} (r :: rest) where
  proper := forall_mem_cons.mpr ⟨hr, h.proper⟩
  sorted := by
    refine pairwise_cons.mpr ⟨fun t ht => ?_, h.sorted⟩
    obtain ⟨a, ha, hleft⟩ := (h.made t ht).left
    exact hleft ▸ hlt a ha
  covers a ha x hx := by
    rcases eq_or_ne a r with rfl | har
    · exact ⟨a, mem_cons_self, hx⟩
    · obtain ⟨t, ht, hx⟩ := h.covers a (by simp_all) x hx
      exact ⟨t, mem_cons_of_mem _ ht, hx⟩
  made := forall_mem_cons.mpr ⟨.of_mem (by simp), fun t ht =>
    (h.made t ht).trans fun a ha => .of_mem (by grind)⟩

/-- The range `c` replaces the new range and the ranges `g`. -/
lemma Merged.join (hp : ∀ t ∈ range :: (g ++ rest), t.Proper)
    (hs : rest.Pairwise fun a b => a.right.pos < b.left.pos)
    (hl : ∀ t ∈ range :: g, c.left.leftCut ≤ t.left.leftCut)
    (hr : ∀ t ∈ range :: g, t.right.rightCut ≤ c.right.rightCut)
    (hleft : ∃ a ∈ range :: g, a.left = c.left ∧ range.left.pos ≤ a.right.pos)
    (hright : ∃ b ∈ range :: g, b.right = c.right ∧ b.left.pos ≤ range.right.pos)
    (hrest : ∀ t ∈ rest, c.right.pos < t.left.pos) :
    Merged {t | t ∈ range :: (g ++ rest)} (c :: rest) := by
  obtain ⟨a, ha, hleft, hale⟩ := hleft
  obtain ⟨b, hb, hright, hble⟩ := hright
  have hrange : range ∈ range :: g := mem_cons_self
  have hmem : ∀ t, t ∈ range :: (g ++ rest) ↔ t ∈ range :: g ∨ t ∈ rest := fun t => by
    rw [← cons_append, mem_append]
  have hrest' : ∀ t ∈ rest, t ∈ range :: (g ++ rest) := fun t ht => (hmem t).mpr (.inr ht)
  replace ha := (hmem a).mpr (.inl ha)
  replace hb := (hmem b).mpr (.inl hb)
  refine ⟨?_, pairwise_cons.mpr ⟨hrest, hs⟩, fun t ht x hx => ?_, ?_⟩
  · refine forall_mem_cons.mpr ⟨⟨?_, ?_, ?_⟩, fun t ht => hp t (hrest' t ht)⟩
    · exact hleft ▸ (hp a ha).left
    · exact hright ▸ (hp b hb).right
    · exact (pos_le (hl range hrange)).trans
        ((hp range mem_cons_self).le.trans (pos_le (hr range hrange)))
  · rcases (hmem t).mp ht with ht | ht
    · exact ⟨c, mem_cons_self, (hl t ht).trans hx.1, hx.2.trans (hr t ht)⟩
    · exact ⟨t, mem_cons_of_mem _ ht, hx⟩
  · refine forall_mem_cons.mpr ⟨⟨⟨a, ha, hleft⟩, ⟨b, hb, hright⟩, fun x hx => ?_⟩,
      fun t ht => .of_mem (hrest' t ht)⟩
    rcases touching hale x with h | h | h
    · exact .inl ⟨a, ha, hleft ▸ hx.1, h⟩
    · rcases touching hble x with h' | h' | h'
      · exact .inl ⟨range, mem_cons_self, h, h'⟩
      · exact .inl ⟨b, hb, h', hright ▸ hx.2⟩
      · exact .inr ⟨range, mem_cons_self, b, hb, h'⟩
    · exact .inr ⟨a, ha, range, mem_cons_self, h⟩

lemma mergeLoop_spec {right last m} (hright : right.type ≠ .infiniteLeft) (hp : ∀ t ∈ rs, t.Proper)
    (hs : (last :: rs).Pairwise fun a b => a.right.pos < b.left.pos)
    (h : mergeLoop right last rs = (m, rest)) :
    ∃ g, rs = g ++ rest ∧ (m = last ∨ m ∈ g ∧ m.left.pos ≤ right.pos) ∧
      (∀ t ∈ g, t = m ∨ t.right.rightCut ≤ right.rightCut) ∧
      ∀ t ∈ rest, right.pos < t.left.pos ∧ m.right.pos < t.left.pos := by
  induction rs generalizing last with
  | nil =>
    cases h
    exact ⟨[], rfl, .inl rfl, by simp, by simp⟩
  | cons t ts ih =>
    obtain ⟨ht, hp'⟩ := forall_mem_cons.mp hp
    obtain ⟨hlast, hs'⟩ := pairwise_cons.mp hs
    obtain ⟨hts, -⟩ := pairwise_cons.mp hs'
    have hiff := relaxed_isGE hright ht.left
    rw [mergeLoop] at h
    split_ifs at h with hge
    · obtain ⟨g, rfl, hm, hg, hrest⟩ := ih hp' hs' h
      refine ⟨t :: g, rfl, ?_, forall_mem_cons.mpr ⟨?_, hg⟩, hrest⟩
      · rcases hm with rfl | ⟨hm, hle⟩
        · exact .inr ⟨mem_cons_self, hiff.mp hge⟩
        · exact .inr ⟨mem_cons_of_mem _ hm, hle⟩
      · rcases hm with rfl | ⟨hm, hle⟩
        · exact .inl rfl
        · exact .inr (cut_le_of_pos_lt ((hts m (mem_append_left _ hm)).trans_le hle))
    · cases h
      have hlt : right.pos < t.left.pos := not_le.mp (mt hiff.mpr hge)
      refine ⟨[], rfl, .inl rfl, by simp, forall_mem_cons.mpr
        ⟨⟨hlt, hlast t mem_cons_self⟩, fun u hu => ⟨?_, hlast u (mem_cons_of_mem _ hu)⟩⟩⟩
      exact (hlt.trans_le ht.le).trans (hts u hu)

lemma isLE_or_isGE (o : Ordering) : o.isLE = true ∨ o.isGE = true := by
  cases o <;> simp

/-- The merged range ends where one of the ranges that it replaces does, and behind
all of them. -/
lemma sqlMergeScanRange_spec (mode : RangeMergeMode) (hp : ∀ t ∈ rs, t.Proper)
    (hs : (r :: rs).Pairwise fun a b => a.right.pos < b.left.pos) (hrange : range.Proper)
    (hreach : r.left.pos ≤ range.right.pos) :
    ∃ c g rest, rs = g ++ rest ∧ sqlMergeScanRange r rs range mode = c :: rest ∧
      c.left = (if mode = .mergeLessGreat then range.left else r.left) ∧
      (∀ t ∈ range :: r :: g, t.right.rightCut ≤ c.right.rightCut) ∧
      (∃ b ∈ range :: r :: g, b.right = c.right ∧ b.left.pos ≤ range.right.pos) ∧
      ∀ t ∈ rest, c.right.pos < t.left.pos := by
  unfold sqlMergeScanRange
  generalize hc : (if mode = .mergeLessGreat then
    { r with type := .rangeSection, left := range.left } else r) = c
  obtain ⟨hcr, hcl⟩ : c.right = r.right ∧
      c.left = (if mode = .mergeLessGreat then range.left else r.left) := by
    rw [← hc]
    split <;> exact ⟨rfl, rfl⟩
  have hspec := sqlCompareRightBorder_spec range.right c.right
  obtain ⟨hlt, hs'⟩ := pairwise_cons.mp hs
  rw [← hcr] at hlt
  dsimp only
  split
  · rename_i hle
    refine ⟨c, [], rs, rfl, rfl, hcl, ?_, ⟨r, by simp, hcr.symm, hreach⟩, hlt⟩
    simpa [hcr] using hspec.1 hle
  rename_i hle
  have hge := hspec.2 ((isLE_or_isGE _).resolve_left hle)
  generalize hloop : mergeLoop range.right c rs = res
  obtain ⟨m, rest⟩ := res
  obtain ⟨g, rfl, hm, hg, hrest⟩ :=
    mergeLoop_spec hrange.right hp (pairwise_cons.mpr ⟨hlt, hs'⟩) hloop
  have hmspec := sqlCompareRightBorder_spec range.right m.right
  refine ⟨_, g, rest, rfl, rfl, hcl, ?_⟩
  split_ifs with hmge
  · refine ⟨?_, ⟨range, by simp, rfl, hrange.le⟩, fun t ht => (hrest t ht).1⟩
    simp only [forall_mem_cons]
    refine ⟨le_rfl, hcr ▸ hge, fun t ht => ?_⟩
    rcases hg t ht with rfl | h
    · exact hmspec.2 hmge
    · exact h
  · have hmle := hmspec.1 ((isLE_or_isGE _).resolve_right hmge)
    refine ⟨?_, ?_, fun t ht => (hrest t ht).2⟩
    · simp only [forall_mem_cons]
      refine ⟨hmle, hcr ▸ hge.trans hmle, fun t ht => ?_⟩
      rcases hg t ht with rfl | h
      · exact le_rfl
      · exact h.trans hmle
    · rcases hm with rfl | ⟨hm, hle⟩
      · exact ⟨r, by simp, hcr.symm, hreach⟩
      · exact ⟨m, by simp [hm], rfl, hle⟩

lemma sqlMergeScanRange_merged {mode} (hp : ∀ t ∈ range :: r :: rs, t.Proper)
    (hs : (r :: rs).Pairwise fun a b => a.right.pos < b.left.pos)
    (hreach : r.left.pos ≤ range.right.pos)
    (hmode : if mode = .mergeLessGreat then range.left.leftCut ≤ r.left.leftCut
      else r.left.leftCut ≤ range.left.leftCut ∧ range.left.pos ≤ r.right.pos) :
    Merged {t | t ∈ range :: r :: rs} (sqlMergeScanRange r rs range mode) := by
  have hp' := hp
  simp only [forall_mem_cons] at hp'
  obtain ⟨c, g, rest, rfl, heq, hcl, hr, hright, hrest⟩ :=
    sqlMergeScanRange_spec mode hp'.2.2 hs hp'.1 hreach
  rw [heq]
  have hl : ∀ t ∈ g, r.left.leftCut ≤ t.left.leftCut := fun t ht =>
    cut_le_of_pos_lt (hp'.2.1.le.trans_lt (rel_of_pairwise_cons hs (mem_append_left _ ht)))
  refine Merged.join (g := r :: g) hp (hs.sublist (by simp)) ?_ hr ?_ hright hrest
  · simp only [forall_mem_cons]
    split at hcl <;> rename_i h <;> simp only [h, if_true, if_false] at hmode <;> rw [hcl]
    · exact ⟨le_rfl, hmode, fun t ht => hmode.trans (hl t ht)⟩
    · exact ⟨hmode.1, le_rfl, hl⟩
  · split at hcl <;> rename_i h <;> simp only [h, if_true, if_false] at hmode
    · exact ⟨range, by simp, hcl.symm, hp'.1.le⟩
    · exact ⟨r, by simp, hcl.symm, hmode.2⟩

lemma putLoop_merged (hrange : range.Proper) (hp : ∀ t ∈ rs, t.Proper)
    (hs : rs.Pairwise fun a b => a.right.pos < b.left.pos) :
    Merged {t | t ∈ range :: rs} (putLoop range rs) := by
  induction rs with
  | nil => exact .self (by simpa using hrange) (pairwise_singleton _ range)
  | cons r rs ih =>
    obtain ⟨hr, hp'⟩ := forall_mem_cons.mp hp
    obtain ⟨hlt, hs'⟩ := pairwise_cons.mp hs
    replace hp := forall_mem_cons.mpr ⟨hrange, hp⟩
    have hspec := sqlCompareLeftBorder_spec range.left r.left
    rw [putLoop]
    split <;> rename_i heq <;> rw [heq] at hspec
    · refine sqlMergeScanRange_merged hp hs ((pos_le (hspec.2 rfl)).trans hrange.le) ?_
      exact ⟨hspec.2 rfl, (pos_le (hspec.1 rfl)).trans hr.le⟩
    · have hiff := relaxed_isGE hrange.right hr.left
      split_ifs with hge
      · exact sqlMergeScanRange_merged hp hs (hiff.mp hge) (hspec.1 rfl)
      · have hbefore : range.right.pos < r.left.pos := not_le.mp (mt hiff.mpr hge)
        refine .self hp (pairwise_cons.mpr ⟨forall_mem_cons.mpr ⟨hbefore, ?_⟩, hs⟩)
        exact fun t ht => (hbefore.trans_le hr.le).trans (hlt t ht)
    · have hiff := relaxed_isLE hrange.left hr.right
      split_ifs with hle
      · refine sqlMergeScanRange_merged hp hs ?_ ⟨hspec.2 rfl, hiff.mp hle⟩
        exact (pos_le (hspec.2 rfl)).trans hrange.le
      · have hafter : r.right.pos < range.left.pos := not_le.mp (mt hiff.mpr hle)
        exact (ih hp' hs').cons hr (forall_mem_cons.mpr ⟨hafter, hlt⟩)

lemma sqlPutScanRange_merged {list} (h : Merged S list.ranges)
    (hrange : range.Inserted → range.Proper) :
    Merged {r | r ∈ S ∨ r = range ∧ r.Inserted} (sqlPutScanRange list range).ranges := by
  by_cases hin : range.Inserted
  · have hset : {r | r ∈ S ∨ r = range ∧ r.Inserted} = insert range S := by
      ext r
      simp only [Set.mem_ofPred_eq, Set.mem_insert_iff]
      grind
    have hput : (sqlPutScanRange list range).ranges = putLoop range list.ranges := by
      unfold sqlPutScanRange
      split
      case h_5 =>
        split_ifs with hnil
        · rw [length_eq_zero_iff.mp hnil, putLoop]
        · rfl
      all_goals simp_all [ScanRange.Inserted]
    rw [hset, hput]
    exact h.trans (putLoop_merged (hrange hin) h.proper h.sorted)
  · have hset : {r | r ∈ S ∨ r = range ∧ r.Inserted} = S := by
      ext r
      simp only [Set.mem_ofPred_eq]
      grind
    have hput : (sqlPutScanRange list range).ranges = list.ranges := by
      unfold sqlPutScanRange
      split <;> simp_all [ScanRange.Inserted]
    rw [hset, hput]
    exact h

lemma foldl_sqlPutScanRange_merged {list : ScanRangeList α} {puts : List (ScanRange α)}
    (h : Merged S list.ranges) (hputs : ∀ r ∈ puts, r.Inserted → r.Proper) :
    Merged {r | r ∈ S ∨ r ∈ puts ∧ r.Inserted} (puts.foldl sqlPutScanRange list).ranges := by
  induction puts generalizing list S with
  | nil => simpa using h
  | cons range puts ih =>
    obtain ⟨hrange, hputs⟩ := forall_mem_cons.mp hputs
    have := ih (sqlPutScanRange_merged h hrange) hputs
    simpa [or_and_right, or_assoc] using this

lemma not_contains_of_pos_lt {x : WithTop α} (h : r.right.pos < t.left.pos) (hr : r.Contains x) :
    ¬ t.Contains x := fun ht =>
  (h.trans_le (ht.pos_le.1.trans hr.pos_le.2)).false

/-- Whatever the order in which the ranges are put into an empty list: its ranges
are sorted and disjoint, and share no end value; they contain what the ranges put
in contain, and beyond that only a value at which two of these end that both
exclude it. -/
theorem scanRangeList_merged (type : RangeListType) (puts : List (ScanRange α))
    (hputs : ∀ r ∈ puts, r.Inserted → r.Proper) :
    Merged {r | r ∈ puts ∧ r.Inserted} (puts.foldl sqlPutScanRange ⟨type, []⟩).ranges ∧
      (puts.foldl sqlPutScanRange ⟨type, []⟩).ranges.Pairwise fun a b =>
        ∀ x, a.Contains x → ¬ b.Contains x := by
  have h₀ : Merged ∅ (⟨type, []⟩ : ScanRangeList α).ranges :=
    ⟨by simp, .nil, fun _ ha => ha.elim, by simp⟩
  have h := foldl_sqlPutScanRange_merged h₀ hputs
  simp only [Set.mem_empty_iff_false, false_or] at h
  exact ⟨h, h.sorted.imp fun hlt _ => not_contains_of_pos_lt hlt⟩

/-- The ranges [3, 5) and (5, 8] make [3, 8]. -/
theorem scanRangeList_merged_touching :
    let puts : List (ScanRange ℕ) := [⟨⟨.const, 5, false⟩, ⟨.const, 8, true⟩, .rangeSection⟩,
      ⟨⟨.const, 3, true⟩, ⟨.const, 5, false⟩, .rangeSection⟩]
    Merged {r | r ∈ puts ∧ r.Inserted} [⟨⟨.const, 3, true⟩, ⟨.const, 8, true⟩, .rangeSection⟩] := by
  refine (scanRangeList_merged .rangeListEmpty [_, _] fun r hr _ => ?_).1
  simp only [mem_cons, not_mem_nil, or_false] at hr
  rcases hr with rfl | rfl <;> exact ⟨by simp, by simp, by decide⟩

end Cantian.Plan
