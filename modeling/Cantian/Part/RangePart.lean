import Mathlib.Data.List.Forall2
import Mathlib.Data.List.GetD
import Mathlib.Order.Lattice
import Mathlib.Order.Nat
import Cantian.Lib.Bisect

/-!
# Pruning of range partitions

The rows of a partition are below its bound and not below the bound before it,
column by column in the lexicographic order. A scan has a range for every
column; it looks only at the partitions between those of its two border keys,
which are compared with the bounds up to the first column that is open.
-/

namespace Cantian.Part

open List

/-! ## The source -/

section
variable {α : Type*} [LinearOrder α]

/-- The marks for MINVALUE, NULL and MAXVALUE are among the values. -/
def partCompareKeyColumn (a b : α) : Int :=
  if a < b then -1 else if b < a then 1 else 0

def partCompareRangeKey : List α → List α → Int
  | a :: cmpKey, b :: rangeKey =>
    let result := partCompareKeyColumn a b
    if result ≠ 0 then result else partCompareRangeKey cmpKey rangeKey
  | _, _ => 0

/-- A column of a border key is closed if the range has its border in it. -/
def partCompareBorder (isLeft : Bool) : List (α × Bool) → List α → Int
  | (a, closed) :: locateKey, b :: partKey =>
    let result := partCompareKeyColumn a b
    if result ≠ 0 then result
    else if !closed then (if isLeft then 1 else -1)
    else partCompareBorder isLeft locateKey partKey
  | _, _ => 1

/-- `none` is `CT_INVALID_ID32`. -/
def partLocateRangeKey (bounds : List (List α)) (key : List α) : Option Nat :=
  Lib.bisect (fun p => decide (partCompareRangeKey key (bounds.getD p []) < 0))
    bounds.length 0 bounds.length none

def knlLocatePartBorder (bounds : List (List α)) (isLeft : Bool) (key : List (α × Bool)) :
    Option Nat :=
  Lib.bisect (fun p => decide (partCompareBorder isLeft key (bounds.getD p []) ≤ 0))
    bounds.length 0 bounds.length none

/-- The first partition to scan and the one behind the last. -/
def sqlCalcRangePart (bounds : List (List α)) (left right : List (α × Bool)) :
    Option (Nat × Nat) :=
  match knlLocatePartBorder bounds true left, knlLocatePartBorder bounds false right with
  | none, _ => none
  | some l, some r => some (l, r + 1)
  | some l, none => some (l, bounds.length)

/-! ## Borders and bounds -/

/-- The value is in the range of its column, as far as the left border says. -/
def Above (border : α × Bool) (a : α) : Prop :=
  border.1 < a ∨ border.2 = true ∧ border.1 = a

def Below (border : α × Bool) (a : α) : Prop :=
  a < border.1 ∨ border.2 = true ∧ a = border.1

variable {isLeft : Bool} {key : List (α × Bool)} {row b b' : List α}

lemma partCompareRangeKey_cons {x y} :
    partCompareRangeKey (x :: row) (y :: b) < 0 ↔
      x < y ∨ x = y ∧ partCompareRangeKey row b < 0 := by
  rcases lt_trichotomy x y with h | rfl | h
  · simp [partCompareRangeKey, partCompareKeyColumn, h]
  · simp [partCompareRangeKey, partCompareKeyColumn]
  · simp [partCompareRangeKey, partCompareKeyColumn, h, h.not_gt, h.ne']

lemma partCompareBorder_cons {x y closed} :
    partCompareBorder isLeft ((x, closed) :: key) (y :: b) ≤ 0 ↔ x < y ∨
      x = y ∧ if closed then partCompareBorder isLeft key b ≤ 0 else isLeft = false := by
  rcases lt_trichotomy x y with h | rfl | h
  · simp [partCompareBorder, partCompareKeyColumn, h]
  · cases closed <;> cases isLeft <;> simp [partCompareBorder, partCompareKeyColumn]
  · simp [partCompareBorder, partCompareKeyColumn, h, h.not_gt, h.ne']

lemma partCompareBorder_mono (h : partCompareBorder isLeft key b ≤ 0)
    (hb : partCompareRangeKey b b' < 0) : partCompareBorder isLeft key b' ≤ 0 := by
  induction key generalizing b b' with
  | nil => simp [partCompareBorder] at h
  | cons c key ih =>
    cases b with
    | nil => simp [partCompareRangeKey] at hb
    | cons x b =>
      cases b' with
      | nil => simp [partCompareRangeKey] at hb
      | cons y b' =>
        rw [partCompareBorder_cons] at h ⊢
        rcases partCompareRangeKey_cons.mp hb with hlt | ⟨rfl, hrest⟩
        · exact .inl (h.elim (·.trans hlt) fun h => h.1 ▸ hlt)
        · refine h.imp_right fun h => ⟨h.1, ?_⟩
          have hkey := h.2
          split at hkey
          · rw [if_pos ‹_›]
            exact ih hkey hrest
          · rwa [if_neg ‹_›]

/-- A row is compared like a border that is closed in every column. -/
lemma partCompareRangeKey_iff (isLeft : Bool) : partCompareRangeKey row b < 0 ↔
    partCompareBorder isLeft (row.map (·, true)) b ≤ 0 := by
  induction row generalizing b with
  | nil => simp [partCompareRangeKey, partCompareBorder]
  | cons x row ih =>
    cases b with
    | nil => simp [partCompareRangeKey, partCompareBorder]
    | cons y b => rw [partCompareRangeKey_cons, map_cons, partCompareBorder_cons, if_pos rfl, ih]

lemma left_of_row (h : Forall₂ Above key row) (hb : partCompareRangeKey row b < 0) :
    partCompareBorder true key b ≤ 0 := by
  induction h generalizing b with
  | nil => simp [partCompareRangeKey] at hb
  | cons ha _ ih =>
    cases b with
    | nil => simp [partCompareRangeKey] at hb
    | cons y b =>
      rw [partCompareBorder_cons]
      rcases partCompareRangeKey_cons.mp hb with hlt | ⟨rfl, hrest⟩
      · exact .inl (ha.elim (·.trans hlt) fun h => h.2 ▸ hlt)
      · refine ha.imp_right fun ha => ⟨ha.2, ?_⟩
        rw [if_pos ha.1]
        exact ih hrest

lemma row_of_right (h : Forall₂ Below key row) (hb : partCompareBorder false key b ≤ 0) :
    partCompareRangeKey row b < 0 := by
  induction h generalizing b with
  | nil => simp [partCompareBorder] at hb
  | cons ha _ ih =>
    cases b with
    | nil => simp [partCompareBorder] at hb
    | cons y b =>
      rw [partCompareRangeKey_cons]
      rcases partCompareBorder_cons.mp hb with hlt | ⟨rfl, hrest⟩
      · exact .inl (ha.elim (·.trans hlt) fun h => h.2 ▸ hlt)
      · refine ha.imp_right fun ha => ⟨ha.2, ?_⟩
        rw [if_pos ha.1] at hrest
        exact ih hrest

/-! ## The searches -/

variable {bounds : List (List α)} (hinc : bounds.Pairwise fun b b' => partCompareRangeKey b b' < 0)
include hinc

lemma knlLocatePartBorder_spec (isLeft : Bool) (key : List (α × Bool)) :
    ∃ l, knlLocatePartBorder bounds isLeft key = (if l < bounds.length then some l else none) ∧
      (l < bounds.length → partCompareBorder isLeft key (bounds.getD l []) ≤ 0) ∧
      ∀ p < bounds.length, partCompareBorder isLeft key (bounds.getD p []) ≤ 0 → l ≤ p := by
  have hmono : ∀ i j, i < j → j < bounds.length →
      decide (partCompareBorder isLeft key (bounds.getD i []) ≤ 0) = true →
      decide (partCompareBorder isLeft key (bounds.getD j []) ≤ 0) = true := by
    intro i j hij hj hi
    have hi' : i < bounds.length := by omega
    have hlt := pairwise_iff_getElem.mp hinc i j hi' hj hij
    rw [← getD_eq_getElem _ [] hi', ← getD_eq_getElem _ [] hj] at hlt
    exact decide_eq_true (partCompareBorder_mono (of_decide_eq_true hi) hlt)
  simpa [knlLocatePartBorder] using
    Lib.bisect_spec hmono bounds.length 0 bounds.length (by omega) (Nat.le_refl _) (by simp)
      (by simp)

/-- The partition of a row in the ranges of a scan is among those scanned. -/
theorem range_pruning_keeps {left right : List (α × Bool)} {p : Nat}
    (hleft : Forall₂ Above left row) (hright : Forall₂ Below right row)
    (hp : partLocateRangeKey bounds row = some p) :
    ∃ l r, sqlCalcRangePart bounds left right = some (l, r) ∧ l ≤ p ∧ p < r := by
  have hrow : partLocateRangeKey bounds row =
      knlLocatePartBorder bounds true (row.map (·, true)) := by
    simp only [partLocateRangeKey, knlLocatePartBorder, partCompareRangeKey_iff true]
  obtain ⟨p', hp', hbelow, hleast⟩ := knlLocatePartBorder_spec hinc true (row.map (·, true))
  obtain ⟨hlt, ⟨⟩⟩ := Option.ite_none_right_eq_some.mp ((hrow.trans hp').symm.trans hp)
  have hbelow := (partCompareRangeKey_iff true).mpr (hbelow hlt)
  obtain ⟨l, hl, -, hlmin⟩ := knlLocatePartBorder_spec hinc true left
  have hlp : l ≤ p := hlmin p hlt (left_of_row hleft hbelow)
  rw [if_pos (by omega)] at hl
  obtain ⟨r, hr, hrsat, -⟩ := knlLocatePartBorder_spec hinc false right
  by_cases hrlt : r < bounds.length
  · have hpr := hleast r hrlt ((partCompareRangeKey_iff true).mp (row_of_right hright (hrsat hrlt)))
    exact ⟨l, r + 1, by simp [sqlCalcRangePart, hl, hr, hrlt], hlp, by omega⟩
  · exact ⟨l, bounds.length, by simp [sqlCalcRangePart, hl, hr, hrlt], hlp, hlt⟩

end

/-- A row in the second of three partitions; the left border is open in its
second column. -/
theorem range_pruning_two_columns :
    ∃ l r, sqlCalcRangePart [[10, 5], [10, 9], [20, 0]] [(10, true), (5, false)]
      [(12, true), (8, true)] = some (l, r) ∧ l ≤ 1 ∧ 1 < r := by
  have hp : partLocateRangeKey [[10, 5], [10, 9], [20, 0]] [10, 6] = some 1 := rfl
  exact range_pruning_keeps (by decide)
    (.cons (.inr ⟨rfl, rfl⟩) (.cons (.inl (by decide)) .nil))
    (.cons (.inl (by decide)) (.cons (.inl (by decide)) .nil)) hp

end Cantian.Part
