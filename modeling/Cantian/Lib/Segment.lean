/-!
# Segments of a list sorted by key

`segment key l lo hi` is what lies in `l` above `lo` and up to `hi`. In a
list with strictly increasing keys neighbouring segments put together are a
segment, and reading on from a key gives a segment.
-/

namespace Cantian.Lib

open List

variable {α : Type} (key : α → Nat)

/-- The keys of the list increase strictly. -/
def Ascending (l : List α) : Prop := l.Pairwise fun a b => key a < key b

def segment (l : List α) (lo hi : Nat) : List α :=
  l.filter fun a => decide (lo < key a) && decide (key a ≤ hi)

/-- The greatest key of a sorted list, 0 if it is empty. -/
def lastKey : List α → Nat
  | [] => 0
  | [a] => key a
  | _ :: b :: l => lastKey (b :: l)

variable {key} {l t : List α} {a : α} {lo mid hi : Nat}

theorem segment_cons : segment key (a :: l) lo hi =
    if lo < key a ∧ key a ≤ hi then a :: segment key l lo hi else segment key l lo hi := by
  by_cases h : lo < key a ∧ key a ≤ hi <;> simp_all [segment]

theorem segment_self : segment key l lo lo = [] := by
  simp only [segment, filter_eq_nil_iff, Bool.and_eq_true, decide_eq_true_eq]
  intro a _ h
  omega

theorem segment_eq_nil (h : ∀ a ∈ l, hi < key a) : segment key l lo hi = [] := by
  simp only [segment, filter_eq_nil_iff, Bool.and_eq_true, decide_eq_true_eq]
  intro a ha hk
  have := h a ha
  omega

theorem segment_append (hl : Ascending key l) (h1 : lo ≤ mid) (h2 : mid ≤ hi) :
    segment key l lo mid ++ segment key l mid hi = segment key l lo hi := by
  induction l with
  | nil => rfl
  | cons a l ih =>
    rw [Ascending, pairwise_cons] at hl
    have hrest := ih hl.2
    rw [segment_cons, segment_cons, segment_cons]
    rcases Nat.lt_or_ge mid (key a) with hgt | hle
    · -- all keys from here on are above `mid`
      have hnil : segment key l lo mid = [] :=
        segment_eq_nil fun b hb => Nat.lt_trans hgt (hl.1 b hb)
      rw [hnil, nil_append] at hrest
      rw [if_neg (by omega), hnil, nil_append, hrest]
      by_cases hhi : key a ≤ hi
      · rw [if_pos (by omega), if_pos (by omega)]
      · rw [if_neg (by omega), if_neg (by omega)]
    · have hmid : ¬ (mid < key a ∧ key a ≤ hi) := by omega
      rw [if_neg hmid]
      by_cases hlo : lo < key a
      · rw [if_pos (by omega), if_pos (by omega), cons_append, hrest]
      · rw [if_neg (by omega), if_neg (by omega), hrest]

variable (key) in
theorem lastKey_mem (h : l ≠ []) : ∃ a ∈ l, key a = lastKey key l := by
  induction l with
  | nil => exact absurd rfl h
  | cons a l ih =>
    cases l with
    | nil => exact ⟨a, mem_singleton.mpr rfl, rfl⟩
    | cons =>
      obtain ⟨c, hc, hk⟩ := ih (by simp)
      exact ⟨c, mem_cons_of_mem a hc, hk⟩

theorem le_lastKey (hl : Ascending key l) : ∀ b ∈ l, key b ≤ lastKey key l := by
  induction l with
  | nil => simp
  | cons a l ih =>
    rw [Ascending, pairwise_cons] at hl
    intro b hb
    cases l with
    | nil => simp_all [lastKey]
    | cons c =>
      have htail := ih hl.2
      rcases mem_cons.mp hb with rfl | hb
      · exact Nat.le_trans (Nat.le_of_lt (hl.1 c (.head _))) (htail c (.head _))
      · exact htail b hb

/-- Reading on above `lo` gives the segment up to the last key that was read. -/
theorem take_above_eq_segment (hl : Ascending key l) {n}
    (ht : (l.filter fun a => decide (lo < key a)).take n = t) (hne : t ≠ []) :
    t = segment key l lo (lastKey key t) := by
  have hseg : segment key l lo (lastKey key t) =
      (l.filter fun a => decide (lo < key a)).filter fun a => decide (key a ≤ lastKey key t) := by
    rw [filter_filter]
    apply filter_congr
    intro a _
    rw [Bool.and_comm]
  have hsorted : Ascending key (l.filter fun a => decide (lo < key a)) := hl.filter _
  rw [hseg]
  generalize (l.filter fun a => decide (lo < key a)) = m at ht hsorted
  have hsplit : m = t ++ m.drop n := by rw [← ht, take_append_drop]
  rw [hsplit, Ascending, pairwise_append] at hsorted
  obtain ⟨hts, _, hcross⟩ := hsorted
  have hkeep : t.filter (fun a => decide (key a ≤ lastKey key t)) = t := by
    rw [filter_eq_self]
    intro a ha
    simpa using le_lastKey hts a ha
  have hdrop : (m.drop n).filter (fun a => decide (key a ≤ lastKey key t)) = [] := by
    rw [filter_eq_nil_iff]
    intro a ha
    obtain ⟨c, hc, hk⟩ := lastKey_mem key hne
    have := hcross c hc a ha
    simp
    omega
  rw [hsplit, filter_append, hkeep, hdrop, append_nil]

/-- Appending a greater key does not change the segments up to the last one. -/
theorem segment_concat (h : hi < key a) : segment key (l ++ [a]) lo hi = segment key l lo hi := by
  simp [segment, filter_append, Nat.not_le.mpr h]

theorem lastKey_concat : lastKey key (l ++ [a]) = key a := by
  induction l with
  | nil => rfl
  | cons b l ih =>
    cases l with
    | nil => rfl
    | cons => exact ih

theorem ascending_concat (hl : Ascending key l) (h : lastKey key l < key a) :
    Ascending key (l ++ [a]) := by
  rw [Ascending, pairwise_append]
  refine ⟨hl, pairwise_singleton _ _, ?_⟩
  intro b hb c hc
  rw [mem_singleton.mp hc]
  exact Nat.lt_of_le_of_lt (le_lastKey hl b hb) h

end Cantian.Lib
