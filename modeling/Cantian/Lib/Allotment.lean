import Mathlib.Data.List.Nodup

/-!
# Values that are given out once

Values are issued to holders, and a holder uses the values that it holds.
`Allotted` says that no value has two holders and that no value was used
twice or is held after it was used. The lemmas are the moves that keep it:
holders lose values, a holder takes values that were not issued before,
values change hands, and a holder uses some of its values.
-/

namespace Cantian.Lib

open List

structure Allotted {α κ : Type*} (issued : α → Prop) (held : κ → α → Prop) (used : List α) :
    Prop where
  nodup : used.Nodup
  used_issued : ∀ v ∈ used, issued v
  held_issued : ∀ k v, held k v → issued v
  fresh : ∀ k v, held k v → v ∉ used
  disjoint : ∀ k k' v, held k v → held k' v → k = k'

namespace Allotted

variable {α κ : Type*} {issued issued' : α → Prop} {held held' : κ → α → Prop} {used : List α}

lemma empty (hheld : ∀ k v, ¬held k v) : Allotted issued held [] where
  nodup := nodup_nil
  used_issued _ hv := absurd hv not_mem_nil
  held_issued k v hv := absurd hv (hheld k v)
  fresh k v hv := absurd hv (hheld k v)
  disjoint k _ v hv := absurd hv (hheld k v)

section
variable (h : Allotted issued held used)
include h

lemma reassign (hsome : ∀ k v, held' k v → ∃ k', held k' v)
    (hone : ∀ k k' v, held' k v → held' k' v → k = k') : Allotted issued held' used where
  nodup := h.nodup
  used_issued := h.used_issued
  held_issued k v hv := by
    obtain ⟨k', hk'⟩ := hsome k v hv
    exact h.held_issued k' v hk'
  fresh k v hv := by
    obtain ⟨k', hk'⟩ := hsome k v hv
    exact h.fresh k' v hk'
  disjoint := hone

lemma shrink (hsub : ∀ k v, held' k v → held k v) : Allotted issued held' used :=
  h.reassign (fun k v hv => ⟨k, hsub k v hv⟩)
    fun k k' v hv hv' => h.disjoint k k' v (hsub k v hv) (hsub k' v hv')

lemma take (k : κ) (hmono : ∀ v, issued v → issued' v)
    (hsub : ∀ k' v, k' ≠ k → held' k' v → held k' v)
    (hnew : ∀ v, held' k v → held k v ∨ (¬issued v ∧ issued' v)) : Allotted issued' held' used := by
  -- a value that a holder has now is an old one of that holder, or is new and with `k`
  have hcases : ∀ k' v, held' k' v → held k' v ∨ (k' = k ∧ ¬issued v ∧ issued' v) := by
    intro k' v hv
    by_cases hk : k' = k
    · subst hk
      exact (hnew v hv).imp id fun h' => ⟨rfl, h'⟩
    · exact .inl (hsub k' v hk hv)
  refine ⟨h.nodup, fun v hv => hmono v (h.used_issued v hv), fun k' v hv => ?_,
    fun k' v hv => ?_, fun k1 k2 v hv1 hv2 => ?_⟩
  · rcases hcases k' v hv with h' | h'
    · exact hmono v (h.held_issued k' v h')
    · exact h'.2.2
  · rcases hcases k' v hv with h' | h'
    · exact h.fresh k' v h'
    · exact fun hused => h'.2.1 (h.used_issued v hused)
  · rcases hcases k1 v hv1 with h1 | h1
    · rcases hcases k2 v hv2 with h2 | h2
      · exact h.disjoint k1 k2 v h1 h2
      · exact absurd (h.held_issued k1 v h1) h2.2.1
    · rcases hcases k2 v hv2 with h2 | h2
      · exact absurd (h.held_issued k2 v h2) h1.2.1
      · rw [h1.1, h2.1]

lemma use {l k} (hl : l.Nodup) (hheld : ∀ v ∈ l, held k v)
    (hrest : ∀ k' v, held' k' v → held k' v ∧ v ∉ l) : Allotted issued held' (used ++ l) where
  nodup := by
    refine nodup_append.mpr ⟨h.nodup, hl, fun v hv w hw hvw => ?_⟩
    exact h.fresh k w (hheld w hw) (hvw ▸ hv)
  used_issued v hv := by
    rcases mem_append.mp hv with hv | hv
    · exact h.used_issued v hv
    · exact h.held_issued k v (hheld v hv)
  held_issued k' v hv := h.held_issued k' v (hrest k' v hv).1
  fresh k' v hv := by
    intro hused
    rcases mem_append.mp hused with hused | hused
    · exact h.fresh k' v (hrest k' v hv).1 hused
    · exact (hrest k' v hv).2 hused
  disjoint k1 k2 v hv1 hv2 := h.disjoint k1 k2 v (hrest k1 v hv1).1 (hrest k2 v hv2).1

end

end Allotted

end Cantian.Lib
