import Mathlib.Data.List.Perm.Basic

/-!
# Pools of messages

A network that may deliver its messages in any order is a list from which
the `k`-th element can be taken. What the elements of such a list say about
each other survives: the rest of the pool is a sublist, and a symmetric
relation that holds between any two elements holds between the one taken
out and all that stay.
-/

namespace Cantian.Lib

open List

variable {α : Type*} {l : List α} {a b : α} {k : Nat}

/-- The element taken out is related to every one that stays. -/
lemma pairwise_taken {R} (hsymm : ∀ x y, R x y → R y x) (hl : l.Pairwise R) (h : l[k]? = some a)
    (hb : b ∈ l.eraseIdx k) : R a b := by
  obtain ⟨hk, rfl⟩ := List.getElem?_eq_some_iff.mp h
  have hperm : (l[k] :: l.eraseIdx k).Perm l := getElem_cons_eraseIdx_perm hk
  have hcons := (hperm.pairwise_iff (fun {x y} => hsymm x y)).mpr hl
  exact (pairwise_cons.mp hcons).1 b hb

/-- Elements whose relation to anything is vacuous may be added. -/
lemma pairwise_append_of_vacuous {R l'} (hl : l.Pairwise R) (h : ∀ b ∈ l', ∀ a, R a b) :
    (l ++ l').Pairwise R := by
  refine pairwise_append.mpr ⟨hl, ?_, fun a _ b hb => h b hb a⟩
  exact pairwise_of_forall_mem_list fun a _ b hb => h b hb a

/-- Two different elements that count. -/
lemma two_le_countP {p} (ha : a ∈ l) (hb : b ∈ l) (hne : a ≠ b) (hpa : p a = true)
    (hpb : p b = true) : 2 ≤ l.countP p := by
  have hsub : [a, b].Subperm l := by
    refine subperm_of_subset (by simp [hne]) fun x hx => ?_
    rcases mem_cons.mp hx with rfl | hx
    · exact ha
    · rw [mem_singleton.mp hx]
      exact hb
  have hle := hsub.countP_le p
  simpa [countP_cons, hpa, hpb] using hle

lemma countP_eraseIdx_add {p} {l : List α} {k a} (h : l[k]? = some a) :
    (l.eraseIdx k).countP p + (if p a then 1 else 0) = l.countP p := by
  induction l generalizing k with
  | nil => simp at h
  | cons b l ih =>
    cases k with
    | zero =>
      obtain rfl : b = a := by simpa using h
      simp [countP_cons]
    | succ k =>
      have := ih (k := k) (by simpa using h)
      simp only [eraseIdx_cons_succ, countP_cons]
      omega

lemma countP_set_same {p} {l : List α} {k a b} (h : l[k]? = some a) (hp : p b = p a) :
    (l.set k b).countP p = l.countP p := by
  induction l generalizing k with
  | nil => simp at h
  | cons c l ih =>
    cases k with
    | zero =>
      obtain rfl : c = a := by simpa using h
      simp [countP_cons, hp]
    | succ k =>
      have := ih (k := k) (by simpa using h)
      simp only [set_cons_succ, countP_cons]
      omega

end Cantian.Lib
