import Mathlib.Algebra.Order.BigOperators.Group.Finset

/-!
# Linked lists that share one array of links

Every element stores one link, every list its first element and its length.
The lists are told apart by their owner: `Filed` says that the list of `i`
is exactly the elements owned by `i`, but for a few loose ones that are in
no list. Cutting off the front of lists makes elements loose; pushing one
in front of a list files it again.
-/

namespace Cantian.Lib

open List Finset

variable {α ι : Type*} {next next' : α → α} {a x : α} {n k : Nat}

/-! ## One chain -/

/-- The first `n` elements that the links reach from `a`. -/
def chain (next : α → α) : α → Nat → List α
  | _, 0 => []
  | a, n + 1 => a :: chain next (next a) n

@[simp] lemma chain_zero : chain next a 0 = [] := rfl

@[simp] lemma chain_succ : chain next a (n + 1) = a :: chain next (next a) n := rfl

@[simp] lemma length_chain : (chain next a n).length = n := by
  induction n generalizing a with
  | zero => rfl
  | succ n ih => simp [ih]

lemma chain_add : chain next a (k + n) = chain next a k ++ chain next (next^[k] a) n := by
  induction k generalizing a with
  | zero => simp
  | succ k ih =>
    rw [Nat.add_right_comm, chain_succ, chain_succ, ih, Function.iterate_succ_apply]
    rfl

lemma chain_congr (h : ∀ x ∈ chain next a n, next' x = next x) :
    chain next' a n = chain next a n := by
  induction n generalizing a with
  | zero => rfl
  | succ n ih =>
    have ha : next' a = next a := h a (by simp)
    rw [chain_succ, chain_succ, ha, ih fun x hx => h x (by simp [hx])]

/-! ## A family of chains -/

variable {first first' : ι → α} {count count' : ι → Nat} {owner : α → ι} {loose : List α}

/-- The chain of each `i` holds exactly the elements of `i` that are not loose. -/
structure Filed (next : α → α) (first : ι → α) (count : ι → Nat) (owner : α → ι)
    (loose : List α) : Prop where
  nodup : ∀ i, (chain next (first i) (count i)).Nodup
  mem : ∀ i x, x ∈ chain next (first i) (count i) ↔ owner x = i ∧ x ∉ loose
  loose_nodup : loose.Nodup

namespace Filed

lemma owner_eq {i} (h : Filed next first count owner loose)
    (hx : x ∈ chain next (first i) (count i)) : owner x = i :=
  ((h.mem i x).mp hx).1

lemma takeAll {k : ι → Nat} {l : List ι} (h : Filed next first count owner []) (hl : l.Nodup)
    (hall : ∀ i, i ∈ l) (hk : ∀ i, k i ≤ count i) (hchain : ∀ i, chain next (first' i) (count' i) =
      chain next (next^[k i] (first i)) (count i - k i)) :
    Filed next first' count' owner (l.flatMap fun i => chain next (first i) (k i)) := by
  have hsplit : ∀ i, chain next (first i) (count i) =
      chain next (first i) (k i) ++ chain next (first' i) (count' i) := by
    intro i
    rw [hchain, ← chain_add, Nat.add_sub_cancel' (hk i)]
  have hfront : ∀ i, ∀ x ∈ chain next (first i) (k i), owner x = i := by
    intro i x hx
    exact h.owner_eq (by rw [hsplit]; exact mem_append_left _ hx)
  have hdisj : ∀ i, (chain next (first i) (k i)).Nodup ∧
      (chain next (first' i) (count' i)).Nodup ∧
      ∀ x ∈ chain next (first i) (k i), x ∉ chain next (first' i) (count' i) := by
    intro i
    have hnd := h.nodup i
    rw [hsplit, nodup_append] at hnd
    exact ⟨hnd.1, hnd.2.1, fun x hx hx' => hnd.2.2 x hx x hx' rfl⟩
  refine ⟨fun i => (hdisj i).2.1, fun i x => ?_, ?_⟩
  · have hmem : x ∈ chain next (first i) (k i) ∨ x ∈ chain next (first' i) (count' i) ↔
        owner x = i := by
      rw [← mem_append, ← hsplit, h.mem]
      simp
    constructor
    · intro hx
      have hown : owner x = i := hmem.mp (.inr hx)
      refine ⟨hown, fun hloose => ?_⟩
      obtain ⟨j, -, hj⟩ := mem_flatMap.mp hloose
      obtain rfl : j = i := by rw [← hfront j x hj, hown]
      exact (hdisj j).2.2 x hj hx
    · intro ⟨hown, hx⟩
      refine (hmem.mpr hown).resolve_left fun hx' => hx ?_
      exact mem_flatMap.mpr ⟨i, hall i, hx'⟩
  · rw [nodup_flatMap]
    refine ⟨fun i _ => (hdisj i).1, hl.imp fun {i j} hij x hi hj => hij ?_⟩
    rw [← hfront i x hi, hfront j x hj]

/-- A loose element pushed in front of the chain of `j`. -/
lemma push [DecidableEq α] [DecidableEq ι] {owner' j}
    (h : Filed next first count owner (a :: loose))
    (hnext : ∀ x, next' x = if x = a then first j else next x)
    (howner : ∀ x, owner' x = if x = a then j else owner x)
    (hfirst : ∀ i, first' i = if i = j then a else first i)
    (hcount : ∀ i, count' i = if i = j then count j + 1 else count i) :
    Filed next' first' count' owner' loose := by
  have ha : ∀ i, a ∉ chain next (first i) (count i) := by
    intro i hi
    exact ((h.mem i a).mp hi).2 (by simp)
  -- the only link that changes is that of `a`, which is in no chain
  have hsame : ∀ i, chain next' (first i) (count i) = chain next (first i) (count i) := by
    intro i
    refine chain_congr fun x hx => ?_
    rw [hnext, if_neg]
    rintro rfl
    exact ha i hx
  have hchain : ∀ i, chain next' (first' i) (count' i) =
      if i = j then a :: chain next (first j) (count j)
      else chain next (first i) (count i) := by
    intro i
    rw [hfirst, hcount]
    split
    · rw [chain_succ, hnext, if_pos rfl, hsame]
    · exact hsame i
  have haloose : a ∉ loose := (nodup_cons.mp h.loose_nodup).1
  refine ⟨fun i => ?_, fun i x => ?_, (nodup_cons.mp h.loose_nodup).2⟩
  · rw [hchain]
    split
    · exact nodup_cons.mpr ⟨ha j, h.nodup j⟩
    · exact h.nodup i
  · rw [hchain, howner]
    rcases eq_or_ne x a with rfl | hxa
    · by_cases hij : i = j
      · simp [hij, haloose]
      · simp [hij, ha i, Ne.symm hij]
    · rcases eq_or_ne i j with rfl | hij
      · simp [hxa, h.mem]
      · simp [hij, hxa, h.mem]

/-- Every element is in one chain or loose. -/
lemma sum_count [Fintype ι] [Fintype α] [DecidableEq ι] [DecidableEq α]
    (h : Filed next first count owner loose) : ∑ i, count i + loose.length = Fintype.card α := by
  have hcard : ∀ i, count i = ({x | owner x = i ∧ x ∉ loose} : Finset α).card := by
    intro i
    have hset : ({x | owner x = i ∧ x ∉ loose} : Finset α) =
        (chain next (first i) (count i)).toFinset := by
      ext x
      simp [h.mem]
    rw [hset, toFinset_card_of_nodup (h.nodup i), length_chain]
  have hloose : loose.length = ({x | x ∈ loose} : Finset α).card := by
    rw [← toFinset_card_of_nodup h.loose_nodup]
    congr 1
    ext x
    simp
  have hfiber : ({x | x ∉ loose} : Finset α).card =
      ∑ i, ({x | owner x = i ∧ x ∉ loose} : Finset α).card := by
    rw [card_eq_sum_card_fiberwise (f := owner) (t := univ) (by simp)]
    refine sum_congr rfl fun i _ => ?_
    rw [Finset.filter_filter]
    congr 1
    ext x
    simp [and_comm]
  have htotal := card_filter_add_card_filter_not (s := univ) (fun x => x ∈ loose)
  rw [card_univ] at htotal
  simp only [hcard]
  rw [← hfiber, hloose]
  omega

end Filed

end Cantian.Lib
