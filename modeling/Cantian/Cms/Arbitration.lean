import Mathlib.Data.Finset.Card
import Mathlib.Data.Nat.Bitwise
import Cantian.Cms.MaxClique

/-!
# When the vote count picks a best group

A group is a set of nodes that all report each other connected. A best group
is one of the largest, among these one with the most online nodes, among
these one with the most joined nodes. `Grown` says which set grows from an
edge in index order, and `GroupOf` which of these sets a node keeps.
-/

namespace Cantian.Cms.Vote

open Function

/-- The nodes all report each other connected. -/
def IsGroup (nodeCount : Nat) (votes : Nat → Nat → Nat) (s : Finset Nat) : Prop :=
  (∀ i ∈ s, i < nodeCount) ∧ ∀ i ∈ s, ∀ j ∈ s, votes i j = 1

/-- How many nodes of `s` are in the node set. -/
def among (nodes : Nat → Bool) (s : Finset Nat) : Nat :=
  (s.filter fun i => nodes i = true).card

structure BestGroup (nodeCount : Nat) (votes : Nat → Nat → Nat) (online joined : Nat → Bool)
    (s : Finset Nat) : Prop where
  group : IsGroup nodeCount votes s
  largest : ∀ t, IsGroup nodeCount votes t → t.card ≤ s.card
  mostOnline : ∀ t, IsGroup nodeCount votes t → t.card = s.card → among online t ≤ among online s
  mostJoined : ∀ t, IsGroup nodeCount votes t → t.card = s.card →
    among online t = among online s → among joined t ≤ among joined s

def Connected (votes : Nat → Nat → Nat) (i j : Nat) : Prop :=
  votes i j = 1 ∧ votes j i = 1

/-- `s` grows from `i` and `j`: it takes every later node that is connected to
`i` and to all its members before that node. -/
structure Grown (nodeCount : Nat) (votes : Nat → Nat → Nat) (i j : Nat) (s : Finset Nat) :
    Prop where
  lt : ∀ m ∈ s, m < nodeCount
  left : i ∈ s
  right : j ∈ s
  later : ∀ m ∈ s, m = i ∨ m = j ∨ j < m
  joins : ∀ m, j < m → m < nodeCount → m ≠ i →
    (m ∈ s ↔ ∀ k ∈ s, k < m ∨ k = i → Connected votes k m)

/-- The group that node `i` keeps: the first largest of the sets that grow from
`i` and one of the nodes it is connected to. -/
def GroupOf (nodeCount : Nat) (votes : Nat → Nat → Nat) (i : Nat) (s : Finset Nat) : Prop :=
  ((∀ j < nodeCount, ¬Connected votes i j) ∧ s = ∅) ∨
    ∃ j < nodeCount, Connected votes i j ∧ Grown nodeCount votes i j s ∧
      ∀ j' < nodeCount, ∀ s', Connected votes i j' → Grown nodeCount votes i j' s' →
        s'.card ≤ s.card ∧ (j' < j → s'.card < s.card)

/-! ## Growing a set from an edge -/

variable {votes : Nat → Nat → Nat} {i j n : Nat} {adj : Nat → Nat → Bool}

lemma fullConnect_eq_true : fullConnect votes i j = true ↔ Connected votes i j := by
  simp [fullConnect, Connected]

lemma joinNodeSetInner_eq_true {res m t} :
    joinNodeSetInner adj res m t = true ↔ ∀ k < t, res k = true → adj k m = true := by
  induction t with
  | zero => simp [joinNodeSetInner]
  | succ t ih =>
    rw [joinNodeSetInner, Nat.forall_lt_succ_right, ← ih]
    cases res t <;> cases adj t m <;> simp

/-- A node is in the set from the start, or it joins when its turn comes. -/
lemma joinNodeSet_apply (n : Nat) (adj : Nat → Nat → Bool) (res : Nat → Bool) (j m k : Nat) :
    joinNodeSet n adj res j m k = true ↔
      res k = true ∨ (j < k ∧ k < m ∧
        joinNodeSetInner adj (joinNodeSet n adj res j k) k n = true) := by
  induction m with
  | zero => simp [joinNodeSet]
  | succ m ih =>
    rw [joinNodeSet]
    rcases eq_or_ne k m with rfl | hk
    · have hcur : joinNodeSet n adj res j k k = true ↔ res k = true := by
        rw [ih]
        simp
      split_ifs with h
      · simp only [Bool.and_eq_true, decide_eq_true_eq] at h
        simp [h]
      · simp only [Bool.and_eq_true, decide_eq_true_eq] at h
        rw [hcur]
        constructor
        · exact Or.inl
        · rintro (hres | ⟨hj, -, hin⟩)
          · exact hres
          · exact absurd ⟨hj, hin⟩ h
    · have hlt : k < m + 1 ↔ k < m := by omega
      rw [hlt, ← ih]
      split
      · rw [update_of_ne hk]
      · rfl

/-- The members of a 0/1 array over the nodes. -/
def members (n : Nat) (s : Nat → Bool) : Finset Nat :=
  (Finset.range n).filter fun i => s i = true

@[simp] lemma mem_members {s} : i ∈ members n s ↔ i < n ∧ s i = true := by
  simp [members]

lemma card_members (n : Nat) (s : Nat → Bool) : (members n s).card = countNodes s n := by
  induction n with
  | zero => rfl
  | succ n ih =>
    rw [members, Finset.range_add_one, Finset.filter_insert, countNodes]
    split
    · rw [Finset.card_insert_of_notMem (by simp)]
      exact congrArg (· + 1) ih
    · exact ih

/-- While the turn of `k` has not come, the set below `k` is final already. -/
lemma joinNodeSet_of_lt {res m k t} (ht : t < k) (hk : k ≤ m) :
    joinNodeSet n adj res j k t = joinNodeSet n adj res j m t := by
  have hiff : joinNodeSet n adj res j k t = true ↔ joinNodeSet n adj res j m t = true := by
    rw [joinNodeSet_apply, joinNodeSet_apply]
    simp [ht, lt_of_lt_of_le ht hk]
  exact Bool.eq_iff_iff.mpr hiff

lemma joinNodeSet_of_le {res k t} (ht : k ≤ t) : joinNodeSet n adj res j k t = res t := by
  have hiff : joinNodeSet n adj res j k t = true ↔ res t = true := by
    rw [joinNodeSet_apply]
    simp [not_lt.mpr ht]
  exact Bool.eq_iff_iff.mpr hiff

lemma grown_grow {n votes i j} (hi : i < n) (hj : j < n) :
    Grown n votes i j (members n (grow n (fullConnect votes) i j)) where
  lt m hm := (mem_members.mp hm).1
  left := by
    rw [mem_members, grow, joinNodeSet_apply]
    simp [hi]
  right := by
    rw [mem_members, grow, joinNodeSet_apply]
    simp [hj]
  later m hm := by
    rw [mem_members, grow, joinNodeSet_apply] at hm
    rcases hm.2 with hm | hm
    · simp only [Bool.or_eq_true, beq_iff_eq] at hm
      exact hm.elim Or.inl fun h => .inr (.inl h)
    · exact .inr (.inr hm.1)
  joins m hjm hm hne := by
    have hres : (m == i || m == j) = false := by
      simp [hne, ne_of_gt hjm]
    rw [mem_members, grow, joinNodeSet_apply, joinNodeSetInner_eq_true]
    simp only [hres, Bool.false_eq_true, false_or, hm, hjm, true_and, mem_members]
    constructor
    · intro hall k hk hkm
      apply fullConnect_eq_true.mp
      apply hall k hk.1
      by_cases hlt : k < m
      · rw [joinNodeSet_of_lt hlt (le_of_lt hm)]
        exact hk.2
      · rw [joinNodeSet_of_le (not_lt.mp hlt)]
        simp [hkm.resolve_left hlt]
    · intro hall k hk hkm
      apply fullConnect_eq_true.mpr
      by_cases hlt : k < m
      · rw [joinNodeSet_of_lt hlt (le_of_lt hm)] at hkm
        exact hall k ⟨hk, hkm⟩ (.inl hlt)
      · rw [joinNodeSet_of_le (not_lt.mp hlt)] at hkm
        have hki : k = i := by
          simp only [Bool.or_eq_true, beq_iff_eq] at hkm
          exact hkm.resolve_right fun h => hlt (h ▸ hjm)
        refine hall k ⟨hk, ?_⟩ (.inr hki)
        rw [joinNodeSet_apply]
        simp [hki]

lemma Grown.after {s m} (hs : Grown n votes i j s) (hm : m ∈ s) (hmi : m ≠ i) (hmj : m ≠ j) :
    j < m ∧ m < n :=
  ⟨((hs.later m hm).resolve_left hmi).resolve_left hmj, hs.lt m hm⟩

lemma Grown.unique {s t} (hs : Grown n votes i j s) (ht : Grown n votes i j t) : s = t := by
  ext m
  -- the members before `m` decide whether `m` joins
  induction m using Nat.strong_induction_on with
  | _ m ih =>
    by_cases hmi : m = i
    · simp [hmi, hs.left, ht.left]
    by_cases hmj : m = j
    · simp [hmj, hs.right, ht.right]
    by_cases hlt : j < m ∧ m < n
    · rw [hs.joins m hlt.1 hlt.2 hmi, ht.joins m hlt.1 hlt.2 hmi]
      have hmem : ∀ k, k < m ∨ k = i → (k ∈ s ↔ k ∈ t) := by
        rintro k (hk | rfl)
        · exact ih k hk
        · simp [hs.left, ht.left]
      constructor
      · intro hall k hk hkm
        exact hall k ((hmem k hkm).mpr hk) hkm
      · intro hall k hk hkm
        exact hall k ((hmem k hkm).mp hk) hkm
    · exact iff_of_false (fun hm => hlt (hs.after hm hmi hmj))
        fun hm => hlt (ht.after hm hmi hmj)

/-- A connected pair grows to a group, since a connected node votes for itself. -/
lemma Grown.isGroup {s} (hs : Grown n votes i j s) (hij : Connected votes i j)
    (hself : ∀ k < n, (∀ m < n, votes k m = 0) ∨ votes k k = 1) : IsGroup n votes s := by
  have hi : i < n := hs.lt i hs.left
  have hj : j < n := hs.lt j hs.right
  -- two members are connected: the later one has been checked against the earlier one
  have hconn : ∀ a ∈ s, ∀ b ∈ s, a ≠ b → Connected votes a b := by
    have hi_of : ∀ b ∈ s, b ≠ i → Connected votes i b := by
      intro b hb hbi
      rcases hs.later b hb with h | h | h
      · exact absurd h hbi
      · exact h ▸ hij
      · exact (hs.joins b h (hs.lt b hb) hbi).mp hb i hs.left (.inr rfl)
    have hlt_of : ∀ a ∈ s, ∀ b ∈ s, a < b → Connected votes a b := by
      intro a ha b hb hab
      by_cases hbi : b = i
      · have h := hi_of a ha (by omega)
        exact hbi ▸ ⟨h.2, h.1⟩
      · rcases hs.later b hb with h | h | h
        · exact absurd h hbi
        · rcases hs.later a ha with h' | h' | h'
          · exact h' ▸ hi_of b hb hbi
          · omega
          · omega
        · exact (hs.joins b h (hs.lt b hb) hbi).mp hb a ha (.inl hab)
    intro a ha b hb hab
    rcases Nat.lt_or_gt_of_ne hab with h | h
    · exact hlt_of a ha b hb h
    · have hba := hlt_of b hb a ha h
      exact ⟨hba.2, hba.1⟩
  refine ⟨hs.lt, fun a ha b hb => ?_⟩
  rcases eq_or_ne a b with rfl | hab
  · -- `a` votes: it reports `i`, or it is `i` and reports `j`
    have hvotes : ∃ m < n, votes a m = 1 := by
      by_cases hai : a = i
      · exact ⟨j, hj, hai ▸ hij.1⟩
      · exact ⟨i, hi, (hconn a ha i hs.left hai).1⟩
    obtain ⟨m, hm, hv⟩ := hvotes
    rcases hself a (hs.lt a ha) with h | h
    · cases (h m hm).symm.trans hv
    · exact h
  · exact (hconn a ha b hb hab).1

/-! ## The group of each node -/

lemma Grown.card_pos {s} (hs : Grown n votes i j s) : 0 < s.card :=
  Finset.card_pos.mpr ⟨i, hs.left⟩

/-- What the loop over `j` has found for node `i` among the nodes before `bound`. -/
structure Found (n : Nat) (votes : Nat → Nat → Nat) (i bound : Nat) (clique : MaxClique) :
    Prop where
  num : clique.specifyNodeCliqueNum i = (members n (clique.containSpecifyNodeClique i)).card
  first : ∃ j < bound, Connected votes i j ∧
    Grown n votes i j (members n (clique.containSpecifyNodeClique i)) ∧
    ∀ j' < bound, Connected votes i j' →
      (members n (grow n (fullConnect votes) i j')).card ≤ clique.specifyNodeCliqueNum i ∧
      (j' < j → (members n (grow n (fullConnect votes) i j')).card <
        clique.specifyNodeCliqueNum i)

/-- The loop leaves the other nodes alone. -/
def SameBut (i : Nat) (c d : MaxClique) : Prop :=
  ∀ k, k ≠ i → d.containSpecifyNodeClique k = c.containSpecifyNodeClique k ∧
    d.specifyNodeCliqueNum k = c.specifyNodeCliqueNum k

lemma SameBut.refl (i : Nat) (c : MaxClique) : SameBut i c c :=
  fun _ _ => ⟨rfl, rfl⟩

lemma SameBut.inner {c d} (h : SameBut i c d) : SameBut i c (solveMaxCliqueInner n adj d i j) := by
  intro k hk
  rw [solveMaxCliqueInner]
  split
  · simp only [update_of_ne hk]
    exact h k hk
  · exact h k hk

lemma members_congr {s t} (h : ∀ k < n, s k = t k) : members n s = members n t :=
  Finset.filter_congr fun k hk => by rw [h k (Finset.mem_range.mp hk)]

/-- One edge of node `i`: a set that is larger than the one kept replaces it. -/
lemma Found.inner {c} (hi : i < n) (hj : j < n) (hij : Connected votes i j)
    (h : Found n votes i j c ∨ (c.specifyNodeCliqueNum i = 0 ∧ ∀ j' < j, ¬Connected votes i j')) :
    Found n votes i (j + 1) (solveMaxCliqueInner n (fullConnect votes) c i j) := by
  have hgrown := @grown_grow n votes i j hi hj
  rw [solveMaxCliqueInner, ← card_members]
  split_ifs with hlt
  · have hmem : members n (fun k => if k < n then grow n (fullConnect votes) i j k
        else c.containSpecifyNodeClique i k) = members n (grow n (fullConnect votes) i j) := by
      apply members_congr
      intro k hk
      rw [if_pos hk]
    refine ⟨by simp only [update_self, hmem], j, Nat.lt_succ_self j, hij, ?_, ?_⟩
    · simp only [update_self, hmem]
      exact hgrown
    · intro j' hj' hconn
      simp only [update_self]
      rcases Nat.lt_succ_iff_lt_or_eq.mp hj' with hj' | rfl
      · have hle : (members n (grow n (fullConnect votes) i j')).card <
            (members n (grow n (fullConnect votes) i j)).card := by
          rcases h with h | h
          · obtain ⟨_, _, _, _, hall⟩ := h.first
            exact lt_of_le_of_lt (hall j' hj' hconn).1 hlt
          · exact absurd hconn (h.2 j' hj')
        exact ⟨le_of_lt hle, fun _ => hle⟩
      · exact ⟨le_refl _, fun hlt' => absurd hlt' (lt_irrefl _)⟩
  · rcases h with h | h
    · obtain ⟨j0, hj0, hconn0, hgrown0, hall⟩ := h.first
      refine ⟨h.num, j0, Nat.lt_succ_of_lt hj0, hconn0, hgrown0, ?_⟩
      exact Nat.forall_lt_succ_right.mpr ⟨hall, fun _ => ⟨not_lt.mp hlt, by omega⟩⟩
    · -- the first edge always fits
      exact absurd (h.1 ▸ hgrown.card_pos) hlt

lemma solveMaxCliqueEdges_spec {n votes i c} (hi : i < n) (hnum : c.specifyNodeCliqueNum i = 0)
    {bound} (hb : bound ≤ n) :
    SameBut i c (solveMaxCliqueEdges n (fullConnect votes) c i bound).1 ∧
      (if (solveMaxCliqueEdges n (fullConnect votes) c i bound).2 then
        (∀ j < bound, ¬Connected votes i j) ∧
          (solveMaxCliqueEdges n (fullConnect votes) c i bound).1 = c
      else Found n votes i bound (solveMaxCliqueEdges n (fullConnect votes) c i bound).1) := by
  induction bound with
  | zero =>
    refine ⟨SameBut.refl i c, ?_⟩
    simp [solveMaxCliqueEdges]
  | succ j ih =>
    obtain ⟨hsame, hfound⟩ := ih (by omega)
    rw [solveMaxCliqueEdges]
    split
    · rename_i hadj
      have hconn := fullConnect_eq_true.mp hadj
      refine ⟨hsame.inner, ?_⟩
      apply Found.inner hi (by omega) hconn
      split at hfound
      · rw [hfound.2]
        exact .inr ⟨hnum, hfound.1⟩
      · exact .inl hfound
    · rename_i hadj
      have hconn : ¬Connected votes i j := fun h => hadj (fullConnect_eq_true.mpr h)
      refine ⟨hsame, ?_⟩
      split_ifs at hfound with hiso
      · rw [if_pos hiso]
        exact ⟨Nat.forall_lt_succ_right.mpr ⟨hfound.1, hconn⟩, hfound.2⟩
      · rw [if_neg hiso]
        obtain ⟨j0, hj0, hconn0, hgrown0, hall⟩ := hfound.first
        refine ⟨hfound.num, j0, Nat.lt_succ_of_lt hj0, hconn0, hgrown0, ?_⟩
        exact Nat.forall_lt_succ_right.mpr ⟨hall, fun hc => absurd hc hconn⟩

lemma Found.groupOf {c} (hi : i < n) (h : Found n votes i n c) :
    GroupOf n votes i (members n (c.containSpecifyNodeClique i)) := by
  obtain ⟨j, hj, hconn, hgrown, hall⟩ := h.first
  refine .inr ⟨j, hj, hconn, hgrown, fun j' hj' s' hconn' hs' => ?_⟩
  rw [hs'.unique (grown_grow hi hj'), ← h.num]
  exact hall j' hj' hconn'

/-- Each node before `bound` has its group; the others have none yet. -/
lemma solveMaxClique_spec {n votes bound} (hb : bound ≤ n) :
    (∀ i < bound, GroupOf n votes i
        (members n ((solveMaxClique n (fullConnect votes) bound).containSpecifyNodeClique i)) ∧
      (solveMaxClique n (fullConnect votes) bound).specifyNodeCliqueNum i =
        (members n
          ((solveMaxClique n (fullConnect votes) bound).containSpecifyNodeClique i)).card) ∧
    ∀ i, bound ≤ i →
      (solveMaxClique n (fullConnect votes) bound).containSpecifyNodeClique i = (fun _ => false) ∧
      (solveMaxClique n (fullConnect votes) bound).specifyNodeCliqueNum i = 0 := by
  induction bound with
  | zero =>
    refine ⟨fun i hi => absurd hi (Nat.not_lt_zero i), fun i _ => ⟨rfl, rfl⟩⟩
  | succ i ih =>
    obtain ⟨hdone, hrest⟩ := ih (by omega)
    have hi : i < n := by omega
    obtain ⟨hsame, hfound⟩ := @solveMaxCliqueEdges_spec n votes i _ hi
      (hrest i (le_refl i)).2 n (le_refl n)
    -- the nodes other than `i` keep what they had
    have hother : SameBut i (solveMaxClique n (fullConnect votes) i)
        (solveMaxClique n (fullConnect votes) (i + 1)) := by
      intro k hk
      rw [solveMaxClique, solveMaxCliqueNode]
      dsimp only
      split
      · simp only [update_of_ne hk]
        exact hsame k hk
      · exact hsame k hk
    refine ⟨fun k hk => ?_, fun k hk => ?_⟩
    · rcases eq_or_ne k i with rfl | hki
      · rw [solveMaxClique, solveMaxCliqueNode]
        split_ifs at hfound with hiso
        · have hempty : members n
              ((solveMaxClique n (fullConnect votes) k).containSpecifyNodeClique k) = ∅ := by
            rw [(hrest k (le_refl k)).1]
            simp [members]
          have hkk : fullConnect votes k k = false := by
            apply Bool.eq_false_iff.mpr
            intro hself
            exact hfound.1 k hi (fullConnect_eq_true.mp hself)
          simp only [hiso, if_true, hfound.2, update_self, hempty, hkk,
            Bool.false_eq_true, if_false, Finset.card_empty, and_true]
          exact .inl ⟨hfound.1, rfl⟩
        · simp only [hiso]
          exact ⟨hfound.groupOf hi, hfound.num⟩
      · rw [(hother k hki).1, (hother k hki).2]
        exact hdone k (by omega)
    · rw [(hother k (by omega)).1, (hother k (by omega)).2]
      exact hrest k (by omega)

end Cantian.Cms.Vote
