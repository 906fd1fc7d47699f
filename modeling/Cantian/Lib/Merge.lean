import Mathlib.Data.List.Perm.Basic

/-!
# Merging queues by a key

Several queues are merged by taking, again and again, a first element with
the least key. `Takes` is one such take, `Merges` a run of them. A run
outputs every element once, in the order of its queue; if every queue is
sorted by the key, so is the output.
-/

namespace Cantian.Lib

open List Option

variable {α : Type*} (key : α → Nat)

/-- Taking a first element `x` with the least key leads from the queues `qs` to
`qs'`. -/
def Takes (qs : List (List α)) (x : α) (qs' : List (List α)) : Prop :=
  ∃ (i : Nat) (rest : List α), qs[i]? = some (x :: rest) ∧ qs' = qs.set i rest ∧
    ∀ (j : Nat) (y : α) (rest' : List α), qs[j]? = some (y :: rest') → key x ≤ key y

/-- A run of takes: what it outputs and what it leaves. -/
inductive Merges (qs : List (List α)) : List α → List (List α) → Prop where
  | nil : Merges qs [] qs
  | snoc {out : List α} {x : α} {qs' qs'' : List (List α)} (h : Merges qs out qs')
      (ht : Takes key qs' x qs'') : Merges qs (out ++ [x]) qs''

variable {key} {qs qs' : List (List α)} {x : α} {out : List α}

lemma mem_set_rest {q rest i} (hi : qs[i]? = some (x :: rest)) (hq : q ∈ qs.set i rest) :
    ∃ pre, pre ++ q ∈ qs := by
  obtain hq | rfl := mem_or_eq_of_mem_set hq
  · exact ⟨[], hq⟩
  · exact ⟨[x], mem_of_getElem? hi⟩

lemma Takes.perm (h : Takes key qs x qs') : qs.flatten.Perm (x :: qs'.flatten) := by
  obtain ⟨i, rest, hi, rfl, -⟩ := h
  obtain ⟨hlt, hget⟩ := List.getElem?_eq_some_iff.mp hi
  have hsplit : qs = qs.take i ++ (x :: rest) :: qs.drop (i + 1) := by
    rw [← hget, ← drop_eq_getElem_cons hlt, take_append_drop]
  rw [set_eq_take_append_cons_drop, if_pos hlt]
  conv_lhs => rw [hsplit]
  simp only [flatten_append, flatten_cons, cons_append]
  exact perm_middle

/-- The output and what is left are together what was there. -/
lemma Merges.perm (h : Merges key qs out qs') : qs.flatten.Perm (out ++ qs'.flatten) := by
  induction h with
  | nil => exact List.Perm.refl _
  | snoc _ ht ih =>
    apply ih.trans
    rw [append_assoc]
    exact List.Perm.append_left _ ht.perm

lemma Merges.mem_left (h : Merges key qs out qs') {q} (hq : q ∈ qs') : ∃ pre, pre ++ q ∈ qs := by
  induction h generalizing q with
  | nil => exact ⟨[], hq⟩
  | snoc _ ht ih =>
    obtain ⟨i, rest, hi, rfl, -⟩ := ht
    obtain ⟨pre, hpre⟩ := mem_set_rest hi hq
    obtain ⟨pre', hpre'⟩ := ih hpre
    exact ⟨pre' ++ pre, by rwa [append_assoc]⟩

/-- A relation that holds along every queue still holds along what a run leaves. -/
lemma Merges.pairwise_left {R} (h : Merges key qs out qs') (hs : ∀ q ∈ qs, q.Pairwise R) :
    ∀ q ∈ qs', q.Pairwise R := by
  intro q hq
  obtain ⟨pre, hpre⟩ := h.mem_left hq
  exact (pairwise_append.mp (hs _ hpre)).2.1

/-- In sorted queues the least first element is below everything. -/
lemma Takes.le_all (h : Takes key qs x qs') (hs : ∀ q ∈ qs, q.Pairwise fun a b => key a ≤ key b) :
    ∀ y ∈ qs'.flatten, key x ≤ key y := by
  intro y hy
  have hy : y ∈ qs.flatten := h.perm.mem_iff.mpr (mem_cons_of_mem x hy)
  obtain ⟨-, -, -, -, hleast⟩ := h
  obtain ⟨q, hq, hyq⟩ := mem_flatten.mp hy
  obtain ⟨j, hj⟩ := mem_iff_getElem?.mp hq
  cases q with
  | nil => cases hyq
  | cons z rest =>
    have hz := hleast j z rest hj
    obtain rfl | hyr := mem_cons.mp hyq
    · exact hz
    · exact Nat.le_trans hz ((pairwise_cons.mp (hs _ hq)).1 y hyr)

/-- What each step makes hold between the element that it takes and what is left
holds along the output, and between the output and what is left. -/
lemma Merges.pairwise {R} (h : Merges key qs out qs')
    (hstep : ∀ {out x qs' qs''}, Merges key qs out qs' → Takes key qs' x qs'' →
      ∀ b ∈ qs''.flatten, R x b) :
    out.Pairwise R ∧ ∀ a ∈ out, ∀ b ∈ qs'.flatten, R a b := by
  induction h with
  | nil => exact ⟨List.Pairwise.nil, fun a ha => absurd ha not_mem_nil⟩
  | @snoc out x qs' qs'' hrun ht ih =>
    obtain ⟨hout, hbelow⟩ := ih
    have hx : x ∈ qs'.flatten := ht.perm.mem_iff.mpr mem_cons_self
    constructor
    · rw [pairwise_append]
      refine ⟨hout, pairwise_singleton _ _, fun a ha b hb => ?_⟩
      rw [mem_singleton.mp hb]
      exact hbelow a ha x hx
    · intro a ha b hb
      obtain ha | ha := mem_append.mp ha
      · exact hbelow a ha b (ht.perm.mem_iff.mpr (mem_cons_of_mem x hb))
      · rw [mem_singleton.mp ha]
        exact hstep hrun ht b hb

/-- Merging sorted queues gives sorted output, below everything that is left. -/
lemma Merges.sorted (h : Merges key qs out qs')
    (hs : ∀ q ∈ qs, q.Pairwise fun a b => key a ≤ key b) :
    out.Pairwise (fun a b => key a ≤ key b) ∧ ∀ a ∈ out, ∀ b ∈ qs'.flatten, key a ≤ key b :=
  h.pairwise fun hrun ht => ht.le_all (hrun.pairwise_left hs)

/-- The queue of an element can be told from it. -/
def Tagged (src : α → Nat) (qs : List (List α)) : Prop :=
  ∀ (i : Nat) (q : List α), qs[i]? = some q → ∀ x ∈ q, src x = i

lemma Takes.tagged {src} (h : Takes key qs x qs') (ht : Tagged src qs) : Tagged src qs' := by
  obtain ⟨i, rest, hi, rfl, -⟩ := h
  intro j q hj y hy
  obtain ⟨hlt, -⟩ := List.getElem?_eq_some_iff.mp hi
  rw [getElem?_set] at hj
  split_ifs at hj with hij
  · cases hj
    rw [← hij]
    exact ht i _ hi y (mem_cons_of_mem x hy)
  · exact ht j q hj y hy

lemma Merges.tagged {src} (h : Merges key qs out qs') (htag : Tagged src qs) : Tagged src qs' := by
  induction h with
  | nil => exact htag
  | snoc _ ht ih => exact ht.tagged ih

/-- What holds along every queue holds between the outputs from one queue, and
between an output and what is left of its queue. -/
lemma Merges.same_queue {src R} (h : Merges key qs out qs') (htag : Tagged src qs)
    (hs : ∀ q ∈ qs, q.Pairwise R) :
    Tagged src qs' ∧ out.Pairwise (fun a b => src a = src b → R a b) ∧
      ∀ a ∈ out, ∀ b ∈ qs'.flatten, src a = src b → R a b := by
  refine ⟨h.tagged htag, h.pairwise fun {_ x _ _} hrun ht b hb hsrc => ?_⟩
  have htag' := hrun.tagged htag
  have htag'' := ht.tagged htag'
  obtain ⟨i, rest, hi, rfl, -⟩ := ht
  obtain ⟨hlt, -⟩ := List.getElem?_eq_some_iff.mp hi
  obtain ⟨q, hq, hbq⟩ := mem_flatten.mp hb
  obtain ⟨j, hj⟩ := mem_iff_getElem?.mp hq
  have hxi : src x = i := htag' i _ hi x mem_cons_self
  have hbj : src b = j := htag'' j q hj b hbq
  have hij : i = j := by rw [← hxi, ← hbj, hsrc]
  rw [← hij, getElem?_set_self hlt] at hj
  cases hj
  have hpair := hrun.pairwise_left hs _ (mem_of_getElem? hi)
  exact (pairwise_cons.mp hpair).1 b hbq

/-! ## Scanning for the least first element -/

section
variable (key)

/-- Scan the queues in order; `best` is the index and first element chosen so far.
A later queue is chosen only if its first element has a smaller key. -/
def leastHeadFrom : List (List α) → Nat → Option (Nat × α) → Option (Nat × α)
  | [], _, best => best
  | q :: qs, i, none => leastHeadFrom qs (i + 1) (q.head?.map fun x => (i, x))
  | q :: qs, i, some (id, g) =>
    match q.head? with
    | none => leastHeadFrom qs (i + 1) (some (id, g))
    | some c =>
      if key g > key c then leastHeadFrom qs (i + 1) (some (i, c))
      else leastHeadFrom qs (i + 1) (some (id, g))

/-- The first queue whose first element has the least key. -/
def leastHead (qs : List (List α)) : Option (Nat × α) := leastHeadFrom key qs 0 none

/-- Take that element. -/
def takeLeast (qs : List (List α)) : Option (α × List (List α)) :=
  (leastHead key qs).map fun p => (p.2, qs.modify p.1 List.tail)

end

/-- What the scan has chosen among the queues before index `i`. -/
def Chosen (key : α → Nat) (qs : List (List α)) (i : Nat) (best : Option (Nat × α)) : Prop :=
  match best with
  | none => ∀ j < i, ∀ q, qs[j]? = some q → q = []
  | some (id, g) => (∃ rest, qs[id]? = some (g :: rest)) ∧
    ∀ j < i, ∀ y rest, qs[j]? = some (y :: rest) → key g ≤ key y

lemma Chosen.succ {i best q} (h : Chosen key qs i best) (hq : qs[i]? = some q) :
    (q = [] → Chosen key qs (i + 1) best) ∧
    (∀ c rest, q = c :: rest → (∀ id g, best = some (id, g) → key c ≤ key g) →
      Chosen key qs (i + 1) (some (i, c))) ∧
    (∀ c rest id g, q = c :: rest → best = some (id, g) → key g ≤ key c →
      Chosen key qs (i + 1) best) := by
  refine ⟨?_, ?_, ?_⟩
  · rintro rfl
    cases best with
    | none =>
      intro j hj q' hq'
      by_cases hji : j = i
      · rw [hji, hq] at hq'
        exact (some.inj hq').symm
      · exact h j (by omega) q' hq'
    | some =>
      refine ⟨h.1, fun j hj y rest hy => ?_⟩
      by_cases hji : j = i
      · rw [hji, hq] at hy
        cases hy
      · exact h.2 j (by omega) y rest hy
  · rintro c rest rfl hle
    refine ⟨⟨rest, hq⟩, fun j hj y rest' hy => ?_⟩
    by_cases hji : j = i
    · rw [hji, hq] at hy
      cases hy
      exact Nat.le_refl _
    · cases best with
      | none => cases h j (by omega) _ hy
      | some p => exact Nat.le_trans (hle p.1 p.2 rfl) (h.2 j (by omega) y rest' hy)
  · rintro c rest id g rfl rfl hle
    refine ⟨h.1, fun j hj y rest' hy => ?_⟩
    by_cases hji : j = i
    · rw [hji, hq] at hy
      cases hy
      exact hle
    · exact h.2 j (by omega) y rest' hy

lemma leastHeadFrom_chosen (todo : List (List α)) (i : Nat) (best : Option (Nat × α))
    (hdrop : qs.drop i = todo) (h : Chosen key qs i best) :
    Chosen key qs qs.length (leastHeadFrom key todo i best) := by
  induction todo generalizing i best with
  | nil =>
    have hlen : qs.length ≤ i := drop_eq_nil_iff.mp hdrop
    cases best with
    | none => exact fun j hj => h j (by omega)
    | some => exact ⟨h.1, fun j hj => h.2 j (by omega)⟩
  | cons q todo ih =>
    have hq : qs[i]? = some q := by
      rw [← head?_drop, hdrop]
      rfl
    have hnext : qs.drop (i + 1) = todo := by
      rw [← drop_drop, hdrop]
      rfl
    obtain ⟨hnil, htake, hkeep⟩ := h.succ hq
    cases best with
    | none =>
      cases q with
      | nil => exact ih (i + 1) none hnext (hnil rfl)
      | cons c rest => exact ih (i + 1) _ hnext (htake c rest rfl fun _ _ he => by cases he)
    | some p =>
      obtain ⟨id, g⟩ := p
      cases q with
      | nil => exact ih (i + 1) _ hnext (hnil rfl)
      | cons c rest =>
        simp only [leastHeadFrom, head?_cons]
        split_ifs with hlt
        · apply ih (i + 1) _ hnext
          apply htake c rest rfl
          intro id' g' he
          cases he
          omega
        · exact ih (i + 1) _ hnext (hkeep c rest id g rfl rfl (by omega))

lemma leastHead_chosen (key : α → Nat) (qs : List (List α)) :
    Chosen key qs qs.length (leastHead key qs) :=
  leastHeadFrom_chosen qs 0 none rfl fun _ hj => absurd hj (Nat.not_lt_zero _)

/-- The scan finds nothing only when all queues are empty. -/
lemma takeLeast_none (h : takeLeast key qs = none) : qs.flatten = [] := by
  have hnone := map_eq_none_iff.mp h
  have hchosen := leastHead_chosen key qs
  rw [hnone] at hchosen
  apply flatten_eq_nil_iff.mpr
  intro q hq
  obtain ⟨j, hj⟩ := mem_iff_getElem?.mp hq
  obtain ⟨hlt, -⟩ := List.getElem?_eq_some_iff.mp hj
  exact hchosen j hlt q hj

lemma takeLeast_takes (h : takeLeast key qs = some (x, qs')) : Takes key qs x qs' := by
  obtain ⟨⟨id, g⟩, hleast, heq⟩ := map_eq_some_iff.mp h
  have hchosen := leastHead_chosen key qs
  rw [hleast] at hchosen
  obtain ⟨⟨rest, hid⟩, hle⟩ := hchosen
  cases heq
  refine ⟨id, rest, hid, ?_, fun j y rest' hj => ?_⟩
  · rw [modify_eq_set_getElem?, hid]
    rfl
  · obtain ⟨hlt, -⟩ := List.getElem?_eq_some_iff.mp hj
    exact hle j hlt y rest' hj

end Cantian.Lib
