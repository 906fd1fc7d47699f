import Mathlib.Data.List.Basic
import Mathlib.Tactic.Linarith

/-!
# Parallel scan ranges of a heap

The data pages of a heap are the leaves of a tree of map pages. A path holds
a map page and a slot for every level. `heap_paral_traversal_map` moves a path
forward by an interval: it carries the quotient up until a page has room for
it, and then goes down by the remainders. `heap_get_paral_range` cuts the heap
into ranges with it.

The tree is described by numbering the pages of each level from the left. The
path to data page `p` then has slot `p / M ^ l % M` on level `l`, and moving it
by `n` gives the path to `p + n`.
-/

namespace Cantian.Heap

open Function List

variable {P : Type}

/-! ## The source -/

structure MapPage (P : Type) where
  isMap : Bool
  hwm : Nat
  node : Nat → P

/-- A map page and a slot of it; `none` is `INVALID_SLOT`. -/
structure MapIndex (P : Type) where
  page : P
  slot : Option Nat

structure MapPath (P : Type) where
  index : Nat → MapIndex P
  level : Nat

/-- What a session reads: the map pages and `max_map_nodes`. -/
structure Session (P : Type) where
  mapNodes : Nat
  read : P → MapPage P

def MapPath.set (path : MapPath P) (level : Nat) (i : MapIndex P) : MapPath P :=
  { path with index := update path.index level i }

def heapParalInitMapPath (mapId : P) (mapLevel : Nat) : MapPath P where
  index i := ⟨mapId, if i < mapLevel then none else some 0⟩
  level := mapLevel

/-- The loop of `heap_paral_traversal_map`; without fuel it has no result. -/
def traversalLoop (s : Session P) :
    Nat → Nat → MapPath P → (Nat → Nat) → Option (Option P × MapPath P)
  | 0, _, _, _ => none
  | fuel + 1, level, path, steps =>
    if path.level < level then some (none, path)
    else match (path.index level).slot with
    | none => traversalLoop s fuel (level + 1) path steps
    | some slot =>
      let mapId := (path.index level).page
      let page := s.read mapId
      let curr := (slot + steps level) % 4294967296
      if page.isMap = false then some (none, path)
      else if page.hwm ≤ curr then
        if page.hwm ≠ s.mapNodes ∨ level = path.level then some (none, path)
        else
          let up := (curr - page.hwm) / s.mapNodes + 1
          let rest := (curr - page.hwm) % s.mapNodes
          traversalLoop s fuel (level + 1) (path.set level ⟨mapId, some 0⟩)
            (update (update steps (level + 1) up) level rest)
      else
        let path := path.set level ⟨mapId, some curr⟩
        match level with
        | 0 => some (some (page.node curr), path)
        | below + 1 =>
          let slot := (path.index below).slot.getD 0
          traversalLoop s fuel below (path.set below ⟨page.node curr, some slot⟩) steps

/-- `none` as the page stands for `INVALID_PAGID`. The loop visits every level at
most once on its way up and once on its way down. -/
def heapParalTraversalMap (s : Session P) (path : MapPath P) (interval : Nat) :
    Option (Option P × MapPath P) :=
  traversalLoop s (2 * path.level + 1) 0 path (update (fun _ => 0) 0 interval)

/-- The loop over the workers, from worker `i` on. -/
def rangeLoop (s : Session P) (interval : Nat) :
    Nat → Nat → MapPath P → Option (List (P × Option P))
  | 0, _, _ => some []
  | todo + 1, i, path =>
    match heapParalTraversalMap s path (if i = 0 then 0 else 1) with
    | none => none
    | some (none, _) => some []
    | some (some l, path) =>
      match heapParalTraversalMap s path interval with
      | none => none
      | some (none, _) => some [(l, none)]
      | some (some r, path) => (rangeLoop s interval todo (i + 1) path).map ((l, some r) :: ·)

/-- The right end of the last range is left open. -/
def openLast : List (P × Option P) → List (P × Option P)
  | [] => []
  | [(l, _)] => [(l, none)]
  | x :: y :: xs => x :: openLast (y :: xs)

def heapGetParalRange (s : Session P) (mapId : P) (level pages workers : Nat) :
    Option (List (P × Option P)) :=
  let interval := (pages / workers + 4294967295) % 4294967296
  (rangeLoop s interval workers 0 (heapParalInitMapPath mapId level)).map openLast

/-! ## Trees that are filled in order -/

/-- The number, on level `l`, of the page that data page `p` is under. -/
def Session.num (s : Session P) (p l : Nat) : Nat := p / s.mapNodes ^ l

/-- The pages of the tree by level and number: level 0 are the `n` data pages,
level `l + 1` the map pages that list level `l`. All pages of a level are full
but the last one. -/
structure Filled (s : Session P) (top n : Nat) (ids : Nat → Nat → P) : Prop where
  nodesPos : 0 < s.mapNodes
  nodesLt : s.mapNodes < 65536
  pagesPos : 0 < n
  root : n ≤ s.mapNodes ^ (top + 1)
  isMap : ∀ l ≤ top, ∀ j ≤ s.num (n - 1) (l + 1), (s.read (ids (l + 1) j)).isMap = true
  hwm : ∀ l ≤ top, ∀ j ≤ s.num (n - 1) (l + 1), (s.read (ids (l + 1) j)).hwm =
    min s.mapNodes (s.num (n - 1) l + 1 - s.mapNodes * j)
  node : ∀ l ≤ top, ∀ j ≤ s.num (n - 1) (l + 1), ∀ c < (s.read (ids (l + 1) j)).hwm,
    (s.read (ids (l + 1) j)).node c = ids l (s.mapNodes * j + c)

/-- The path stands on data page `p` on the levels from `l` on. -/
structure On (s : Session P) (top : Nat) (ids : Nat → Nat → P) (p l : Nat) (path : MapPath P) :
    Prop where
  level : path.level = top
  index : ∀ k, l ≤ k → k ≤ top →
    path.index k = ⟨ids (k + 1) (s.num p (k + 1)), some (s.num p k % s.mapNodes)⟩

/-- The outcome of moving a path to data page `q`. -/
inductive Reached (s : Session P) (top n : Nat) (ids : Nat → Nat → P) (q : Nat) :
    Option (Option P × MapPath P) → Prop
  | page {path} (hq : q < n) (hon : On s top ids q 0 path) :
      Reached s top n ids q (some (some (ids 0 q), path))
  | none {path} (hq : n ≤ q) : Reached s top n ids q (some (none, path))

section
variable {s : Session P} {top n : Nat} {ids : Nat → Nat → P} {p q l fuel : Nat}
  {path : MapPath P} {steps : Nat → Nat}

lemma Session.num_zero (s : Session P) (p : Nat) : s.num p 0 = p := by simp [Session.num]

lemma Session.num_succ (s : Session P) (p l : Nat) : s.num p (l + 1) = s.num p l / s.mapNodes := by
  rw [Session.num, pow_succ, ← Nat.div_div_eq_div_mul, Session.num]

lemma num_le (hq : q < n) (l : Nat) : s.num q l ≤ s.num (n - 1) l :=
  Nat.div_le_div_right (Nat.le_sub_one_of_lt hq)

/-- A number beyond the last one of its level belongs to no page. -/
lemma ge_of_num_lt (hq : s.num (n - 1) l < s.num q l) : n ≤ q :=
  not_lt.mp fun hlt => not_le.mpr hq (num_le hlt l)

lemma MapPath.set_self (path : MapPath P) (l : Nat) (i : MapIndex P) : (path.set l i).index l = i :=
  update_self ..

lemma MapPath.set_of_ne (path : MapPath P) {l k} (h : k ≠ l) (i : MapIndex P) :
    (path.set l i).index k = path.index k :=
  update_of_ne h ..

lemma On.set (h : On s top ids p (l + 1) path) : On s top ids p l
      (path.set l ⟨ids (l + 1) (s.num p (l + 1)), some (s.num p l % s.mapNodes)⟩) where
  level := h.level
  index k hk htop := by
    rcases eq_or_lt_of_le hk with rfl | hlt
    · rw [path.set_self]
    · rw [path.set_of_ne (by omega), h.index k hlt htop]

lemma On.set_below (h : On s top ids p l path) {k} (hk : k < l) (i : MapIndex P) :
    On s top ids p l (path.set k i) where
  level := h.level
  index j hj htop := by rw [path.set_of_ne (by omega), h.index j hj htop]

/-- Above the first level on which they are in one page, two pages have one path. -/
lemma On.congr (h : On s top ids p l path) (hpq : s.num p l = s.num q l) :
    On s top ids q l path where
  level := h.level
  index k hk htop := by
    have habove : ∀ j, l ≤ j → s.num p j = s.num q j := by
      intro j hj
      induction hj with
      | refl => exact hpq
      | step hj ih => rw [s.num_succ, s.num_succ, ih]
    rw [h.index k hk htop, habove k hk, habove (k + 1) (by omega)]

lemma On.mono (h : On s top ids p l path) : On s top ids p (l + 1) path :=
  ⟨h.level, fun k hk => h.index k (by omega)⟩

/-! ### One visit of a level -/

lemma traversalLoop_full {id slot curr} (hmap : (s.read id).isMap = true) (hlt : curr < 4294967296)
    (hl : l ≤ path.level) (hindex : path.index l = ⟨id, some slot⟩) (hcurr : slot + steps l = curr)
    (hfull : (s.read id).hwm ≤ curr) :
    traversalLoop s (fuel + 1) l path steps =
      if (s.read id).hwm ≠ s.mapNodes ∨ l = path.level then some (none, path)
      else traversalLoop s fuel (l + 1) (path.set l ⟨id, some 0⟩)
        (update (update steps (l + 1) ((curr - (s.read id).hwm) / s.mapNodes + 1)) l
          ((curr - (s.read id).hwm) % s.mapNodes)) := by
  subst hcurr
  rw [traversalLoop, if_neg (not_lt.mpr hl), hindex]
  simp only [hmap, Bool.true_eq_false, if_false, Nat.mod_eq_of_lt hlt, hfull, if_true]

/-! ### The way down and the way up -/

section
variable (h : Filled s top n ids) (hl : l ≤ top)
include h hl

/-- The page above number `s.num q l` has room for it if the number is one of the level. -/
lemma Filled.hwm_le_iff (hpage : s.num q (l + 1) ≤ s.num (n - 1) (l + 1)) :
    (s.read (ids (l + 1) (s.num q (l + 1)))).hwm ≤ s.num q l % s.mapNodes ↔
      s.num (n - 1) l < s.num q l := by
  rw [h.hwm l hl _ hpage, s.num_succ]
  have hmod := Nat.mod_lt (s.num q l) h.nodesPos
  have hdiv := Nat.div_add_mod (s.num q l) s.mapNodes
  omega

lemma Filled.node_eq (hq : s.num q l ≤ s.num (n - 1) l)
    (hpage : s.num q (l + 1) ≤ s.num (n - 1) (l + 1)) :
    (s.read (ids (l + 1) (s.num q (l + 1)))).node (s.num q l % s.mapNodes) =
      ids l (s.num q l) := by
  have hroom := mt (h.hwm_le_iff hl hpage).mp (not_lt.mpr hq)
  rw [h.node l hl _ hpage _ (not_le.mp hroom), s.num_succ, Nat.div_add_mod]

lemma Filled.beyond {slot} (hlevel : path.level = top)
    (hindex : path.index l = ⟨ids (l + 1) (s.num q (l + 1)), some slot⟩)
    (hslot : slot + steps l = s.num q l % s.mapNodes)
    (hpage : s.num q (l + 1) ≤ s.num (n - 1) (l + 1)) (hq : s.num (n - 1) l < s.num q l) :
    Reached s top n ids q (traversalLoop s (fuel + 1) l path steps) := by
  have hnodes := h.nodesLt
  have hmod := Nat.mod_lt (s.num q l) h.nodesPos
  have hfull := (h.hwm_le_iff hl hpage).mpr hq
  rw [traversalLoop_full (h.isMap _ hl _ hpage) (by omega) (hlevel ▸ hl) hindex hslot hfull,
    if_pos (.inl (by omega))]
  exact .none (ge_of_num_lt hq)

/-- The way down: on level `l` the path stands in the page above the target,
and the steps left are the remainders. -/
lemma Filled.descend (slot : Nat) (hfuel : l < fuel) (hon : On s top ids q (l + 1) path)
    (hindex : path.index l = ⟨ids (l + 1) (s.num q (l + 1)), some slot⟩)
    (hbelow : ∀ k < l, (path.index k).slot.getD 0 = 0)
    (hslot : slot + steps l = s.num q l % s.mapNodes)
    (hsteps : ∀ k < l, steps k = s.num q k % s.mapNodes)
    (hpage : s.num q (l + 1) ≤ s.num (n - 1) (l + 1)) :
    Reached s top n ids q (traversalLoop s fuel l path steps) := by
  have hnodes := h.nodesLt
  have hlt : ∀ l, s.num q l % s.mapNodes % 4294967296 = s.num q l % s.mapNodes := fun l =>
    Nat.mod_eq_of_lt ((Nat.mod_lt _ h.nodesPos).trans (by omega))
  induction l generalizing fuel path slot with
  | zero =>
    obtain ⟨fuel, rfl⟩ := Nat.exists_eq_succ_of_ne_zero (Nat.ne_zero_of_lt hfuel)
    by_cases hq : s.num (n - 1) 0 < s.num q 0
    · exact h.beyond hl hon.level hindex hslot hpage hq
    rw [traversalLoop, if_neg (Nat.not_lt_zero _), hindex]
    simp only [h.isMap _ hl _ hpage, Bool.true_eq_false, if_false, hslot, hlt,
      mt (h.hwm_le_iff hl hpage).mp hq, h.node_eq hl (not_lt.mp hq) hpage]
    rw [s.num_zero, s.num_zero] at hq
    have hpos := h.pagesPos
    have hpath := hon.set
    rw [s.num_zero] at hpath ⊢
    exact .page (by omega) hpath
  | succ l ih =>
    obtain ⟨fuel, rfl⟩ := Nat.exists_eq_succ_of_ne_zero (Nat.ne_zero_of_lt hfuel)
    by_cases hq : s.num (n - 1) (l + 1) < s.num q (l + 1)
    · exact h.beyond hl hon.level hindex hslot hpage hq
    rw [traversalLoop, if_neg (not_lt.mpr (hon.level ▸ hl)), hindex]
    simp only [h.isMap _ hl _ hpage, Bool.true_eq_false, if_false, hslot, hlt,
      mt (h.hwm_le_iff hl hpage).mp hq, h.node_eq hl (not_lt.mp hq) hpage,
      MapPath.set_of_ne _ (Nat.lt_succ_self l).ne, hbelow l (Nat.lt_succ_self l)]
    refine ih (by omega) 0 (by omega) (hon.set.set_below (Nat.lt_succ_self l) _)
      (MapPath.set_self ..) (fun k hk => ?_) ?_ (fun k hk => hsteps k (by omega))
      (not_lt.mp hq)
    · rw [MapPath.set_of_ne _ (by omega), MapPath.set_of_ne _ (by omega)]
      exact hbelow k (by omega)
    · rw [zero_add]
      exact hsteps l (Nat.lt_succ_self l)

/-- A full page without a right neighbour, and a page that is not full, end the level. -/
lemma Filled.ge_of_last (hp : p < n) (hfull : s.mapNodes * (s.num p (l + 1) + 1) ≤ s.num q l)
    (hlast : (s.read (ids (l + 1) (s.num p (l + 1)))).hwm ≠ s.mapNodes ∨ l = top) : n ≤ q := by
  apply ge_of_num_lt (s := s) (l := l)
  rw [Nat.mul_succ] at hfull
  rcases hlast with hlast | rfl
  · rw [h.hwm l hl _ (num_le hp _)] at hlast
    omega
  · have hpos := h.pagesPos
    have hroot := h.root
    rw [pow_succ] at hroot
    have hlt : s.num (n - 1) l < s.mapNodes := Nat.div_lt_of_lt_mul (by omega)
    omega

end

/-- Carrying the quotient up does not make the sum of slot and step greater. -/
lemma carry_lt {m a curr} (ha : a < m) (hcurr : m ≤ curr) (hlt : curr < 4294967296) :
    a + curr / m < 4294967296 := by
  have hpos : 0 < curr / m := Nat.div_pos hcurr (by omega)
  have hmul : m + curr / m ≤ m * (curr / m) + 1 := by nlinarith
  have hdiv := Nat.div_add_mod curr m
  omega

/-- The way up from data page `p`: what is left to move on level `l` leads to the
target, and the levels below have their remainders. -/
lemma Filled.ascend (h : Filled s top n ids) (hp : p < n) (hl : l ≤ top)
    (hfuel : top - l + top < fuel) (hon : On s top ids p l path)
    (hbelow : ∀ k < l, (path.index k).slot.getD 0 = 0) (hstep : s.num p l + steps l = s.num q l)
    (hsteps : ∀ k < l, steps k = s.num q k % s.mapNodes)
    (hlt : s.num p l % s.mapNodes + steps l < 4294967296) :
    Reached s top n ids q (traversalLoop s fuel l path steps) := by
  induction fuel generalizing l path steps with
  | zero => exact absurd hfuel (Nat.not_lt_zero _)
  | succ fuel ih =>
    have hindex := hon.index l (le_refl l) hl
    have hpage : s.num p (l + 1) ≤ s.num (n - 1) (l + 1) := num_le hp _
    have hnodes := h.nodesPos
    have hsum : s.num q l = s.mapNodes * s.num p (l + 1) + (s.num p l % s.mapNodes + steps l) := by
      rw [← hstep, s.num_succ, ← add_assoc, Nat.div_add_mod]
    generalize hcurr : s.num p l % s.mapNodes + steps l = curr at hlt hsum
    have habove : s.num q (l + 1) = s.num p (l + 1) + curr / s.mapNodes := by
      rw [s.num_succ q, hsum, Nat.mul_add_div hnodes]
    have hmod : s.num q l % s.mapNodes = curr % s.mapNodes := by
      rw [hsum, Nat.mul_add_mod_self_left]
    by_cases hroom : curr < s.mapNodes
    · -- the target is in the same page
      simp only [Nat.div_eq_of_lt hroom, add_zero] at habove
      rw [Nat.mod_eq_of_lt hroom] at hmod
      rw [← habove] at hindex hpage
      exact h.descend hl _ (by omega) (hon.mono.congr habove.symm) hindex hbelow
        (hcurr.trans hmod.symm) hsteps hpage
    have hge := not_lt.mp hroom
    have hhwm := h.hwm l hl _ hpage
    rw [traversalLoop_full (h.isMap _ hl _ hpage) hlt (hon.level ▸ hl) hindex hcurr (by omega),
      hon.level]
    by_cases hlast : (s.read (ids (l + 1) (s.num p (l + 1)))).hwm ≠ s.mapNodes ∨ l = top
    · rw [if_pos hlast]
      exact .none (h.ge_of_last hl hp (by rw [Nat.mul_succ]; omega) hlast)
    rw [if_neg hlast]
    rw [not_or, not_not] at hlast
    rw [hlast.1, ← Nat.div_eq_sub_div hnodes hge, ← Nat.mod_eq_sub_mod hge]
    refine ih (by omega) (by omega) (hon.mono.set_below (Nat.lt_succ_self l) _)
      (fun k hk => ?_) ?_ (fun k hk => ?_) ?_
    · rcases Nat.lt_succ_iff_lt_or_eq.mp hk with hk | rfl
      · rw [MapPath.set_of_ne _ (by omega)]
        exact hbelow k hk
      · rw [MapPath.set_self, Option.getD_some]
    · rw [update_of_ne (by omega), update_self, habove]
    · rcases Nat.lt_succ_iff_lt_or_eq.mp hk with hk | rfl
      · rw [update_of_ne (by omega), update_of_ne (by omega)]
        exact hsteps k hk
      · rw [update_self, hmod]
    · rw [update_of_ne (by omega), update_self]
      exact carry_lt (Nat.mod_lt _ hnodes) hge hlt

/-- Moving a path from data page `p` by `k` pages. -/
lemma Filled.traversal (h : Filled s top n ids) (hp : p < n) (hon : On s top ids p 0 path) {k}
    (hlt : p % s.mapNodes + k < 4294967296) :
    Reached s top n ids (p + k) (heapParalTraversalMap s path k) := by
  unfold heapParalTraversalMap
  rw [hon.level]
  refine h.ascend hp (Nat.zero_le _) (by omega) hon nofun ?_ nofun ?_
  · simp [s.num_zero]
  · simpa [s.num_zero] using hlt

/-- The first move: the path stands on the root only. -/
lemma Filled.traversal_first (h : Filled s top n ids) : Reached s top n ids 0
      (heapParalTraversalMap s (heapParalInitMapPath (ids (top + 1) 0) top) 0) := by
  have hnum : ∀ l, s.num 0 l = 0 := fun l => Nat.zero_div _
  have hclimb : ∀ l ≤ top, ∀ fuel, top - l + top < fuel → Reached s top n ids 0
      (traversalLoop s fuel l (heapParalInitMapPath (ids (top + 1) 0) top) fun _ => 0) := by
    intro l hl fuel hfuel
    induction fuel generalizing l with
    | zero => exact absurd hfuel (Nat.not_lt_zero _)
    | succ fuel ih =>
      rcases eq_or_lt_of_le hl with rfl | hlt
      · refine h.descend hl 0 (by omega) ⟨rfl, fun k h1 h2 => by omega⟩ ?_ ?_ ?_ ?_ ?_
        · simp [heapParalInitMapPath, hnum]
        · intro k hk
          simp [heapParalInitMapPath, hk]
        · simp [hnum]
        · simp [hnum]
        · simp [hnum]
      · have hnone : ((heapParalInitMapPath (ids (top + 1) 0) top).index l).slot = none := by
          simp [heapParalInitMapPath, hlt]
        rw [traversalLoop, if_neg (by exact not_lt.mpr hl), hnone]
        exact ih (l + 1) hlt (by omega)
  unfold heapParalTraversalMap
  rw [update_eq_self_iff.mpr rfl]
  exact hclimb 0 (Nat.zero_le _) _ (by simp only [heapParalInitMapPath]; omega)

end

/-! ## The ranges -/

/-- Ranges of page numbers that follow each other from page `a` on, the last one
open: its first page and, but for the last, its last page. -/
inductive Tiling (n : Nat) : Nat → List (Nat × Option Nat) → Prop
  | last {a} (ha : a < n) : Tiling n a [(a, none)]
  | cons {a b rest} (hab : a ≤ b) (hb : b < n) (hrest : Tiling n (b + 1) rest) :
      Tiling n a ((a, some b) :: rest)

def inRange (k : Nat) (r : Nat × Option Nat) : Bool := r.1 ≤ k && r.2.all (k ≤ ·)

variable {rs : List (Nat × Option Nat)}

lemma Tiling.notBefore {n a k} (h : Tiling n a rs) (hk : k < a) : rs.countP (inRange k) = 0 := by
  induction h with
  | last =>
    simp [inRange]
    omega
  | cons hab hb hrest ih =>
    rw [countP_cons, ih (by omega)]
    simp [inRange]
    omega

lemma Tiling.once {n a k} (h : Tiling n a rs) (hak : a ≤ k) : rs.countP (inRange k) = 1 := by
  induction h with
  | last => simp [inRange, hak]
  | @cons a b rest hab hb hrest ih =>
    rw [countP_cons]
    by_cases hkb : k ≤ b
    · rw [hrest.notBefore (by omega)]
      simp [inRange, hak, hkb]
    · rw [ih (by omega)]
      simp [inRange, hkb]

section
variable {s : Session P} {top n interval : Nat} {ids : Nat → Nat → P}

/-- Ranges of the loop: of the last one the right end may be known, and pages may
be left. -/
inductive Cut (n : Nat) : Nat → List (Nat × Option Nat) → Prop
  | done {a} : Cut n a []
  | last {a} (ha : a < n) : Cut n a [(a, none)]
  | cons {a b rest} (hab : a ≤ b) (hb : b < n) (hrest : Cut n (b + 1) rest) :
      Cut n a ((a, some b) :: rest)

def pageRange (ids : Nat → Nat → P) (r : Nat × Option Nat) : P × Option P :=
  (ids 0 r.1, r.2.map (ids 0))

/-- The ranges from worker `i` on, whose first page is `a`. The sum of a slot and
the interval can only be too large for a single worker, who starts at slot 0. -/
lemma Filled.rangeLoop (h : Filled s top n ids) {todo i a path}
    (hfirst : Reached s top n ids a (heapParalTraversalMap s path (if i = 0 then 0 else 1)))
    (hlt : 0 < todo → a % s.mapNodes + interval < 4294967296)
    (hnext : 1 < todo → interval + 65536 ≤ 4294967296) :
    ∃ rs, Cut n a rs ∧ rs.length ≤ todo ∧ (0 < todo → a < n → rs ≠ []) ∧
      rangeLoop s interval todo i path = some (rs.map (pageRange ids)) := by
  induction todo generalizing i a path with
  | zero => exact ⟨[], .done, le_refl _, fun h => absurd h (lt_irrefl 0), rfl⟩
  | succ todo ih =>
    rw [Heap.rangeLoop]
    generalize heapParalTraversalMap s path (if i = 0 then 0 else 1) = first at hfirst
    cases hfirst with
    | none => exact ⟨[], .done, Nat.zero_le _, fun _ ha => by omega, rfl⟩
    | @page path ha hon =>
      have hsecond := h.traversal ha hon (hlt (Nat.succ_pos _))
      simp only
      generalize heapParalTraversalMap s path interval = second at hsecond
      cases hsecond with
      | none => exact ⟨[(a, none)], .last ha, Nat.succ_le_succ (Nat.zero_le _), by simp, rfl⟩
      | @page path hb hon =>
        have hnodes := h.nodesLt
        have hmod := fun b => Nat.mod_lt b h.nodesPos
        have hstart : Reached s top n ids (a + interval + 1)
            (heapParalTraversalMap s path (if i + 1 = 0 then 0 else 1)) := by
          rw [if_neg (Nat.succ_ne_zero i)]
          exact h.traversal hb hon (by have := hmod (a + interval); omega)
        obtain ⟨rs, hcut, hlen, -, hrs⟩ := ih hstart
          (fun htodo => by have := hmod (a + interval + 1); have := hnext (by omega); omega)
          fun htodo => hnext (by omega)
        refine ⟨(a, some (a + interval)) :: rs, .cons (Nat.le_add_right ..) hb hcut,
          Nat.succ_le_succ hlen, by simp, ?_⟩
        simp only [hrs]
        rfl

lemma openLast_map (rs : List (Nat × Option Nat)) :
    openLast (rs.map (pageRange ids)) = (openLast rs).map (pageRange ids) := by
  fun_induction openLast rs with
  | case1 => rfl
  | case2 => rfl
  | case3 x y xs ih =>
    rw [map_cons, map_cons, openLast, ← map_cons, ih]
    rfl

lemma length_openLast (rs : List (Nat × Option Nat)) : (openLast rs).length = rs.length := by
  fun_induction openLast rs with
  | case1 => rfl
  | case2 => rfl
  | case3 x y xs ih => rw [length_cons, ih, ← length_cons]

lemma Cut.tiling {a} (h : Cut n a rs) (hne : rs ≠ []) : Tiling n a (openLast rs) := by
  induction h with
  | done => exact absurd rfl hne
  | last ha => exact .last ha
  | @cons a b rest hab hb hrest ih =>
    cases rest with
    | nil => exact .last (by omega)
    | cons y ys => exact .cons hab hb (ih (cons_ne_nil y ys))

end

/-- The ranges follow each other from the first page on and the last one is open,
so that every page is in exactly one range. -/
theorem heapGetParalRange_tiles (s : Session P) (top n pages workers : Nat) (ids : Nat → Nat → P)
    (h : Filled s top n ids) (hworkers : 0 < workers) (hpages : workers ≤ pages)
    (hsize : pages < 4294967296) :
    ∃ rs, heapGetParalRange s (ids (top + 1) 0) top pages workers =
        some (rs.map (pageRange ids)) ∧
      rs.length ≤ workers ∧ Tiling n 0 rs ∧ ∀ k < n, rs.countP (inRange k) = 1 := by
  have hpos : 0 < pages / workers := Nat.div_pos hpages hworkers
  have hle : pages / workers ≤ pages := Nat.div_le_self ..
  have hinterval : (pages / workers + 4294967295) % 4294967296 = pages / workers - 1 := by omega
  have hhalf : 1 < workers → pages / workers ≤ pages / 2 := fun hw =>
    Nat.div_le_div_left hw (by decide)
  obtain ⟨rs, hcut, hlen, hne, hrs⟩ : ∃ rs, Cut n 0 rs ∧ rs.length ≤ workers ∧
      (0 < workers → 0 < n → rs ≠ []) ∧ rangeLoop s (pages / workers - 1) workers 0
        (heapParalInitMapPath (ids (top + 1) 0) top) = some (rs.map (pageRange ids)) :=
    h.rangeLoop h.traversal_first (fun _ => by rw [Nat.zero_mod]; omega) fun hw => by
      have := hhalf hw
      omega
  have htiling := hcut.tiling (hne hworkers h.pagesPos)
  refine ⟨openLast rs, ?_, (length_openLast rs).trans_le hlen, htiling,
    fun k _ => htiling.once (Nat.zero_le k)⟩
  unfold heapGetParalRange
  simp only [hinterval, hrs, Option.map_some, openLast_map]

/-- Map pages with two nodes: the pages of level `l + 1` have the numbers from
`10 * (l + 1)` on. -/
def threePages : Session Nat where
  mapNodes := 2
  read id := ⟨true, min 2 (2 / 2 ^ (id / 10 - 1) + 1 - 2 * (id % 10)),
    fun c => 10 * (id / 10 - 1) + (2 * (id % 10) + c)⟩

theorem heapGetParalRange_threePages : ∃ rs, heapGetParalRange threePages 20 1 3 2 =
        some (rs.map (pageRange fun l j => 10 * l + j)) ∧
      rs.length ≤ 2 ∧ Tiling 3 0 rs ∧ ∀ k < 3, rs.countP (inRange k) = 1 :=
  heapGetParalRange_tiles threePages 1 3 3 2 (fun l j => 10 * l + j)
    ⟨by decide, by decide, by decide, by decide, by decide, by decide, by decide⟩
    (by decide) (by decide) (by decide)

end Cantian.Heap
