import Mathlib.Data.List.Perm.Subperm
import Cantian.Drc.ResMap

/-!
# Where the items of the directory are

Every item is free, in the map, or with a call that is working on it. This
is kept by each of the functions on the pool, the map and the lists, also in
the middle of a call, when an item is in the map and in no list or the other
way round.
-/

namespace Cantian.Drc

open Lib Function List Option Resource

inductive Place where
  | free
  | mapped
  /-- A call has the item. -/
  | held
deriving DecidableEq, Repr

open ResMap

section
variable {κ π : Type*} {s s' : ResMap κ π} {loc : Nat → Place} {listed : Nat → Bool}
  {i j q : Nat} {k : κ} {v : π}

lemma update_eq_mapped {c} (hi : loc i ≠ .mapped) (hc : c ≠ .mapped) (j : Nat) :
    update loc i c j = .mapped ↔ loc j = .mapped := by
  rcases eq_or_ne j i with rfl | hj
  · simp [hi, hc]
  · rw [update_of_ne hj]

lemma initRes_self (s : ResMap κ π) (i : Nat) (k : κ) (v : π) :
    (s.initRes i k v).res i = ⟨k, v, true, i, s.partOf k, { s.nodes i with idx := i }⟩ := by
  show (update s.pool.cell i _ i).val = _
  rw [update_self]

lemma initRes_of_ne (s : ResMap κ π) (k : κ) (v : π) (hj : j ≠ i) :
    (s.initRes i k v).res j = s.res j :=
  congrArg Cell.val (update_of_ne hj ..)

lemma mapAdd_res [DecidableEq κ] (s : ResMap κ π) (b i j : Nat) :
    (s.drcResMapAdd b i).res j = s.res j :=
  s.pool.setNext_val i _ j

/-- Every item is in one place: `loc` says where, and `listed` whether it is in
the list of its partition. -/
structure Placed (s : ResMap κ π) (loc : Nat → Place) (listed : Nat → Bool) : Prop where
  free : ∃ l, Linked s.pool s.pool.freeList l ∧ l.Nodup ∧ s.usedNum + l.length = s.itemNum ∧
    ∀ i, i ∈ l ↔ i < s.itemNum ∧ loc i = .free
  chain : ∀ b, ∃ l, Chained s.pool (s.bucket b) l ∧ l.Nodup ∧
    ∀ i, i ∈ l ↔ i < s.itemNum ∧ loc i = .mapped ∧ s.hash (s.res i).key = b
  list : ∀ q, ∃ l, DList.Holds s.nodes (s.part q) l ∧
    ∀ i, i ∈ l ↔ i < s.itemNum ∧ listed i = true ∧ (s.res i).partId = q
  live : ∀ k i, s.live k = some i ↔ i < s.itemNum ∧ loc i = .mapped ∧ (s.res i).key = k
  own : ∀ i, i < s.itemNum → loc i = .mapped →
    (s.res i).idx = i ∧ (s.res i).partId = s.partOf (s.res i).key

namespace Placed

lemma init [Inhabited κ] [Inhabited π] (n : Nat) (hn : 0 < n) (hash partOf : κ → Nat) :
    Placed (drcResMapInit n hash partOf : ResMap κ π) (fun _ => .free) (fun _ => false) := by
  have hchain : ∀ m i, m + i = n → Linked (drcResMapInit n hash partOf : ResMap κ π).pool
      (if i < n then some i else none) (range' i m) := by
    intro m
    induction m with
    | zero =>
      intro i hi
      exact if_neg (by omega)
    | succ m ih =>
      intro i hi
      rw [range'_succ]
      exact ⟨if_pos (by omega), ih (i + 1) (by omega)⟩
  refine ⟨⟨range' 0 n, ?_, nodup_range', ?_, ?_⟩, fun b => ?_, fun q => ?_, ?_, ?_⟩
  · have := hchain n 0 (by omega)
    rwa [if_pos hn] at this
  · simp [drcResMapInit]
  · intro i
    simp [drcResMapInit]
  · exact ⟨[], ⟨rfl, fun h => absurd rfl h⟩, nodup_nil, by simp⟩
  · exact ⟨[], DList.Holds.nil _, by simp⟩
  · intro k i
    simp [drcResMapInit]
  · intro i _ h
    cases h

lemma lookup_eq [DecidableEq κ] (hp : Placed s loc listed) (k : κ) :
    s.drcResMapLookup k = s.live k := by
  obtain ⟨l, hl, -, hmem⟩ := hp.chain (s.hash k)
  unfold drcResMapLookup
  rw [hl.find_eq]
  cases hlive : s.live k with
  | none =>
    rw [find?_eq_none]
    intro i hi
    obtain ⟨hlt, hloc, -⟩ := (hmem i).mp hi
    intro hkey
    have := (hp.live k i).mpr ⟨hlt, hloc, of_decide_eq_true hkey⟩
    cases hlive.symm.trans this
  | some i =>
    obtain ⟨hlt, hloc, hkey⟩ := (hp.live k i).mp hlive
    have hi : i ∈ l := (hmem i).mpr ⟨hlt, hloc, by rw [hkey]⟩
    cases hf : l.find? fun i => isSameRes k (s.pool.cell i).val with
    | none => exact absurd (decide_eq_true hkey) (find?_eq_none.mp hf i hi)
    | some j =>
      have hj := find?_some hf
      obtain ⟨hjlt, hjloc, -⟩ := (hmem j).mp (mem_of_find?_eq_some hf)
      have := (hp.live k j).mpr ⟨hjlt, hjloc, of_decide_eq_true hj⟩
      rw [← this, hlive]

/-- Items change their places and keep what is in them. -/
lemma relocate (hp : Placed s loc listed) {p bucket live used loc'}
    (hval : ∀ j, (p.cell j).val = s.res j)
    (hfree : ∃ l, Linked p p.freeList l ∧ l.Nodup ∧ used + l.length = s.itemNum ∧
      ∀ i, i ∈ l ↔ i < s.itemNum ∧ loc' i = .free)
    (hchain : ∀ b, ∃ l, Chained p (bucket b) l ∧ l.Nodup ∧
      ∀ i, i ∈ l ↔ i < s.itemNum ∧ loc' i = .mapped ∧ s.hash (s.res i).key = b)
    (hlive : ∀ k i, live k = some i ↔ i < s.itemNum ∧ loc' i = .mapped ∧ (s.res i).key = k)
    (hown : ∀ i, i < s.itemNum → loc' i = .mapped →
      (s.res i).idx = i ∧ (s.res i).partId = s.partOf (s.res i).key) :
    Placed { s with usedNum := used, pool := p, bucket := bucket, live := live } loc' listed := by
  have hres : { s with usedNum := used, pool := p, bucket := bucket, live := live }.res = s.res :=
    funext hval
  refine ⟨hfree, ?_, fun q => ?_, ?_, ?_⟩ <;> rw [hres]
  · exact hchain
  · obtain ⟨l, hl, hmem⟩ := hp.list q
    exact ⟨l, hl.congr fun j _ => congrArg node (hval j), hmem⟩
  · exact hlive
  · exact hown

/-- What a change of the items must leave alone. -/
lemma frame (hp : Placed s loc listed) (p : ItemPool (Resource κ π))
    (hfree : p.freeList = s.pool.freeList)
    (hnext : ∀ j, loc j ≠ .held → (p.cell j).next = (s.pool.cell j).next)
    (hres : ∀ j, loc j = .mapped → (p.cell j).val.key = (s.res j).key ∧
      (p.cell j).val.idx = (s.res j).idx ∧ (p.cell j).val.partId = (s.res j).partId)
    (hlist : ∀ j, listed j = true → (p.cell j).val.node = s.nodes j ∧
      (p.cell j).val.partId = (s.res j).partId) : Placed { s with pool := p } loc listed := by
  have hne : ∀ {j}, loc j = .free ∨ loc j = .mapped → loc j ≠ .held := by
    intro j hj
    rcases hj with hj | hj <;> rw [hj] <;> decide
  constructor
  · obtain ⟨l, hl, hnodup, hused, hmem⟩ := hp.free
    refine ⟨l, ?_, hnodup, hused, hmem⟩
    rw [hfree]
    exact hl.congr fun j hj => hnext j (hne (.inl ((hmem j).mp hj).2))
  · intro b
    obtain ⟨l, hl, hnodup, hmem⟩ := hp.chain b
    refine ⟨l, hl.congr fun j hj => hnext j (hne (.inr ((hmem j).mp hj).2.1)), hnodup, fun j => ?_⟩
    rw [hmem j]
    refine and_congr_right fun _ => and_congr_right fun hloc => ?_
    show _ ↔ s.hash (p.cell j).val.key = b
    rw [(hres j hloc).1]
  · intro q
    obtain ⟨l, hl, hmem⟩ := hp.list q
    refine ⟨l, hl.congr fun j hj => (hlist j ((hmem j).mp hj).2.1).1, fun j => ?_⟩
    rw [hmem j]
    refine and_congr_right fun _ => and_congr_right fun hj => ?_
    show _ ↔ (p.cell j).val.partId = q
    rw [(hlist j hj).2]
  · intro k j
    rw [hp.live k j]
    refine and_congr_right fun _ => and_congr_right fun hloc => ?_
    show _ ↔ (p.cell j).val.key = k
    rw [(hres j hloc).1]
  · intro j hj hloc
    show (p.cell j).val.idx = j ∧ (p.cell j).val.partId = s.partOf (p.cell j).val.key
    rw [(hres j hloc).1, (hres j hloc).2.1, (hres j hloc).2.2]
    exact hp.own j hj hloc

/-- A call writes to an item that it has. -/
lemma write (hp : Placed s loc listed) (hloc : loc i = .held) (hlist : listed i = false)
    (c : Cell (Resource κ π)) : Placed { s with pool := s.pool.setCell i c } loc listed := by
  have hother : ∀ j ≠ i, (s.pool.setCell i c).cell j = s.pool.cell j :=
    fun j hj => update_of_ne hj ..
  have hmapped : ∀ j, loc j ≠ .held → j ≠ i := by
    rintro j hj rfl
    exact hj hloc
  refine hp.frame _ rfl (fun j hj => ?_) (fun j hj => ?_) fun j hj => ?_
  · rw [hother j (hmapped j hj)]
  · rw [hother j (hmapped j (by rw [hj]; decide))]
    exact ⟨rfl, rfl, rfl⟩
  · rw [hother j (by rintro rfl; rw [hlist] at hj; cases hj)]
    exact ⟨rfl, rfl⟩

section
variable (hp : Placed s loc listed)
include hp

lemma setInfo (i : Nat) (v : π) : Placed (s.setInfo i v) loc listed := by
  have hcell : ∀ j, ((s.setInfo i v).pool.cell j).next = (s.pool.cell j).next ∧
      (((s.setInfo i v).pool.cell j).val =
        { s.res j with info := (((s.setInfo i v).pool.cell j).val).info }) := by
    intro j
    rcases eq_or_ne j i with rfl | hj
    · simp [ResMap.setInfo, ItemPool.setCell]
    · simp [ResMap.setInfo, ItemPool.setCell, hj, ResMap.res]
  refine hp.frame (s.setInfo i v).pool rfl (fun j _ => (hcell j).1) (fun j _ => ?_) fun j _ => ?_
  · rw [(hcell j).2]
    exact ⟨rfl, rfl, rfl⟩
  · rw [(hcell j).2]
    exact ⟨rfl, rfl⟩

lemma alloc (ha : s.drcResPoolAllocItem = some (i, s')) :
    i < s.itemNum ∧ loc i = .free ∧ Placed s' (update loc i .held) listed ∧
      s'.itemNum = s.itemNum ∧ s'.hash = s.hash ∧ s'.partOf = s.partOf ∧ s'.live = s.live ∧
      s'.res = s.res := by
  obtain ⟨l, hl, hnodup, hused, hmem⟩ := hp.free
  obtain ⟨⟨j, p⟩, hj, heq⟩ := map_eq_some_iff.mp ha
  obtain ⟨rfl, rfl⟩ := Prod.mk.inj heq
  obtain ⟨j', hfirst, heq'⟩ := map_eq_some_iff.mp hj
  obtain ⟨rfl, rfl⟩ := Prod.mk.inj heq'
  rw [hfirst] at hl
  cases l with
  | nil => cases hl
  | cons a l =>
    obtain ⟨ha, hl⟩ := hl
    cases ha
    obtain ⟨hlt, hloc⟩ := (hmem j').mp mem_cons_self
    obtain ⟨hnot, hnodup⟩ := nodup_cons.mp hnodup
    have hmap : ∀ i, update loc j' .held i = .mapped ↔ loc i = .mapped :=
      update_eq_mapped (by simp [hloc]) (by decide)
    refine ⟨hlt, hloc, hp.relocate (fun _ => rfl)
      ⟨l, hl.congr fun _ _ => rfl, hnodup, ?_, fun i => ?_⟩ (fun b => ?_)
      (fun k i => ?_) fun i hi hm => hp.own i hi ((hmap i).mp hm), rfl, rfl, rfl, rfl, rfl⟩
    · rw [length_cons] at hused
      omega
    · have := hmem i
      grind [update_apply]
    · obtain ⟨lb, hlb, hnb, hmb⟩ := hp.chain b
      refine ⟨lb, hlb.congr fun _ _ => rfl, hnb, fun i => ?_⟩
      rw [hmb i, hmap]
    · rw [hp.live k i, hmap]

lemma freeItem (hi : i < s.itemNum) (hloc : loc i = .held) :
    Placed (s.drcResPoolFreeItem i) (update loc i .free) listed := by
  obtain ⟨l, hl, hnodup, hused, hmem⟩ := hp.free
  have hnot : i ∉ l := by
    intro h
    have := ((hmem i).mp h).2
    cases hloc.symm.trans this
  have hown : (s.pool.free i).cell i = { s.pool.cell i with next := s.pool.freeList } :=
    update_self ..
  have hother : ∀ j ≠ i, (s.pool.free i).cell j = s.pool.cell j :=
    fun j hj => update_of_ne hj ..
  have hmap : ∀ j, update loc i .free j = .mapped ↔ loc j = .mapped :=
    update_eq_mapped (by simp [hloc]) (by decide)
  have hlen : l.length < s.itemNum := by
    have hsub : i :: l ⊆ range s.itemNum :=
      cons_subset.mpr ⟨mem_range.mpr hi, fun j hj => mem_range.mpr ((hmem j).mp hj).1⟩
    have := (nodup_cons.mpr ⟨hnot, hnodup⟩).subperm hsub |>.length_le
    simp only [length_cons, length_range] at this
    omega
  refine hp.relocate (s.pool.setNext_val i _)
    ⟨i :: l, ⟨rfl, ?_⟩, nodup_cons.mpr ⟨hnot, hnodup⟩, ?_, fun j => ?_⟩ (fun b => ?_)
    (fun k j => ?_) fun j hj hm => hp.own j hj ((hmap j).mp hm)
  · rw [hown]
    exact hl.congr fun j hj => by rw [hother j (fun h => hnot (h ▸ hj))]
  · rw [length_cons]
    omega
  · grind [update_apply]
  · obtain ⟨lb, hlb, hnb, hmb⟩ := hp.chain b
    refine ⟨lb, hlb.congr fun j hj => ?_, hnb, fun j => ?_⟩
    · rw [hother j]
      rintro rfl
      have := ((hmb j).mp hj).2.1
      cases hloc.symm.trans this
    · rw [hmb j, hmap]
  · rw [hp.live k j, hmap]

lemma mapAdd [DecidableEq κ] (hi : i < s.itemNum) (hloc : loc i = .held) (hkey : (s.res i).key = k)
    (hlive : s.live k = none) (hidx : (s.res i).idx = i) (hpart : (s.res i).partId = s.partOf k) :
    Placed (s.drcResMapAdd (s.hash k) i) (update loc i .mapped) listed := by
  have hother : ∀ j ≠ i, (s.pool.chainAdd (s.bucket (s.hash k)) i).1.cell j = s.pool.cell j :=
    fun j hj => update_of_ne hj ..
  have hnot : ∀ {b : Nat} {l : List Nat},
      (∀ j, j ∈ l ↔ j < s.itemNum ∧ loc j = .mapped ∧ s.hash (s.res j).key = b) → i ∉ l := by
    intro b l hmem h
    have := ((hmem i).mp h).2.1
    cases hloc.symm.trans this
  refine hp.relocate (mapAdd_res s _ i) ?_ (fun b => ?_) (fun k' j => ?_) fun j hj hmapped => ?_
  · obtain ⟨l, hl, hnodup, hused, hmem⟩ := hp.free
    refine ⟨l, hl.congr fun j hj => ?_, hnodup, hused, fun j => ?_⟩
    · rw [hother j]
      rintro rfl
      have := ((hmem j).mp hj).2
      cases hloc.symm.trans this
    · grind [update_apply]
  · obtain ⟨l, hl, hnodup, hmem⟩ := hp.chain b
    by_cases hb : b = s.hash k
    · subst hb
      refine ⟨i :: l, ?_, nodup_cons.mpr ⟨hnot hmem, hnodup⟩, fun j => ?_⟩
      · rw [update_self]
        exact hl.add (hnot hmem)
      · grind [update_apply]
    · refine ⟨l, ?_, hnodup, fun j => ?_⟩
      · rw [update_of_ne hb]
        exact hl.congr fun j hj => by rw [hother j (fun h => hnot hmem (h ▸ hj))]
      · grind [update_apply]
  · have := hp.live k' j
    grind [update_apply]
  · rcases eq_or_ne j i with rfl | hji
    · exact ⟨hidx, by rw [hpart, hkey]⟩
    · rw [update_of_ne hji] at hmapped
      exact hp.own j hj hmapped

lemma mapRemove [DecidableEq κ] (hlive : s.live k = some i) :
    Placed (s.drcResMapRemove k) (update loc i .held) listed ∧
      ∀ j, (s.drcResMapRemove k).res j = s.res j := by
  obtain ⟨hi, hloc, hkey⟩ := (hp.live k i).mp hlive
  obtain ⟨l, hl, hnodup, hmem⟩ := hp.chain (s.hash k)
  have hil : i ∈ l := (hmem i).mpr ⟨hi, hloc, by rw [hkey]⟩
  obtain ⟨as, bs, rfl⟩ := append_of_mem hil
  -- no other item of the chain has the key
  have hdiff : ∀ j ∈ as ++ i :: bs, j ≠ i → (s.res j).key ≠ k := by
    intro j hj hji hjk
    obtain ⟨hjlt, hjloc, -⟩ := (hmem j).mp hj
    have := (hp.live k j).mpr ⟨hjlt, hjloc, hjk⟩
    rw [hlive] at this
    exact hji (some.inj this).symm
  have hias : i ∉ as := fun h => (nodup_append.mp hnodup).2.2 i h i mem_cons_self rfl
  have has : ∀ a ∈ as, isSameRes k (s.pool.cell a).val = false := fun a ha =>
    decide_eq_false (hdiff a (mem_append_left _ ha) fun h => hias (h ▸ ha))
  obtain ⟨hl', hfree, hval, hcell⟩ := hl.remove hnodup (f := isSameRes k) (decide_eq_true hkey) has
  have hmapped : ∀ j ∉ as, ((s.drcResMapRemove k).pool.cell j).next = (s.pool.cell j).next :=
    fun j hj => congrArg Cell.next (hcell j hj)
  have hchange : ∀ j, update loc i .held j = .mapped ↔ j ≠ i ∧ loc j = .mapped := by
    intro j
    grind [update_apply]
  refine ⟨hp.relocate hval ?_ (fun b => ?_) (fun k' j => ?_)
    fun j hj hm => hp.own j hj ((hchange j).mp hm).2, hval⟩
  · obtain ⟨lf, hlf, hnf, huf, hmf⟩ := hp.free
    refine ⟨lf, ?_, hnf, huf, fun j => ?_⟩
    · rw [hfree]
      refine hlf.congr fun j hj => hmapped j fun hja => ?_
      have := ((hmem j).mp (mem_append_left _ hja)).2.1
      cases (((hmf j).mp hj).2).symm.trans this
    · grind [update_apply]
  · by_cases hb : b = s.hash k
    · subst hb
      refine ⟨as ++ bs, ?_, hnodup.sublist (by simp), fun j => ?_⟩
      · rw [update_self]
        exact hl'
      · rw [hchange]
        have hsplit := hmem j
        have hibs : i ∉ bs := (nodup_cons.mp (nodup_append.mp hnodup).2.1).1
        grind
    · obtain ⟨lb, hlb, hnb, hmb⟩ := hp.chain b
      refine ⟨lb, ?_, hnb, fun j => ?_⟩
      · rw [update_of_ne hb]
        refine hlb.congr fun j hj => hmapped j fun hja => hb ?_
        rw [← ((hmb j).mp hj).2.2]
        exact ((hmem j).mp (mem_append_left _ hja)).2.2
      · rw [hchange]
        grind
  · rw [hchange]
    have := hp.live k' j
    grind [update_apply]

/-- One list is replaced; the items of the others keep their links. -/
lemma relist {l nodes root b} (hpart : (s.res i).partId = q) (hl : DList.Holds nodes root l)
    (hmem : ∀ j, j ∈ l ↔ j < s.itemNum ∧ update listed i b j = true ∧ (s.res j).partId = q)
    (hother : ∀ j, listed j = true → (s.res j).partId ≠ q → nodes j = s.nodes j) :
    Placed { s.setNodes nodes with part := update s.part q root } loc (update listed i b) := by
  refine ⟨?_, ?_, fun q' => ?_, hp.live, hp.own⟩
  · obtain ⟨l, hl, hrest⟩ := hp.free
    exact ⟨l, hl.congr fun _ _ => rfl, hrest⟩
  · intro b
    obtain ⟨l, hl, hrest⟩ := hp.chain b
    exact ⟨l, hl.congr fun _ _ => rfl, hrest⟩
  · by_cases hq : q' = q
    · subst hq
      refine ⟨l, ?_, hmem⟩
      show DList.Holds _ (update s.part q' root q') l
      rwa [update_self]
    obtain ⟨l', hl', hmem'⟩ := hp.list q'
    refine ⟨l', ?_, fun j => ?_⟩
    · show DList.Holds _ (update s.part q root q') l'
      rw [update_of_ne hq]
      refine hl'.congr fun j hj => ?_
      obtain ⟨-, hlisted, hj⟩ := (hmem' j).mp hj
      exact hother j hlisted (hj ▸ hq)
    · show _ ↔ j < s.itemNum ∧ _ ∧ (s.res j).partId = q'
      grind [update_apply]

lemma listAdd (hi : i < s.itemNum) (hlist : listed i = false) (hpart : (s.res i).partId = q)
    (hidx : (s.nodes i).idx = i) : Placed (s.drcAddListNode q i) loc (update listed i true) := by
  obtain ⟨l, hl, hmem⟩ := hp.list q
  have hnot : i ∉ l := by
    intro h
    have := ((hmem i).mp h).2.1
    cases hlist.symm.trans this
  refine hp.relist hpart (hl.add hnot hidx) (fun j => ?_) fun j hj hjq => ?_
  · grind [update_apply]
  · refine hl.addNode_of_not_mem (fun h => hjq ((hmem j).mp h).2.2) ?_
    rintro rfl
    cases hlist.symm.trans hj

lemma listDelete (hi : i < s.itemNum) (hlist : listed i = true) (hpart : (s.res i).partId = q) :
    Placed (s.drcDeleteListNode q i) loc (update listed i false) := by
  obtain ⟨l, hl, hmem⟩ := hp.list q
  obtain ⟨as, bs, rfl⟩ := append_of_mem ((hmem i).mpr ⟨hi, hlist, hpart⟩)
  refine hp.relist hpart hl.delete (fun j => ?_) fun j _ hjq =>
    hl.deleteNode_of_not_mem fun h => hjq ((hmem j).mp h).2.2
  have hsplit := hmem j
  have hias : i ∉ as := fun h =>
    (nodup_append.mp hl.nodup).2.2 i h i mem_cons_self rfl
  have hibs : i ∉ bs := (nodup_cons.mp (nodup_append.mp hl.nodup).2.1).1
  grind [update_apply]

lemma view_eq [DecidableEq κ] (k : κ) : s.view k = (s.live k).map fun i => (s.res i).info := by
  unfold view
  rw [hp.lookup_eq]

lemma live_ne {k'} (hk : k' ≠ k) (hj : s.live k' = some j) (hi : s.live k = some i) : j ≠ i := by
  rintro rfl
  exact hk (((hp.live k' j).mp hj).2.2.symm.trans ((hp.live k j).mp hi).2.2)

lemma view_update [DecidableEq κ] {loc' listed' o} (hp' : Placed s' loc' listed')
    (hk : (s'.live k).map (fun i => (s'.res i).info) = o)
    (hlive : ∀ k', k' ≠ k → s'.live k' = s.live k')
    (hinfo : ∀ k' j, k' ≠ k → s.live k' = some j → (s'.res j).info = (s.res j).info) :
    s'.view = update s.view k o := by
  funext k'
  rw [hp'.view_eq]
  rcases eq_or_ne k' k with rfl | hkk
  · rw [hk, update_self]
  · rw [hlive k' hkk, update_of_ne hkk, hp.view_eq]
    exact map_congr fun j hj => hinfo k' j hkk hj

end

end Placed

end

end Cantian.Drc
