import Cantian.Drc.ResPlaced

/-!
# What the calls do with a resource

Between two calls every used item is a resource that is in the map and in the
list of its partition. Each thing that a call does with a resource as a
whole keeps this, up to the items that the call has, and changes the map
from keys to contents (`ResMap.view`) in the obvious way.
-/

namespace Cantian.Drc

open Lib ResMap Function List Option

section
variable {κ π : Type*} {s s' : ResMap κ π} {loc : Nat → Place} {listed : Nat → Bool}
  {i j q : Nat} {k : κ} {v : π}

/-- Every used item is in the map and in the list of its partition, except
those of `held`, which a call has. -/
def Whole (s : ResMap κ π) (held : List Nat) : Prop :=
  ∃ loc : Nat → Place, Placed s loc (fun i => decide (loc i = .mapped)) ∧
    (∀ i, i < s.itemNum → (s.res i).isUsed = true → loc i = .mapped) ∧
    held.Nodup ∧ ∀ i, i ∈ held ↔ i < s.itemNum ∧ loc i = .held

/-- A change of the directory that leaves its sizes alone. -/
structure Changes [DecidableEq κ] (s s' : ResMap κ π) (view : κ → Option π) : Prop where
  itemNum : s'.itemNum = s.itemNum
  partOf : s'.partOf = s.partOf
  view : s'.view = view

lemma Changes.trans [DecidableEq κ] {s'' f} (h : Changes s s' s.view) (h' : Changes s' s'' f) :
    Changes s s'' f :=
  ⟨h'.itemNum.trans h.itemNum, h'.partOf.trans h.partOf, h'.view⟩

namespace Whole

variable {held : List Nat}

lemma init [Inhabited κ] [Inhabited π] (n : Nat) (hn : 0 < n) (hash partOf : κ → Nat) :
    Whole (drcResMapInit n hash partOf : ResMap κ π) [] := by
  refine ⟨fun _ => .free, Placed.init n hn hash partOf, ?_, nodup_nil, by simp⟩
  intro i _ hused
  cases hused

lemma perm {held'} (hw : Whole s held) (hperm : held.Perm held') : Whole s held' := by
  obtain ⟨loc, hp, hflag, hnodup, hmem⟩ := hw
  exact ⟨loc, hp, hflag, hperm.nodup_iff.mp hnodup, fun i => by rw [← hperm.mem_iff, hmem i]⟩

lemma held_lt (hw : Whole s held) (hi : i ∈ held) : i < s.itemNum := by
  obtain ⟨loc, -, -, -, hmem⟩ := hw
  exact ((hmem i).mp hi).1

lemma usedNum_le (hw : Whole s held) : s.usedNum ≤ s.itemNum := by
  obtain ⟨loc, hp, -⟩ := hw
  obtain ⟨l, -, -, hused, -⟩ := hp.free
  omega

variable [DecidableEq κ]

section
variable (hw : Whole s held)
include hw

lemma lookup_eq (k : κ) : s.drcResMapLookup k = s.live k := by
  obtain ⟨loc, hp, -⟩ := hw
  exact hp.lookup_eq k

lemma lookup_key (hk : s.drcResMapLookup k = some i) :
    i < s.itemNum ∧ (s.res i).key = k ∧ (s.res i).idx = i ∧
     (s.res i).partId = s.partOf k := by
  obtain ⟨loc, hp, -⟩ := hw
  rw [hp.lookup_eq] at hk
  obtain ⟨hi, hloc, hkey⟩ := (hp.live k i).mp hk
  obtain ⟨hidx, hpart⟩ := hp.own i hi hloc
  exact ⟨hi, hkey, hidx, hkey ▸ hpart⟩

lemma lookup_of_isUsed (hi : i < s.itemNum) (hused : (s.res i).isUsed = true) :
    s.drcResMapLookup (s.res i).key = some i := by
  obtain ⟨loc, hp, hflag, -⟩ := hw
  rw [hp.lookup_eq]
  exact (hp.live _ i).mpr ⟨hi, hflag i hi hused, rfl⟩

lemma alloc (ha : s.drcResPoolAllocItem = some (i, s')) :
    Whole s' (i :: held) ∧ Changes s s' s.view ∧ s'.usedNum = s.usedNum + 1 := by
  obtain ⟨loc, hp, hflag, hnodup, hmem⟩ := hw
  obtain ⟨hi, hloc, hp', hnum, -, hpart, hlive, hres⟩ := hp.alloc ha
  have hmapped := update_eq_mapped (show loc i ≠ .mapped by simp [hloc])
   (show Place.held ≠ .mapped by decide)
  have hnot : i ∉ held := fun h => by cases hloc.symm.trans ((hmem i).mp h).2
  refine ⟨⟨update loc i .held, ?_, ?_, nodup_cons.mpr ⟨hnot, hnodup⟩, fun j => ?_⟩,
    ⟨hnum, hpart, ?_⟩, ?_⟩
  · simpa only [hmapped] using hp'
  · intro j hj hused
    rw [hmapped]
    rw [hres] at hused
    exact hflag j (hnum ▸ hj) hused
  · rw [hnum]
    grind [update_apply]
  · funext k
    rw [hp'.view_eq, hp.view_eq, hlive, hres]
  · obtain ⟨⟨j, p⟩, -, heq⟩ := map_eq_some_iff.mp ha
    obtain ⟨rfl, rfl⟩ := Prod.mk.inj heq
    rfl

omit [DecidableEq κ] in
lemma alloc_some (hroom : s.usedNum < s.itemNum) :
    ∃ i s', s.drcResPoolAllocItem = some (i, s') := by
  obtain ⟨loc, hp, -⟩ := hw
  obtain ⟨l, hl, -, hused, -⟩ := hp.free
  cases l with
  | nil =>
    rw [length_nil] at hused
    omega
  | cons i =>
    unfold drcResPoolAllocItem ItemPool.alloc
    rw [hl.1]
    exact ⟨i, _, rfl⟩

end

lemma freeItem (hw : Whole s (i :: held)) :
    Whole (s.drcResPoolFreeItem i) held ∧ Changes s (s.drcResPoolFreeItem i) s.view := by
  obtain ⟨loc, hp, hflag, hnodup, hmem⟩ := hw
  obtain ⟨hi, hloc⟩ := (hmem i).mp mem_cons_self
  obtain ⟨hnot, hnodup⟩ := nodup_cons.mp hnodup
  have hp' := hp.freeItem hi hloc
  have hmapped := update_eq_mapped (show loc i ≠ .mapped by simp [hloc])
    (show Place.free ≠ .mapped by decide)
  have hres : ∀ j, (s.drcResPoolFreeItem i).res j = s.res j := s.pool.setNext_val i _
  refine ⟨⟨update loc i .free, ?_, ?_, hnodup, fun j => ?_⟩, rfl, rfl, ?_⟩
  · simpa only [hmapped] using hp'
  · intro j hj hused
    rw [hmapped]
    rw [hres] at hused
    exact hflag j hj hused
  · show _ ↔ j < s.itemNum ∧ _
    grind [update_apply]
  · funext k
    rw [hp'.view_eq, hp.view_eq]
    show (s.live k).map _ = _
    simp only [hres]

omit [DecidableEq κ] in
lemma mapped_of_live (hp : Placed s loc listed) (hk : s.live k = some i) (hj : loc j = .held) :
    i ≠ j := by
  rintro rfl
  have := ((hp.live k i).mp hk).2.1
  cases hj.symm.trans this

lemma add (hw : Whole s (i :: held)) (hnew : s.view k = none) (v : π) :
    Whole (s.addRes i k v) held ∧
      Changes s (s.addRes i k v) (update s.view k (some v)) := by
  obtain ⟨loc, hp, hflag, hnodup, hmem⟩ := hw
  obtain ⟨hi, hloc⟩ := (hmem i).mp mem_cons_self
  obtain ⟨hnot, hnodup⟩ := nodup_cons.mp hnodup
  have hlive : s.live k = none := by
    rw [hp.view_eq] at hnew
    exact map_eq_none_iff.mp hnew
  have hlist : decide (loc i = .mapped) = false := by simp [hloc]
  have hinit : Placed (s.initRes i k v) loc _ := hp.write hloc hlist _
  have hown := initRes_self s i k v
  have hother : ∀ j ≠ i, (s.initRes i k v).res j = s.res j :=
    fun j hj => initRes_of_ne s k v hj
  have hval : ∀ j, ((s.initRes i k v).drcResMapAdd (s.hash k) i).res j = (s.initRes i k v).res j :=
    mapAdd_res _ _ i
  have hadd : Placed ((s.initRes i k v).drcResMapAdd (s.hash k) i) _ _ :=
    hinit.mapAdd hi hloc (by rw [hown]) hlive (by rw [hown]) (by rw [hown]; rfl)
  have hall := hadd.listAdd (q := s.partOf k) hi hlist (by rw [hval i, hown])
    (by rw [nodes, hval i, hown])
  have hlisted : update (fun j => decide (loc j = .mapped)) i true =
      fun j => decide (update loc i .mapped j = .mapped) := by
    funext j
    grind [update_apply]
  rw [hlisted] at hall
  have hsame : ∀ j, ((s.addRes i k v).res j).info = ((s.initRes i k v).res j).info ∧
      ((s.addRes i k v).res j).isUsed = ((s.initRes i k v).res j).isUsed := by
    intro j
    rw [← hval j]
    exact ⟨rfl, rfl⟩
  refine ⟨⟨_, hall, fun j hj hju => ?_, hnodup, fun j => ?_⟩, rfl, rfl, ?_⟩
  · rcases eq_or_ne j i with rfl | hji
    · exact update_self ..
    · rw [(hsame j).2, hother j hji] at hju
      rw [update_of_ne hji]
      exact hflag j hj hju
  · show _ ↔ j < s.itemNum ∧ _
    grind [update_apply]
  · have hlive' : (s.addRes i k v).live = update s.live k (some i) := by
      show update s.live ((s.initRes i k v).res i).key (some i) = _
      rw [hown]
    have hall : Placed (s.addRes i k v) _ _ := hall
    refine hp.view_update hall ?_ (fun k' hk => ?_) fun k' j _ hj => ?_
    · rw [hlive', update_self, map_some, (hsame i).1, hown]
    · rw [hlive', update_of_ne hk]
    · rw [(hsame j).1, hother j (mapped_of_live hp hj hloc)]

lemma setInfo (hw : Whole s held) (hk : s.drcResMapLookup k = some i) (v : π) :
    Whole (s.setInfo i v) held ∧
      Changes s (s.setInfo i v) (update s.view k (some v)) := by
  obtain ⟨loc, hp, hflag, hnodup, hmem⟩ := hw
  rw [hp.lookup_eq] at hk
  have hown : (s.setInfo i v).res i = { s.res i with info := v } := by
    show (update s.pool.cell i _ i).val = _
    rw [update_self]
  have hother : ∀ j ≠ i, (s.setInfo i v).res j = s.res j :=
    fun j hj => congrArg Cell.val (update_of_ne hj ..)
  have hp' := hp.setInfo i v
  refine ⟨⟨loc, hp', fun j hj hused => ?_, hnodup, hmem⟩, rfl, rfl, ?_⟩
  · refine hflag j hj ?_
    rcases eq_or_ne j i with rfl | hji
    · rwa [hown] at hused
    · rwa [hother j hji] at hused
  · refine hp.view_update hp' ?_ (fun _ _ => rfl) fun k' j hkk hj => ?_
    · show (s.live k).map _ = _
      rw [hk, map_some, hown]
    · rw [hother j (hp.live_ne hkk hj hk)]

section
variable [Inhabited κ] [Inhabited π]

omit [DecidableEq κ] in
lemma clearRes_of_ne (s : ResMap κ π) (hj : j ≠ i) : (s.clearRes i).res j = s.res j :=
  congrArg Cell.val (update_of_ne hj ..)

omit [DecidableEq κ] in
lemma clearRes_self (s : ResMap κ π) (i : Nat) : (s.clearRes i).res i = default := by
  show (update s.pool.cell i _ i).val = _
  rw [update_self]

section
variable (hw : Whole s held) (hk : s.drcResMapLookup k = some i)
include hw hk

lemma cleared (hp' : ∀ loc : Nat → Place, Placed s loc (fun j => decide (loc j = .mapped)) →
      Placed s' (update loc i .held)
       (update (fun j => decide (loc j = .mapped)) i false))
    (hres : ∀ j, (s'.res j).info = (s.res j).info ∧ (s'.res j).isUsed = (s.res j).isUsed)
    (hlive : s'.live = update s.live k none) (hnum : s'.itemNum = s.itemNum)
    (hpart : s'.partOf = s.partOf) : Whole (s'.clearRes i) (i :: held) ∧
      Changes s (s'.clearRes i) (update s.view k none) := by
  obtain ⟨loc, hp, hflag, hnodup, hmem⟩ := hw
  rw [hp.lookup_eq] at hk
  obtain ⟨hi, hloc, -⟩ := (hp.live k i).mp hk
  have hnot : i ∉ held := fun h => by cases hloc.symm.trans ((hmem i).mp h).2
  have hclear : Placed (s'.clearRes i) _ _ :=
   (hp' loc hp).write (update_self ..) (update_self ..) _
  have hlisted : update (fun j => decide (loc j = .mapped)) i false =
      fun j => decide (update loc i .held j = .mapped) := by
    funext j
    grind [update_apply]
  rw [hlisted] at hclear
  refine ⟨⟨_, hclear, fun j hj hused => ?_, nodup_cons.mpr ⟨hnot, hnodup⟩, fun j => ?_⟩,
    hnum, hpart, ?_⟩
  · rcases eq_or_ne j i with rfl | hji
    · rw [clearRes_self] at hused
      cases hused
    · rw [clearRes_of_ne s' hji, (hres j).2] at hused
      rw [update_of_ne hji]
      exact hflag j (hnum ▸ hj) hused
  · show _ ↔ j < s'.itemNum ∧ _
    rw [hnum]
    grind [update_apply]
  · have hlive' : (s'.clearRes i).live = update s.live k none := hlive
    refine hp.view_update hclear ?_ (fun k' hkk => ?_) fun k' j hkk hj => ?_
    · rw [hlive', update_self, map_none]
    · rw [hlive', update_of_ne hkk]
    · rw [clearRes_of_ne s' (hp.live_ne hkk hj hk), (hres j).1]

lemma unmap
 :
    Whole (((s.drcResMapRemove k).drcDeleteListNode (s.res i).partId i).clearRes i) (i :: held) ∧
      Changes s (((s.drcResMapRemove k).drcDeleteListNode (s.res i).partId i).clearRes i)
       (update s.view k none) := by
  have hlive := hk
  rw [hw.lookup_eq] at hlive
  refine hw.cleared hk (fun loc hp => ?_) (fun j => ?_) rfl rfl rfl
  · obtain ⟨hi, hloc, -⟩ := (hp.live k i).mp hlive
    obtain ⟨hp', hres⟩ := hp.mapRemove hlive
    exact hp'.listDelete hi (decide_eq_true hloc) (by rw [hres])
  · obtain ⟨loc, hp, -⟩ := hw
    obtain ⟨-, hres⟩ := hp.mapRemove hlive
    rw [← hres j]
    exact ⟨rfl, rfl⟩

lemma unlist
 :
    Whole (((s.drcDeleteListNode (s.res i).partId i).drcResMapRemove k).clearRes i) (i :: held) ∧
      Changes s (((s.drcDeleteListNode (s.res i).partId i).drcResMapRemove k).clearRes i)
       (update s.view k none) := by
  have hlive := hk
  rw [hw.lookup_eq] at hlive
  have hdelete : ∀ loc : Nat → Place, Placed s loc (fun j => decide (loc j = .mapped)) →
      Placed (s.drcDeleteListNode (s.res i).partId i) loc
       (update (fun j => decide (loc j = .mapped)) i false) := by
    intro loc hp
    obtain ⟨hi, hloc, -⟩ := (hp.live k i).mp hlive
    exact hp.listDelete hi (decide_eq_true hloc) rfl
  refine hw.cleared hk (fun loc hp => ((hdelete loc hp).mapRemove hlive).1) (fun j => ?_) rfl rfl
    rfl
  obtain ⟨loc, hp, -⟩ := hw
  have hres := ((hdelete loc hp).mapRemove hlive).2 j
  rw [hres]
  exact ⟨rfl, rfl⟩

lemma cleanInternal
 : Whole (s.drcCleanPageOwnerInternal i) (i :: held) ∧
      Changes s (s.drcCleanPageOwnerInternal i) (update s.view k none) := by
  obtain ⟨-, hkey, -⟩ := hw.lookup_key hk
  unfold drcCleanPageOwnerInternal
  simp only [hkey]
  exact hw.unmap hk

end

omit [Inhabited κ] [Inhabited π] in
lemma freed {f} (h : Whole s' (i :: held) ∧ Changes s s' f) :
    Whole (s'.drcResPoolFreeItem i) held ∧ Changes s (s'.drcResPoolFreeItem i) f := by
  obtain ⟨hw, hc⟩ := h
  obtain ⟨hw', hc'⟩ := hw.freeItem
  exact ⟨hw', hc'.itemNum.trans hc.itemNum, hc'.partOf.trans hc.partOf, hc'.view.trans hc.view⟩

lemma releaseLock (hw : Whole s held) (hk : s.drcResMapLookup k = some i) :
    Whole ((s.drcResMapRemove k).drcReleaseLockRes i) held ∧
      Changes s ((s.drcResMapRemove k).drcReleaseLockRes i) (update s.view k none) := by
  obtain ⟨-, -, hidx, -⟩ := hw.lookup_key hk
  have hlive := hk
  rw [hw.lookup_eq] at hlive
  have hres : (s.drcResMapRemove k).res i = s.res i := by
    obtain ⟨loc, hp, -⟩ := hw
    exact (hp.mapRemove hlive).2 i
  unfold drcReleaseLockRes
  simp only [hres, hidx]
  exact freed (hw.unmap hk)

lemma releasePage (hw : Whole s held) (hk : s.drcResMapLookup k = some i) :
    Whole (s.releasePageRes k i) held ∧
      Changes s (s.releasePageRes k i) (update s.view k none) := by
  obtain ⟨-, -, hidx, -⟩ := hw.lookup_key hk
  unfold releasePageRes
  simp only [hidx]
  exact freed (hw.unlist hk)

end

lemma usedNum_eq (hw : Whole s held) : s.usedNum = s.reachableNum + held.length := by
  obtain ⟨loc, hp, -, hnodup, hmem⟩ := hw
  obtain ⟨l, -, hl, hused, hfree⟩ := hp.free
  have hlookup : ∀ i ∈ range s.itemNum,
      decide (s.drcResMapLookup (s.res i).key = some i) = decide (loc i = .mapped) := by
    intro i hi
    rw [hp.lookup_eq]
    refine decide_eq_decide.mpr ?_
    rw [hp.live _ i]
    simp [mem_range.mp hi]
  have hcount : ∀ (c : Place) (ids : List Nat), ids.Nodup →
      (∀ i, i ∈ ids ↔ i < s.itemNum ∧ loc i = c) →
      ids.length = ((range s.itemNum).filter fun i => decide (loc i = c)).length := by
    intro c ids hids hmem
    refine List.Perm.length_eq ((perm_ext_iff_of_nodup hids (nodup_range.filter _)).mpr fun i => ?_)
    rw [hmem i, mem_filter, mem_range, decide_eq_true_iff]
  have hsplit : ∀ ids : List Nat, (ids.filter fun i => decide (loc i = .free)).length +
      (ids.filter fun i => decide (loc i = .mapped)).length +
      (ids.filter fun i => decide (loc i = .held)).length = ids.length := by
    intro ids
    induction ids with
    | nil => rfl
    | cons i => cases hi : loc i <;> simp [hi] <;> omega
  have hn := hsplit (range s.itemNum)
  rw [← hcount .free l hl hfree, ← hcount .held held hnodup hmem, length_range] at hn
  unfold reachableNum
  rw [filter_congr hlookup]
  omega

/-! ## Batches -/

lemma allocLoop (n : Nat) (hw : Whole s held) (hroom : s.usedNum + n ≤ s.itemNum) :
    (ResMap.allocLoop n s).1.length = n ∧ (ResMap.allocLoop n s).2.usedNum = s.usedNum + n ∧
      Whole (ResMap.allocLoop n s).2 ((ResMap.allocLoop n s).1 ++ held) ∧
      Changes s (ResMap.allocLoop n s).2 s.view := by
  induction n generalizing s held with
  | zero => exact ⟨rfl, rfl, hw, rfl, rfl, rfl⟩
  | succ n ih =>
    obtain ⟨i, s', ha⟩ := hw.alloc_some (by omega)
    obtain ⟨hw', hc, hused⟩ := hw.alloc ha
    obtain ⟨hlen, hused', hw'', hc'⟩ := ih hw' (by rw [hused, hc.itemNum]; omega)
    rw [allocLoop, ha]
    refine ⟨congrArg (· + 1) hlen, by show _ = _; rw [hused', hused]; omega, ?_, ?_⟩
    · exact hw''.perm perm_middle
    · exact hc.trans (hc.view ▸ hc')

lemma freeLoop {ids} (hw : Whole s (ids ++ held)) :
    Whole (ResMap.freeLoop ids s) held ∧ Changes s (ResMap.freeLoop ids s) s.view := by
  induction ids generalizing s with
  | nil => exact ⟨hw, rfl, rfl, rfl⟩
  | cons i ids ih =>
    have hi := hw.held_lt mem_cons_self
    obtain ⟨hw', hc⟩ := hw.freeItem
    obtain ⟨hw'', hc'⟩ := ih hw'
    rw [freeLoop, if_neg (by omega)]
    exact ⟨hw'', hc.trans (hc.view ▸ hc')⟩

/-- A batch is given as a whole or not at all. -/
lemma allocBatch (hw : Whole s held) (hsmall : s.itemNum < 2147483648) (num : Nat) :
    (s.drcResPoolAllocBatchItem num = (none, s) ∧
        (s.itemNum < s.usedNum + num ∨ s.usedNum = s.itemNum)) ∨
      ∃ s', s.drcResPoolAllocBatchItem num = (some (ResMap.allocLoop num s).1, s') ∧
        (ResMap.allocLoop num s).1.length = num ∧ s'.usedNum = s.usedNum + num ∧
        Whole s' ((ResMap.allocLoop num s).1 ++ held) ∧ Changes s s' s.view := by
  have hle := hw.usedNum_le
  unfold drcResPoolAllocBatchItem
  split
  · rename_i hcond
    refine .inl ⟨rfl, .inl ?_⟩
    omega
  rename_i hcond
  split_ifs with hnone
  · obtain ⟨loc, hp, -⟩ := hw
    obtain ⟨l, hl, -, hused, -⟩ := hp.free
    rw [hnone] at hl
    cases l with
    | nil => exact .inl ⟨rfl, .inr hused⟩
    | cons => cases hl.1
  · have hroom : s.usedNum + num ≤ s.itemNum := by omega
    obtain ⟨hlen, hused, hw', hc⟩ := hw.allocLoop num hroom
    exact .inr ⟨_, rfl, hlen, hused, hw', hc⟩

lemma freeBatch {ids} (hw : Whole s (ids ++ held)) :
    Whole (s.drcResPoolFreeBatchItem ids) held ∧
      Changes s (s.drcResPoolFreeBatchItem ids) s.view := by
  have hused := hw.usedNum_eq
  rw [length_append] at hused
  unfold drcResPoolFreeBatchItem
  rw [if_neg (by omega)]
  exact hw.freeLoop

/-! ## Whole partitions -/

/-- The list of a partition has the resources of its keys. -/
lemma list (hw : Whole s held) (q : Nat) : ∃ l, DList.Holds s.nodes (s.part q) l ∧
      ∀ i, i ∈ l ↔ i < s.itemNum ∧ s.drcResMapLookup (s.res i).key = some i ∧
        s.partOf (s.res i).key = q := by
  obtain ⟨loc, hp, -⟩ := hw
  obtain ⟨l, hl, hmem⟩ := hp.list q
  refine ⟨l, hl, fun i => ?_⟩
  rw [hmem i, hp.lookup_eq, hp.live _ i, decide_eq_true_iff]
  refine and_congr_right fun hi => ⟨fun h => ?_, fun h => ?_⟩
  · exact ⟨⟨hi, h.1, rfl⟩, (hp.own i hi h.1).2 ▸ h.2⟩
  · exact ⟨h.1.2.1, (hp.own i hi h.1.2.1).2.trans h.2⟩

omit [DecidableEq κ] in
lemma setInfo_nodes (s : ResMap κ π) (i : Nat) (v : π) : (s.setInfo i v).nodes = s.nodes := by
  funext j
  exact apply_update_eq (f := fun c : Cell (Resource κ π) => c.val.node) (by rfl) j

lemma cleanInternal_list [Inhabited κ] [Inhabited π] {as bs} (hw : Whole s held)
    (hk : s.drcResMapLookup k = some i)
    (hl : DList.Holds s.nodes (s.part (s.partOf k)) (as ++ i :: bs)) :
    DList.Holds (s.drcCleanPageOwnerInternal i).nodes
      ((s.drcCleanPageOwnerInternal i).part (s.partOf k)) (as ++ bs) := by
  obtain ⟨-, hkey, -, hpart⟩ := hw.lookup_key hk
  rw [hw.lookup_eq] at hk
  obtain ⟨loc, hp, -⟩ := hw
  have hnodes : (s.drcResMapRemove k).nodes = s.nodes := by
    funext j
    exact congrArg Resource.node ((hp.mapRemove hk).2 j)
  have hnot : i ∉ as ++ bs := by
    have hperm : (as ++ i :: bs).Perm (i :: (as ++ bs)) := perm_middle
    exact (nodup_cons.mp (hperm.nodup_iff.mp hl.nodup)).1
  unfold drcCleanPageOwnerInternal
  simp only [hkey, hpart]
  have hdel := hl.delete
  have hpart' : (((s.drcResMapRemove k).drcDeleteListNode (s.partOf k) i).clearRes i).part
      (s.partOf k) = (DList.deleteNode s.nodes (s.part (s.partOf k)) i).2 := by
    show update s.part (s.partOf k)
      (DList.deleteNode (s.drcResMapRemove k).nodes (s.part (s.partOf k)) i).2 (s.partOf k) = _
    rw [update_self, hnodes]
  rw [hpart']
  refine hdel.congr fun j hj => ?_
  have hji : j ≠ i := by
    rintro rfl
    exact hnot hj
  have hclear : (((s.drcResMapRemove k).drcDeleteListNode (s.partOf k) i).clearRes i).nodes j =
      ((s.drcResMapRemove k).drcDeleteListNode (s.partOf k) i).nodes j :=
    congrArg Resource.node (clearRes_of_ne _ hji)
  rw [hclear]
  show (DList.deleteNode (s.drcResMapRemove k).nodes (s.part (s.partOf k)) i).1 j = _
  rw [hnodes]

end Whole

end

end Cantian.Drc
