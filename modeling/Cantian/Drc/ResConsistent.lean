import Mathlib.Data.Finset.Card
import Cantian.Drc.ResBlocks

/-!
# The pool, the map and the lists stay consistent

In every run of the calls whose blocks of migrated pages do not disagree with
the directory, and whose recovered locks are not there already, the free
items, the chains of the buckets and the lists of the partitions share the
items of the pool as they should.
-/

namespace Cantian.Drc

open Lib ResMap Function List Finset

section
variable {κ π ρ : Type*} [DecidableEq κ] {s : ResMap κ π}

/-- The free items, the chains and the lists as the links make them, and what
they have to do with each other. -/
structure Consistent (s : ResMap κ π) (free : List Nat) (chain list : Nat → List Nat) : Prop where
  free_links : Linked s.pool s.pool.freeList free
  free_nodup : free.Nodup
  chain_links : ∀ b, Chained s.pool (s.bucket b) (chain b) ∧ (chain b).Nodup
  list_links : ∀ q, DList.Holds s.nodes (s.part q) (list q)
  used : s.usedNum = ((Finset.range s.itemNum).filter (· ∉ free)).card
  apart : ∀ i ∈ free, ∀ b, i ∉ chain b
  mapped : ∀ i, i < s.itemNum → i ∉ free → ∃! b, i ∈ chain b
  listed : ∀ i, i < s.itemNum → i ∉ free → ∃! q, i ∈ list q
  found : ∀ i, i < s.itemNum → i ∉ free → s.drcResMapLookup (s.res i).key = some i
  lookup : ∀ k, s.drcResMapLookup k = s.live k
  batch : ∀ num, s.drcResPoolAllocBatchItem num = (none, s) ∨
    ∃ ids s', s.drcResPoolAllocBatchItem num = (some ids, s') ∧
      ids.length = num ∧ ids.Nodup ∧ ∀ i ∈ ids, i ∈ free

/-- Every used item is found by its key. -/
lemma Consistent.usedNum_eq {free chain list} (hc : Consistent s free chain list) :
    s.usedNum = s.reachableNum := by
  have hiff : ∀ i ∈ List.range s.itemNum,
      decide (s.drcResMapLookup (s.res i).key = some i) = decide (i ∉ free) := by
    intro i hi
    refine decide_eq_decide.mpr ⟨fun hlook hfree => ?_, hc.found i (List.mem_range.mp hi)⟩
    have hchain := (hc.chain_links (s.hash (s.res i).key)).1
    unfold drcResMapLookup at hlook
    rw [hchain.find_eq] at hlook
    exact hc.apart i hfree _ (mem_of_find?_eq_some hlook)
  rw [hc.used]
  unfold reachableNum
  rw [filter_congr hiff]
  rfl

omit [DecidableEq κ] in
lemma allocLoop_fst (n : Nat) {l} (hl : Linked s.pool s.pool.freeList l) (hn : n ≤ l.length) :
    (allocLoop n s).1 = l.take n := by
  induction n generalizing s l with
  | zero => rfl
  | succ n ih =>
    cases l with
    | nil =>
      rw [length_nil] at hn
      omega
    | cons i =>
      obtain ⟨hfirst, hl⟩ := hl
      have halloc : s.drcResPoolAllocItem = some (i, { s with
          pool := { s.pool with freeList := (s.pool.cell i).next }
          usedNum := s.usedNum + 1 }) := by
        unfold drcResPoolAllocItem ItemPool.alloc
        rw [hfirst]
        rfl
      rw [allocLoop, halloc, take_succ_cons]
      refine congrArg (i :: ·) (ih ?_ (Nat.le_of_succ_le_succ hn))
      exact hl.congr fun _ _ => rfl

lemma Whole.consistent (hw : Whole s []) (hsmall : s.itemNum < 2147483648) :
    ∃ free chain list, Consistent s free chain list := by
  have hbatch := hw.allocBatch hsmall
  obtain ⟨loc, hp, hflag, -, hheld⟩ := hw
  obtain ⟨free, hfree, hnodup, hused, hmem⟩ := hp.free
  choose chain hchain hcnodup hcmem using hp.chain
  choose list hlist hlmem using hp.list
  have hmapped : ∀ i < s.itemNum, (i ∉ free ↔ loc i = .mapped) := by
    intro i hi
    rw [hmem i]
    have := hheld i
    cases hloc : loc i <;> simp_all
  refine ⟨free, chain, list, hfree, hnodup, fun b => ⟨hchain b, hcnodup b⟩, hlist, ?_, ?_, ?_, ?_,
    ?_, hp.lookup_eq, ?_⟩
  · have hsub : (Finset.range s.itemNum).filter (· ∈ free) = free.toFinset := by
      ext i
      simp only [Finset.mem_filter, Finset.mem_range, List.mem_toFinset]
      exact ⟨fun h => h.2, fun h => ⟨((hmem i).mp h).1, h⟩⟩
    have hcard := card_filter_add_card_filter_not (s := range s.itemNum) (· ∈ free)
    rw [hsub, toFinset_card_of_nodup hnodup, card_range] at hcard
    omega
  · intro i hi b hib
    have := ((hcmem b i).mp hib).2.1
    cases (((hmem i).mp hi).2).symm.trans this
  · intro i hi hnot
    have hloc := (hmapped i hi).mp hnot
    refine ⟨s.hash (s.res i).key, (hcmem _ i).mpr ⟨hi, hloc, rfl⟩, fun b hb => ?_⟩
    exact ((hcmem b i).mp hb).2.2.symm
  · intro i hi hnot
    have hloc := (hmapped i hi).mp hnot
    refine ⟨(s.res i).partId, (hlmem _ i).mpr ⟨hi, decide_eq_true hloc, rfl⟩, fun q hq => ?_⟩
    exact ((hlmem q i).mp hq).2.2.symm
  · intro i hi hnot
    rw [hp.lookup_eq]
    exact (hp.live _ i).mpr ⟨hi, (hmapped i hi).mp hnot, rfl⟩
  · intro num
    rcases hbatch num with ⟨hnone, -⟩ | ⟨s', hsome, hlen, hused', hw', hc⟩
    · exact .inl hnone
    · have hle := hw'.usedNum_le
      rw [hused', hc.itemNum] at hle
      have hids := allocLoop_fst num hfree (by omega)
      rw [hids] at hsome hlen
      refine .inr ⟨_, s', hsome, hlen, hnodup.sublist (take_sublist num free), fun i hi => ?_⟩
      exact mem_of_mem_take hi

end

/-! ## The calls -/

section
variable {κ π ρ : Type*} [DecidableEq κ] [Inhabited κ] [Inhabited π] {W : Wire κ π ρ}
  {s s' : ResMap κ π} {i : Nat} {k : κ} {v : π}

/-- The records of a block agree with the directory and with each other, and a
lock is recovered only when it is not there. -/
def ResCall.regular (W : Wire κ π ρ) (s : ResMap κ π) : ResCall κ π ρ → Prop
  | .recoverLock k _ => s.drcResMapLookup k = none
  | .migratePages accepted recs => accepted = true → Agrees W s.view recs
  | _ => True

omit [Inhabited κ] [Inhabited π] in
lemma Whole.create (hw : Whole s []) (hk : s.drcResMapLookup k = none)
    (ha : s.drcResPoolAllocItem = some (i, s')) (v : π) :
    Whole (s'.addRes i k v) [] ∧ (s'.addRes i k v).itemNum = s.itemNum := by
  obtain ⟨hw', hc, -⟩ := hw.alloc ha
  have hnew : s'.view k = none := by
    rw [hc.view]
    exact view_eq_none hk
  obtain ⟨hw'', hc'⟩ := hw'.add hnew v
  exact ⟨hw'', hc'.itemNum.trans hc.itemNum⟩

/-- The call takes the new page out of the map again. -/
lemma Whole.createStopped (hw : Whole s []) (hk : s.drcResMapLookup k = none)
    (ha : s.drcResPoolAllocItem = some (i, s')) (v : π) :
    Whole (((((s'.initRes i k v).drcResMapAdd (s'.hash k) i).drcResMapRemove k).clearRes
      i).drcResPoolFreeItem i) [] := by
  obtain ⟨hw', hc, -⟩ := hw.alloc ha
  have hlive : s'.live k = none := by
    have hview : s'.view k = none := by
      rw [hc.view]
      exact view_eq_none hk
    rw [← hw'.lookup_eq]
    exact Option.map_eq_none_iff.mp hview
  obtain ⟨loc, hp, hflag, hnodup, hmem⟩ := hw'
  obtain ⟨hi, hloc⟩ := (hmem i).mp mem_cons_self
  have hlist : decide (loc i = .mapped) = false := by
    rw [hloc]
    decide
  have hinit : Placed (s'.initRes i k v) loc _ := hp.write hloc hlist _
  have hown := initRes_self s' i k v
  have hadd : Placed ((s'.initRes i k v).drcResMapAdd (s'.hash k) i) _ _ :=
    hinit.mapAdd hi hloc (by rw [hown]) hlive (by rw [hown]) (by rw [hown]; rfl)
  have hfound : ((s'.initRes i k v).drcResMapAdd (s'.hash k) i).live k = some i := by
    show update s'.live ((s'.initRes i k v).res i).key (some i) k = _
    rw [hown, update_self]
  obtain ⟨hremove, hres⟩ := hadd.mapRemove hfound
  rw [update_idem] at hremove
  have hback : update loc i .held = loc := by
    rw [← hloc]
    exact update_eq_self i loc
  rw [hback] at hremove
  have hclear : Placed ((((s'.initRes i k v).drcResMapAdd (s'.hash k) i).drcResMapRemove k).clearRes
      i) loc _ := hremove.write hloc hlist _
  refine (Whole.freeItem ⟨loc, hclear, fun j hj hused => ?_, hnodup, hmem⟩).1
  rcases eq_or_ne j i with rfl | hji
  · rw [Whole.clearRes_self] at hused
    cases hused
  · rw [Whole.clearRes_of_ne _ hji, hres, mapAdd_res, initRes_of_ne s' k v hji] at hused
    exact hflag j hj hused

/-- What one call keeps. -/
lemma Whole.call (hw : Whole s []) (hsmall : s.itemNum < 2147483648) (c : ResCall κ π ρ)
    (hc : c.regular W s) : Whole (resCall W s c) [] ∧ (resCall W s c).itemNum = s.itemNum := by
  cases c <;> simp only [resCall]
  case lookup => exact ⟨hw, trivial⟩
  case update k f =>
    cases hk : s.drcResMapLookup k with
    | none => exact ⟨hw, rfl⟩
    | some i =>
      obtain ⟨hw', hch⟩ := hw.setInfo hk (f (s.res i).info)
      exact ⟨hw', hch.itemNum⟩
  case createLock k v =>
    cases hk : s.drcResMapLookup k with
    | some => exact ⟨hw, rfl⟩
    | none =>
      cases ha : s.drcResPoolAllocItem with
      | none => exact ⟨hw, rfl⟩
      | some => exact hw.create hk ha v
  case recoverLock k v =>
    cases ha : s.drcResPoolAllocItem with
    | none => exact ⟨hw, rfl⟩
    | some => exact hw.create hc ha v
  case releaseLock k f _ =>
    cases hk : s.drcResMapLookup k with
    | none => exact ⟨hw, rfl⟩
    | some i =>
      obtain ⟨hw', hch⟩ := hw.setInfo hk (f (s.res i).info)
      have hk' : (s.setInfo i (f (s.res i).info)).drcResMapLookup k = some i := by
        rw [hw'.lookup_eq]
        rw [hw.lookup_eq] at hk
        exact hk
      dsimp only
      split
      · exact ⟨hw', hch.itemNum⟩
      · obtain ⟨hw'', hch'⟩ := hw'.releaseLock hk'
        exact ⟨hw'', hch'.itemNum.trans hch.itemNum⟩
  case createPage k v victim =>
    cases hk : s.drcResMapLookup k with
    | some => exact ⟨hw, rfl⟩
    | none =>
      cases ha : s.drcResPoolAllocItem with
      | some => exact hw.create hk ha v
      | none =>
        cases victim with
        | none => exact ⟨hw, rfl⟩
        | some i =>
          dsimp only
          split
          · rename_i hcond
            have hlook := hw.lookup_of_isUsed hcond.1 hcond.2
            obtain ⟨hw', hch⟩ := hw.cleanInternal hlook
            obtain ⟨-, -, hidx, -⟩ := hw.lookup_key hlook
            have hnew : (s.drcCleanPageOwnerInternal i).view k = none := by
              rw [hch.view]
              by_cases hkk : k = (s.res i).key
              · rw [hkk, update_self]
              · rw [update_of_ne hkk]
                exact view_eq_none hk
            obtain ⟨hw'', hch'⟩ := hw'.add hnew v
            rw [hidx]
            exact ⟨hw'', hch'.itemNum.trans hch.itemNum⟩
          · exact ⟨hw, rfl⟩
  case createPageStopped k v =>
    cases hk : s.drcResMapLookup k with
    | some => exact ⟨hw, rfl⟩
    | none =>
      cases ha : s.drcResPoolAllocItem with
      | none => exact ⟨hw, rfl⟩
      | some =>
        obtain ⟨-, hch, -⟩ := hw.alloc ha
        exact ⟨hw.createStopped hk ha v, hch.itemNum⟩
  case releasePage k _ =>
    cases hk : s.drcResMapLookup k with
    | none => exact ⟨hw, rfl⟩
    | some =>
      dsimp only
      split
      · exact ⟨hw, rfl⟩
      · obtain ⟨hw', hch⟩ := hw.releasePage hk
        exact ⟨hw', hch.itemNum⟩
  case recyclePage k _ =>
    cases hk : s.drcResMapLookup k with
    | none => exact ⟨hw, rfl⟩
    | some =>
      dsimp only
      split
      · exact ⟨hw, rfl⟩
      · obtain ⟨-, -, hidx, -⟩ := hw.lookup_key hk
        obtain ⟨hw', hch⟩ := freed (hw.cleanInternal hk)
        rw [hidx]
        exact ⟨hw', hch.itemNum⟩
  case recycleItem i busy =>
    split
    · rename_i hcond
      have hlook := hw.lookup_of_isUsed hcond.1 hcond.2.1
      obtain ⟨-, -, hidx, -⟩ := hw.lookup_key hlook
      obtain ⟨hw', hch⟩ := freed (hw.cleanInternal hlook)
      rw [hidx]
      exact ⟨hw', hch.itemNum⟩
    · exact ⟨hw, rfl⟩
  case rebuildPages recs =>
    simp only [drcRcyPageInfoL]
    rcases hw.allocBatch hsmall recs.length with ⟨hnone, -⟩ | ⟨s', hsome, hlen, -, hw', hch⟩
    · rw [hnone]
      exact ⟨hw, rfl⟩
    rw [hsome]
    obtain ⟨hw'', hnum⟩ := hw'.rcyLoop recs hlen.ge
    dsimp only
    split
    · obtain ⟨hwf, hcf⟩ := hw''.freeBatch
      exact ⟨hwf, hcf.itemNum.trans (hnum.trans hch.itemNum)⟩
    · rename_i hzero
      rw [length_eq_zero_iff.mp (not_not.mp hzero)] at hw''
      exact ⟨hw'', hnum.trans hch.itemNum⟩
  case migratePages accepted recs =>
    cases accepted with
    | false => exact ⟨hw, rfl⟩
    | true =>
      rcases hw.processBlk hsmall W recs with ⟨-, heq⟩ | ⟨ids, s', heq, hlen, -, -, hw', hch⟩
      · rw [heq]
        exact ⟨hw, rfl⟩
      · rw [heq]
        rcases hw'.migrate hlen with ⟨-, t, heq, hwt, hnum⟩ | ⟨hnot, -⟩
        · rw [heq]
          exact ⟨hwt, hnum.trans hch.itemNum⟩
        · refine absurd ?_ hnot
          rw [hch.view]
          exact hc rfl
  case migrateLocks accepted recs =>
    simp only [drcProcessLockMasterBlk]
    split
    · exact ⟨hw, rfl⟩
    · rcases hw.allocBatch hsmall recs.length with ⟨hnone, -⟩ | ⟨s', hsome, hlen, -, hw', hch⟩
      · rw [hnone]
        exact ⟨hw, rfl⟩
      · rw [hsome]
        obtain ⟨hwt, hnum⟩ := hw'.migrateLocks (W := W) hlen
        exact ⟨hwt, hnum.trans hch.itemNum⟩
  case freePart q => exact hw.freePart q
  case cleanPart q f busy limit =>
    simp only [drcCleanPageOwnerByPart]
    obtain ⟨l, hl, -⟩ := hw.list q
    have hn : min limit (s.part q).count ≤ l.length := by
      rw [hl.count]
      exact min_le_right _ _
    obtain ⟨hw', hnum⟩ := hw.cleanPartLoop f busy (min limit (s.part q).count)
      (show DList.Holds s.nodes (s.part q) ([] ++ l) from hl) hn
    rw [← hl.first] at hw' hnum
    obtain ⟨hw'', hch⟩ := hw'.freeBatch
    exact ⟨hw'', hch.itemNum.trans hnum⟩

/-- After every run whose blocks agree with the directory and whose recovered
locks are new, the pool, the map and the lists are consistent. -/
theorem res_map_consistent (W : Wire κ π ρ) (n : Nat) (hn : 0 < n) (hsmall : n < 2147483648)
    (hash partOf : κ → Nat) (hs : ReachableBy (resStep W) (fun s => s = drcResMapInit n hash partOf)
      (fun s c => c.regular W s) s) : ∃ free chain list, Consistent s free chain list := by
  have hinv : Whole s [] ∧ s.itemNum = n := by
    refine hs.invariant (P := fun s => Whole s [] ∧ s.itemNum = n) ?_ ?_
    · rintro t rfl
      exact ⟨Whole.init n hn hash partOf, rfl⟩
    · intro t c u hreg ht hstep
      obtain ⟨hw, hnum⟩ := ht
      cases hstep
      obtain ⟨hw', hnum'⟩ := hw.call (hnum ▸ hsmall) c hreg
      exact ⟨hw', hnum'.trans hnum⟩
  exact hinv.1.consistent (hinv.2 ▸ hsmall)

end

/-! ## Runs on a small directory -/

/-- Records of a number and its contents. -/
def pairWire : Wire Nat Nat (Nat × Nat) where
  key r := r.1
  make _ r := r.2
  same v r := v == r.2
  same_make _ _ _ _ := rfl

/-- A pool of four items, with one bucket and one partition. -/
def smallMap : ResMap Nat Nat := drcResMapInit 4 (fun _ => 0) (fun _ => 0)

/-- The page 5 is there when a block brings it again, with a new page 7. -/
theorem res_map_consistent_four :
    ∃ (s : ResMap Nat Nat) (free : List Nat) (chain list : Nat → List Nat),
      Consistent s free chain list ∧ s.usedNum = 2 ∧ s.view 5 = some 50 ∧ s.view 7 = some 70 := by
  let created := resCall pairWire smallMap (.createPage 5 50 none)
  have hcreated : ReachableBy (resStep pairWire) (fun s => s = smallMap)
      (fun s c => c.regular pairWire s) created :=
    .step (a := .createPage 5 50 none) (.init rfl) trivial rfl
  have hagrees : Agrees pairWire created.view [(5, 50), (7, 70)] := by
    refine agrees_cons.mpr ⟨fun v hv => ?_, agrees_cons.mpr ⟨fun v hv => ?_, fun as r bs h => ?_⟩⟩
    · cases hv
      rfl
    · have hnone : learn pairWire created.view (5, 50) 7 = none := by decide +kernel
      have hsome : learn pairWire created.view (5, 50) 7 = some v := hv
      cases hnone.symm.trans hsome
    · simp at h
  have hmigrated : ReachableBy (resStep pairWire) (fun s => s = smallMap)
      (fun s c => c.regular pairWire s)
      (resCall pairWire created (.migratePages true [(5, 50), (7, 70)])) :=
    .step (a := .migratePages true [(5, 50), (7, 70)]) hcreated (fun _ => hagrees) rfl
  obtain ⟨free, chain, list, hc⟩ := res_map_consistent pairWire 4 (by decide) (by decide)
    (fun _ => 0) (fun _ => 0) hmigrated
  exact ⟨_, free, chain, list, hc, by decide +kernel, by decide +kernel, by decide +kernel⟩

/-- A block that disagrees with the page 5 leaves an item that is used and in no
bucket; a lock that is recovered twice is found after it was removed. -/
theorem res_map_apart : (∃ s, Reachable (resStep pairWire) (fun s => s = smallMap) s ∧
      s.usedNum = 3 ∧ s.reachableNum = 2 ∧ ∀ free chain list, ¬ Consistent s free chain list) ∧
    ∃ s, Reachable (resStep pairWire) (fun s => s = smallMap) s ∧
      s.drcResMapLookup 5 = some 0 ∧ s.live 5 = none ∧
      ∀ free chain list, ¬ Consistent s free chain list := by
  constructor
  · obtain ⟨s, hrun, hs⟩ := exists_of_run_map (resStep pairWire) smallMap
      [.createPage 5 50 none, .migratePages true [(7, 70), (5, 51)]]
      (fun s => (s.usedNum, s.reachableNum)) (3, 2) (by decide +kernel)
    obtain ⟨hused, hreach⟩ := Prod.mk.inj hs
    refine ⟨s, .of_run _ (.init rfl) hrun, hused, hreach, fun free chain list hc => ?_⟩
    have := hc.usedNum_eq
    omega
  · obtain ⟨s, hrun, hs⟩ := exists_of_run_map (resStep pairWire) smallMap
      [.createLock 5 50, .recoverLock 5 60, .releaseLock 5 id fun _ => false]
      (fun s => (s.drcResMapLookup 5, s.live 5)) (some 0, none) (by decide +kernel)
    obtain ⟨hlook, hlive⟩ := Prod.mk.inj hs
    refine ⟨s, .of_run _ (.init rfl) hrun, hlook, hlive, fun free chain list hc => ?_⟩
    have := hc.lookup 5
    rw [hlook, hlive] at this
    cases this

end Cantian.Drc
