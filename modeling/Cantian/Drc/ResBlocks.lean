import Cantian.Drc.ResCalls

/-!
# Blocks of records and whole partitions

The loops of the calls: over the records that instances send when the pages
are collected again, over the records of a migrated block, and over the list
of a partition.
-/

namespace Cantian.Drc

open Lib Function List Option

section
variable {κ π ρ : Type*} [DecidableEq κ] {W : Wire κ π ρ} {s s' : ResMap κ π}
  {held ids : List Nat} {i q : Nat} {k : κ} {v : π}

open ResMap

lemma view_eq_none (hk : s.drcResMapLookup k = none) : s.view k = none := by
  unfold view
  rw [hk]
  rfl

lemma view_eq_some (hk : s.drcResMapLookup k = some i) : s.view k = some (s.res i).info := by
  unfold view
  rw [hk]
  rfl

lemma Whole.rcyLoop (hw : Whole s (ids ++ held)) (recs : List (κ × π × (π → π)))
    (hlen : recs.length ≤ ids.length) :
    Whole (ResMap.rcyLoop recs ids s).2 ((ResMap.rcyLoop recs ids s).1 ++ held) ∧
      (ResMap.rcyLoop recs ids s).2.itemNum = s.itemNum := by
  induction recs generalizing s ids with
  | nil => exact ⟨hw, rfl⟩
  | cons r recs ih =>
    obtain ⟨k, v, f⟩ := r
    rw [length_cons] at hlen
    unfold rcyLoop
    cases hk : s.drcResMapLookup k with
    | some j =>
      obtain ⟨hw', hc⟩ := hw.setInfo hk (f (s.res j).info)
      obtain ⟨hw'', hn⟩ := ih hw' (by omega)
      exact ⟨hw'', hn.trans hc.itemNum⟩
    | none =>
      cases ids with
      | nil =>
        rw [length_nil] at hlen
        omega
      | cons i ids =>
        have hi : Whole s (i :: (ids ++ held)) := hw
        obtain ⟨hw', hc⟩ := hi.add (view_eq_none hk) v
        obtain ⟨hw'', hn⟩ := ih hw' (by rw [length_cons] at hlen; omega)
        exact ⟨hw'', hn.trans hc.itemNum⟩

/-! ## Migrated records -/

variable {r : ρ} {recs : List ρ}

lemma Whole.migrateLocks (hw : Whole s (ids ++ held)) (hlen : ids.length = recs.length) :
    Whole (drcMigrateLockResL W recs ids s) held ∧
      (drcMigrateLockResL W recs ids s).itemNum = s.itemNum := by
  induction recs generalizing s ids with
  | nil =>
    obtain rfl : ids = [] := length_eq_zero_iff.mp hlen
    exact ⟨hw, rfl⟩
  | cons r recs ih =>
    cases ids with
    | nil => cases hlen
    | cons i ids =>
      have hi : Whole s (i :: (ids ++ held)) := hw
      have hlen' : ids.length = recs.length := Nat.succ.inj hlen
      unfold drcMigrateLockResL
      cases hk : s.drcResMapLookup (W.key r) with
      | some =>
        obtain ⟨hw', hc⟩ := hi.freeItem
        obtain ⟨hw'', hn⟩ := ih hw' hlen'
        exact ⟨hw'', hn.trans hc.itemNum⟩
      | none =>
        obtain ⟨hw', hc⟩ := hi.add (view_eq_none hk) (W.make (s.res i).info r)
        obtain ⟨hw'', hn⟩ := ih hw' hlen'
        exact ⟨hw'', hn.trans hc.itemNum⟩

omit [DecidableEq κ] in
lemma allocBatch_same (s : ResMap κ π) (n : Nat) : (s.drcResPoolAllocBatchItem n).2.res = s.res ∧
    (s.drcResPoolAllocBatchItem n).2.live = s.live := by
  have hloop : ∀ n (s : ResMap κ π), (allocLoop n s).2.res = s.res ∧
      (allocLoop n s).2.live = s.live := by
    intro n
    induction n with
    | zero => exact fun _ => ⟨rfl, rfl⟩
    | succ n ih =>
      intro s
      cases hfree : s.pool.freeList with
      | none => simp [allocLoop, drcResPoolAllocItem, ItemPool.alloc, hfree]
      | some i =>
        simp only [allocLoop, drcResPoolAllocItem, ItemPool.alloc, hfree, map_some]
        exact ih _
  unfold drcResPoolAllocBatchItem
  split_ifs
  · exact ⟨rfl, rfl⟩
  · exact ⟨rfl, rfl⟩
  · exact hloop n s

/-- A block that finds no items for its records leaves everything; otherwise
its records are processed with as many new items. -/
lemma Whole.processBlk (hw : Whole s held) (hsmall : s.itemNum < 2147483648) (W : Wire κ π ρ)
    (recs : List ρ) : (s.itemNum < s.usedNum + recs.length ∧
        drcProcessBufMasterBlk W true recs s = (false, s)) ∨
      ∃ ids t, drcProcessBufMasterBlk W true recs s = drcMigrateBufResL W recs ids t ∧
        ids.length = recs.length ∧ t.usedNum = s.usedNum + recs.length ∧
        (t.res = s.res ∧ t.live = s.live) ∧ Whole t (ids ++ held) ∧ Changes s t s.view := by
  unfold drcProcessBufMasterBlk
  simp only [Bool.not_true, Bool.false_eq_true, if_false]
  by_cases hzero : recs.length = 0
  · rw [if_pos hzero]
    obtain rfl := length_eq_zero_iff.mp hzero
    exact .inr ⟨[], s, rfl, rfl, rfl, ⟨rfl, rfl⟩, hw, rfl, rfl, rfl⟩
  · rw [if_neg hzero]
    rcases hw.allocBatch hsmall recs.length with ⟨hnone, hfull⟩ | ⟨t, hsome, hlen, hused, hw', hc⟩
    · rw [hnone]
      exact .inl ⟨by omega, rfl⟩
    · have hsame := allocBatch_same s recs.length
      rw [hsome] at hsame ⊢
      exact .inr ⟨_, t, rfl, hlen, hused, hsame, hw', hc⟩

/-- The comparison tells no difference between the two. -/
def Alike (W : Wire κ π ρ) (view view' : κ → Option π) : Prop :=
  ∀ k, (view k = none ∧ view' k = none) ∨
    ∃ v v', view k = some v ∧ view' k = some v' ∧ ∀ r, W.same v r = W.same v' r

omit [DecidableEq κ] in
lemma Alike.symm {view view'} (h : Alike W view view') : Alike W view' view := by
  intro k
  rcases h k with ⟨hnone, hnone'⟩ | ⟨v, w, hv, hw, hsame⟩
  · exact .inl ⟨hnone', hnone⟩
  · exact .inr ⟨w, v, hw, hv, fun r => (hsame r).symm⟩

variable [Inhabited π]

/-- What the directory or an earlier record of the block says about a key. -/
def stated (W : Wire κ π ρ) (view : κ → Option π) (as : List ρ) (k : κ) : Option π :=
  (view k).or ((as.find? fun r => decide (W.key r = k)).map (W.make default))

/-- No record disagrees with what was said about its key before. -/
def Agrees (W : Wire κ π ρ) (view : κ → Option π) (recs : List ρ) : Prop :=
  ∀ as r bs, recs = as ++ r :: bs → ∀ v, stated W view as (W.key r) = some v → W.same v r = true

/-- The contents that a record adds. -/
def learn (W : Wire κ π ρ) (view : κ → Option π) (r : ρ) : κ → Option π :=
  match view (W.key r) with
  | none => update view (W.key r) (some (W.make default r))
  | some _ => view

lemma Alike.agrees {view view'} (h : Alike W view view') (ha : Agrees W view recs) :
    Agrees W view' recs := by
  intro as r bs hrecs v' hv'
  have hr := ha as r bs hrecs
  unfold stated at hr hv'
  rcases h (W.key r) with ⟨hnone, hnone'⟩ | ⟨v, w, hv, hw, hsame⟩
  · rw [hnone] at hr
    rw [hnone'] at hv'
    exact hr v' hv'
  · rw [hw] at hv'
    obtain rfl : w = v' := some.inj hv'
    rw [← hsame r]
    rw [hv] at hr
    exact hr v rfl

/-- The record is put into the directory with the contents that the memory of
its item makes of it. -/
lemma Alike.learn {view} (hnew : view (W.key r) = none) (v : π) :
    Alike W (update view (W.key r) (some (W.make v r))) (Drc.learn W view r) := by
  intro k
  unfold Drc.learn
  rw [hnew]
  by_cases hk : k = W.key r
  · subst hk
    refine .inr ⟨W.make v r, W.make default r, update_self .., update_self ..,
      fun r' => W.same_make v default r r'⟩
  · have hother : ∀ w, update view (W.key r) w k = view k :=
      fun w => update_of_ne hk ..
    simp only [hother]
    cases hv : view k with
    | none => exact .inl ⟨rfl, rfl⟩
    | some w => exact .inr ⟨w, w, rfl, rfl, fun _ => rfl⟩

lemma stated_cons (W : Wire κ π ρ) (view : κ → Option π) (r : ρ) (as : List ρ) (k : κ) :
    stated W view (r :: as) k = stated W (learn W view r) as k := by
  unfold stated learn
  rw [find?_cons]
  by_cases hk : W.key r = k
  · subst hk
    rw [decide_eq_true rfl]
    cases hv : view (W.key r) with
    | none =>
      show _ = (update view (W.key r) _ (W.key r)).or _
      rw [update_self]
      rfl
    | some =>
      show _ = (view (W.key r)).or _
      rw [hv]
      rfl
  · rw [decide_eq_false hk]
    cases view (W.key r) with
    | none =>
      show _ = (update view (W.key r) _ k).or _
      rw [update_of_ne (Ne.symm hk)]
    | some => rfl

lemma agrees_cons {view} : Agrees W view (r :: recs) ↔
      (∀ v, view (W.key r) = some v → W.same v r = true) ∧ Agrees W (learn W view r) recs := by
  constructor
  · intro h
    refine ⟨fun v hv => h [] r recs rfl v ?_, fun as r' bs hrecs v hv => ?_⟩
    · unfold stated
      rw [hv]
      rfl
    · refine h (r :: as) r' bs (by rw [hrecs]; rfl) v ?_
      rw [stated_cons]
      exact hv
  · intro h as r' bs hrecs v hv
    obtain ⟨hfirst, hrest⟩ := h
    cases as with
    | nil =>
      obtain ⟨rfl, rfl⟩ := cons.inj hrecs
      refine hfirst v ?_
      unfold stated at hv
      simpa using hv
    | cons a as =>
      obtain ⟨rfl, hrecs'⟩ := cons.inj hrecs
      rw [stated_cons] at hv
      exact hrest as r' bs hrecs' v hv

/-- The records of a block are processed to the end, or up to the first one
that disagrees; then the call still has an item. -/
lemma Whole.migrate (hw : Whole s (ids ++ held)) (hlen : ids.length = recs.length) :
    (Agrees W s.view recs ∧ ∃ s', drcMigrateBufResL W recs ids s = (true, s') ∧
        Whole s' held ∧ s'.itemNum = s.itemNum) ∨
      (¬ Agrees W s.view recs ∧ ∃ s' i rest, drcMigrateBufResL W recs ids s = (false, s') ∧
        Whole s' (i :: rest ++ held) ∧ s'.itemNum = s.itemNum) := by
  induction recs generalizing s ids with
  | nil =>
    obtain rfl : ids = [] := length_eq_zero_iff.mp hlen
    refine .inl ⟨fun as r bs h => ?_, s, rfl, hw, rfl⟩
    simp at h
  | cons r recs ih =>
    cases ids with
    | nil => cases hlen
    | cons i ids =>
      have hi : Whole s (i :: (ids ++ held)) := hw
      have hlen' : ids.length = recs.length := Nat.succ.inj hlen
      unfold drcMigrateBufResL
      cases hk : s.drcResMapLookup (W.key r) with
      | some j =>
        have hv := view_eq_some hk
        have hlearn : learn W s.view r = s.view := by
          unfold learn
          rw [hv]
        dsimp only
        by_cases hsame : W.same (s.res j).info r = true
        · obtain ⟨hw', hc⟩ := hi.freeItem
          rw [if_pos hsame]
          rcases ih hw' hlen' with ⟨ha, s', heq, hw'', hn⟩ | ⟨ha, s', i', rest, heq, hw'', hn⟩
          · refine .inl ⟨agrees_cons.mpr ⟨fun v hv' => ?_, ?_⟩, s', heq, hw'', hn.trans hc.itemNum⟩
            · rw [hv] at hv'
              exact some.inj hv' ▸ hsame
            · rw [hlearn, ← hc.view]
              exact ha
          · refine .inr ⟨fun h => ha ?_, s', i', rest, heq, hw'', hn.trans hc.itemNum⟩
            rw [hc.view, ← hlearn]
            exact (agrees_cons.mp h).2
        · rw [if_neg hsame]
          refine .inr ⟨fun h => hsame ((agrees_cons.mp h).1 _ hv), s, i, ids, rfl, hw, rfl⟩
      | none =>
        have hnew := view_eq_none hk
        have halike := Alike.learn hnew (s.res i).info
        obtain ⟨hw', hc⟩ := hi.add hnew (W.make (s.res i).info r)
        rcases ih hw' hlen' with ⟨ha, s', heq, hw'', hn⟩ | ⟨ha, s', i', rest, heq, hw'', hn⟩
        · refine .inl ⟨agrees_cons.mpr ⟨fun v hv' => ?_, ?_⟩, s', heq, hw'', hn.trans hc.itemNum⟩
          · rw [hnew] at hv'
            cases hv'
          · rw [hc.view] at ha
            exact halike.agrees ha
        · refine .inr ⟨fun h => ha ?_, s', i', rest, heq, hw'', hn.trans hc.itemNum⟩
          rw [hc.view]
          exact halike.symm.agrees (agrees_cons.mp h).2

/-! ## Whole partitions -/

variable [Inhabited κ]

/-- The loop meets the resources of the partition one after the other, those
that it kept before and those that are left. -/
lemma Whole.cleanPartLoop (f : π → π) (busy : π → Bool) (n : Nat) {as bs} (hw : Whole s held)
    (hl : DList.Holds s.nodes (s.part q) (as ++ bs)) (hn : n ≤ bs.length) :
    Whole (ResMap.cleanPartLoop f busy n bs.head? s).2
        ((ResMap.cleanPartLoop f busy n bs.head? s).1 ++ held) ∧
      (ResMap.cleanPartLoop f busy n bs.head? s).2.itemNum = s.itemNum := by
  induction n generalizing s held as bs with
  | zero => exact ⟨hw, rfl⟩
  | succ n ih =>
    cases bs with
    | nil =>
      rw [length_nil] at hn
      omega
    | cons i bs =>
      have hkey : ∀ {t : ResMap κ π} {held' : List Nat}, Whole t held' →
          DList.Holds t.nodes (t.part q) (as ++ i :: bs) →
          t.drcResMapLookup (t.res i).key = some i ∧ t.partOf (t.res i).key = q := by
        intro t held' hwt hlt
        obtain ⟨l, hl', hmem⟩ := hwt.list q
        obtain rfl := hl'.unique hlt
        exact ((hmem i).mp (mem_append_right as mem_cons_self)).2
      have hnext : (s.nodes i).next = bs.head? := by rw [hl.link as i bs rfl]
      obtain ⟨hw', hc⟩ := hw.setInfo (hkey hw hl).1 (f (s.res i).info)
      have hl' : DList.Holds (s.setInfo i (f (s.res i).info)).nodes
          ((s.setInfo i (f (s.res i).info)).part q) (as ++ i :: bs) := by
        rw [Whole.setInfo_nodes]
        exact hl
      rw [head?_cons, cleanPartLoop, hnext]
      rw [length_cons] at hn
      generalize s.setInfo i (f (s.res i).info) = t at hw' hc hl'
      split
      · have happ : as ++ i :: bs = as ++ [i] ++ bs := by simp
        rw [happ] at hl'
        obtain ⟨hw'', hnum⟩ := ih hw' hl' (by omega)
        exact ⟨hw'', hnum.trans hc.itemNum⟩
      obtain ⟨hlook, hpart⟩ := hkey hw' hl'
      obtain ⟨-, -, hidx, -⟩ := hw'.lookup_key hlook
      obtain ⟨hwc, hcc⟩ := hw'.cleanInternal hlook
      have hlc := hw'.cleanInternal_list hlook (hpart.symm ▸ hl')
      rw [hpart] at hlc
      obtain ⟨hw'', hnum⟩ := ih hwc hlc (by omega)
      rw [hidx]
      exact ⟨hw''.perm perm_middle, hnum.trans (hcc.itemNum.trans hc.itemNum)⟩

/-- The list of a partition is given up before its resources `l` leave the
map. -/
def Detached (s : ResMap κ π) (l held : List Nat) : Prop :=
  ∃ loc : Nat → Place, Placed s loc (fun j => decide (loc j = .mapped ∧ j ∉ l)) ∧
    (∀ i, i < s.itemNum → (s.res i).isUsed = true → loc i = .mapped) ∧
    held.Nodup ∧ (∀ i, i ∈ held ↔ i < s.itemNum ∧ loc i = .held) ∧
    l.Nodup ∧ ∀ i ∈ l, i < s.itemNum ∧ loc i = .mapped

omit [DecidableEq κ] [Inhabited π] [Inhabited κ] in
lemma Whole.detach (hw : Whole s held) {l} (hl : DList.Holds s.nodes (s.part q) l) :
    Detached { s with part := update s.part q .empty } l held := by
  obtain ⟨loc, hp, hflag, hnodup, hmem⟩ := hw
  obtain ⟨lq, hlq, hmq⟩ := hp.list q
  obtain rfl := hlq.unique hl
  refine ⟨loc, { hp with list := fun q' => ?_ }, hflag, hnodup, hmem, hl.nodup, fun i hi => ?_⟩
  · obtain ⟨l', hl', hmem'⟩ := hp.list q'
    by_cases hq : q' = q
    · subst hq
      refine ⟨[], ?_, fun i => ?_⟩
      · show DList.Holds _ (update s.part q' .empty q') []
        rw [update_self]
        exact DList.Holds.nil _
      · have := hmq i
        simp only [decide_eq_true_iff] at this ⊢
        refine ⟨fun h => absurd h not_mem_nil, fun h => absurd (this.mpr ?_) h.2.1.2⟩
        exact ⟨h.1, h.2.1.1, h.2.2⟩
    · refine ⟨l', ?_, fun i => ?_⟩
      · show DList.Holds _ (update s.part q .empty q') l'
        rw [update_of_ne hq]
        exact hl'
      · rw [hmem' i, decide_eq_true_iff, decide_eq_true_iff]
        refine and_congr_right fun _ => ⟨fun h => ⟨⟨h.1, fun hil => hq ?_⟩, h.2⟩,
          fun h => ⟨h.1.1, h.2⟩⟩
        exact h.2.symm.trans ((hmq i).mp hil).2.2
  · have := (hmq i).mp hi
    exact ⟨this.1, of_decide_eq_true this.2.1⟩

omit [DecidableEq κ] [Inhabited π] [Inhabited κ] in
lemma Detached.whole (hd : Detached s [] held) : Whole s held := by
  obtain ⟨loc, hp, hflag, hnodup, hmem, -⟩ := hd
  refine ⟨loc, ?_, hflag, hnodup, hmem⟩
  simpa using hp

/-- The next resource leaves the map and is cleared. -/
lemma Detached.step {l} (hd : Detached s (i :: l) held) :
    Detached ((s.drcResMapRemove (s.res i).key).clearRes i) l (i :: held) ∧
      ∀ j ∈ l, ((s.drcResMapRemove (s.res i).key).clearRes i).nodes j = s.nodes j := by
  obtain ⟨loc, hp, hflag, hnodup, hmem, hl, hin⟩ := hd
  obtain ⟨hi, hloc⟩ := hin i mem_cons_self
  obtain ⟨hil, hl⟩ := nodup_cons.mp hl
  have hlive : s.live (s.res i).key = some i := (hp.live _ i).mpr ⟨hi, hloc, rfl⟩
  obtain ⟨hp', hres⟩ := hp.mapRemove hlive
  have hclear : Placed ((s.drcResMapRemove (s.res i).key).clearRes i) _ _ :=
    hp'.write (update_self ..) (by simp) _
  have hlisted : (fun j => decide (loc j = .mapped ∧ j ∉ i :: l)) =
      fun j => decide (update loc i .held j = .mapped ∧ j ∉ l) := by
    funext j
    rcases eq_or_ne j i with rfl | hj
    · simp
    · simp [hj]
  rw [hlisted] at hclear
  have hne : ∀ j ∈ l, j ≠ i := by
    rintro j hj rfl
    exact hil hj
  have hother : ∀ j ≠ i, ((s.drcResMapRemove (s.res i).key).clearRes i).res j = s.res j :=
    fun j hj => (Whole.clearRes_of_ne _ hj).trans (hres j)
  have hnot : i ∉ held := by
    intro h
    have := ((hmem i).mp h).2
    cases hloc.symm.trans this
  refine ⟨⟨_, hclear, fun j hj hused => ?_, nodup_cons.mpr ⟨hnot, hnodup⟩,
    fun j => ?_, hl, fun j hj => ?_⟩, fun j hj => congrArg Resource.node (hother j (hne j hj))⟩
  · rcases eq_or_ne j i with rfl | hji
    · rw [Whole.clearRes_self] at hused
      cases hused
    · rw [hother j hji] at hused
      rw [update_of_ne hji]
      exact hflag j hj hused
  · show _ ↔ j < s.itemNum ∧ _
    rcases eq_or_ne j i with rfl | hji
    · simp [hi]
    · rw [mem_cons, update_of_ne hji, hmem j]
      simp [hji]
  · rw [update_of_ne (hne j hj)]
    exact hin j (mem_cons_of_mem i hj)

/-- The loop over a partition, when the list has been given up. -/
lemma Detached.freePartLoop {l} (hd : Detached s l held)
    (hnext : ∀ as i bs, l = as ++ i :: bs → (s.nodes i).next = bs.head?) :
    (ResMap.freePartLoop l.length l.head? s).1 = l ∧
      Whole (ResMap.freePartLoop l.length l.head? s).2 (l ++ held) ∧
      (ResMap.freePartLoop l.length l.head? s).2.itemNum = s.itemNum := by
  induction l generalizing s held with
  | nil => exact ⟨rfl, hd.whole, rfl⟩
  | cons i l ih =>
    obtain ⟨hd', hnodes⟩ := hd.step
    have hnext' : ∀ as j bs, l = as ++ j :: bs →
        (((s.drcResMapRemove (s.res i).key).clearRes i).nodes j).next = bs.head? := by
      intro as j bs hl
      rw [hnodes j (hl ▸ mem_append_right as mem_cons_self)]
      exact hnext (i :: as) j bs (by rw [hl]; rfl)
    obtain ⟨hids, hw, hnum⟩ := ih hd' hnext'
    rw [length_cons, head?_cons, freePartLoop, hnext [] i l rfl]
    refine ⟨congrArg (i :: ·) hids, hw.perm ?_, hnum⟩
    exact perm_middle

lemma freePartLoop_part (n : Nat) (h : Option Nat) (s : ResMap κ π) (P : Nat → DList) :
    ResMap.freePartLoop n h { s with part := P } =
        ((ResMap.freePartLoop n h s).1, { (ResMap.freePartLoop n h s).2 with part := P }) ∧
      (ResMap.freePartLoop n h s).2.part = s.part := by
  induction n generalizing h s with
  | zero => exact ⟨rfl, rfl⟩
  | succ n ih =>
    cases h with
    | none => exact ⟨rfl, rfl⟩
    | some i =>
      obtain ⟨hloop, hpart⟩ := ih (s.nodes i).next ((s.drcResMapRemove (s.res i).key).clearRes i)
      refine ⟨?_, hpart⟩
      have hsucc : freePartLoop (n + 1) (some i) { s with part := P } =
          (fun r => (i :: r.1, r.2)) (freePartLoop n (s.nodes i).next
            { (s.drcResMapRemove (s.res i).key).clearRes i with part := P }) := rfl
      rw [hsucc, hloop]
      rfl

omit [DecidableEq κ] [Inhabited π] [Inhabited κ] in
lemma freeLoop_part (ids : List Nat) (s : ResMap κ π) (P : Nat → DList) :
    ResMap.freeLoop ids { s with part := P } = { ResMap.freeLoop ids s with part := P } ∧
      (ResMap.freeLoop ids s).part = s.part := by
  induction ids generalizing s with
  | nil => exact ⟨rfl, rfl⟩
  | cons i ids ih =>
    simp only [freeLoop]
    split
    · exact ⟨rfl, rfl⟩
    · exact ih (s.drcResPoolFreeItem i)

omit [DecidableEq κ] [Inhabited π] [Inhabited κ] in
lemma freeBatch_part (ids : List Nat) (s : ResMap κ π) (P : Nat → DList) :
    drcResPoolFreeBatchItem { s with part := P } ids =
        { s.drcResPoolFreeBatchItem ids with part := P } ∧
      (s.drcResPoolFreeBatchItem ids).part = s.part := by
  unfold drcResPoolFreeBatchItem
  split
  · exact ⟨rfl, rfl⟩
  · exact freeLoop_part ids s P

lemma Whole.freePart (hw : Whole s held) (q : Nat) :
    Whole (drcFreeResByPart q s) held ∧ (drcFreeResByPart q s).itemNum = s.itemNum := by
  unfold drcFreeResByPart
  split
  · exact ⟨hw, rfl⟩
  obtain ⟨l, hl, -⟩ := hw.list q
  obtain ⟨hids, hw', hnum⟩ := (hw.detach hl).freePartLoop fun as i bs h => by
    show (s.nodes i).next = _
    rw [hl.link as i bs h]
  rw [← hl.count, ← hl.first] at hids hw' hnum
  obtain ⟨hloop, hpart⟩ := freePartLoop_part (s.part q).count (s.part q).first s
    (update s.part q .empty)
  rw [hloop] at hids hw' hnum
  generalize freePartLoop (s.part q).count (s.part q).first s = r at hids hw' hnum hpart
  obtain ⟨hbatch, hsame⟩ := freeBatch_part r.1 r.2 (update s.part q .empty)
  dsimp only at hids hw'
  rw [← hids] at hw'
  obtain ⟨hw'', hc⟩ := hw'.freeBatch
  rw [hbatch] at hw'' hc
  dsimp only
  rw [hsame, hpart]
  exact ⟨hw'', hc.itemNum.trans hnum⟩

end

end Cantian.Drc
