import Mathlib.Tactic.Set
import Cantian.Archive.Catalogue

/-!
# The span of the archive catalogue

A catalogue is *spanned* when both bounds are slots of the ring and the
files recorded and not removed are exactly the entries of the span that
carry a record id. Recordings keep this. A cleaning keeps it as long as it
removes files from the front of the span: the start bound it saves after a
removal is the slot after the removed file, whatever was left behind and
whether or not that slot exists.
-/

namespace Cantian.Archive

open Lib List

/-- The bounds are slots, and the live files are the entries of the span that
carry a record id. -/
structure Spanned (c : Catalogue) : Prop where
  start_lt : c.archivedStart < ctMaxArchNum
  end_lt : c.archivedEnd < ctMaxArchNum
  live_lt : ∀ p ∈ c.live, p.1 < ctMaxArchNum
  live_recid : ∀ p ∈ c.live, p.2.recid ≠ 0
  live_slot : ∀ p ∈ c.live, c.archCtrl p.1 = p.2
  live_span : ∀ p ∈ c.live, offset ctMaxArchNum c.archivedStart p.1
    < offset ctMaxArchNum c.archivedStart c.archivedEnd
  span_live : ∀ i < offset ctMaxArchNum c.archivedStart c.archivedEnd,
    (c.archCtrl (locator c i)).recid ≠ 0 → (locator c i, c.archCtrl (locator c i)) ∈ c.live

lemma ctMaxArchNum_pos : 0 < ctMaxArchNum := by decide

variable {c : Catalogue}

/-- The unsigned subtraction of `arch_get_files_num` does not leave `uint32`. -/
lemma archGetFilesNum_eq (hs : c.archivedStart < ctMaxArchNum) (he : c.archivedEnd < ctMaxArchNum) :
    archGetFilesNum c = offset ctMaxArchNum c.archivedStart c.archivedEnd := by
  unfold archGetFilesNum offset uint32
  unfold ctMaxArchNum at hs he ⊢
  have hint : ((c.archivedEnd : Int) - c.archivedStart + (10240 : Nat)) % 4294967296
      = ((c.archivedEnd + 10240 - c.archivedStart : Nat) : Int) := by
    omega
  rw [hint]
  rfl

lemma Spanned.filesNum (h : Spanned c) :
    archGetFilesNum c = offset ctMaxArchNum c.archivedStart c.archivedEnd :=
  archGetFilesNum_eq h.start_lt h.end_lt

lemma Spanned.filesNum_lt (h : Spanned c) : archGetFilesNum c < ctMaxArchNum := by
  rw [h.filesNum]
  exact offset_lt ctMaxArchNum_pos

/-- A live file sits in the slot its offset leads to. -/
lemma Spanned.locator_offset (h : Spanned c) {p} (hp : p ∈ c.live) :
    locator c (offset ctMaxArchNum c.archivedStart p.1) = p.1 :=
  slotAt_offset h.start_lt (h.live_lt p hp)

lemma Fresh.spanned (h : c.Fresh) : Spanned c where
  start_lt := by rw [h.archivedStart]; exact ctMaxArchNum_pos
  end_lt := by rw [h.archivedEnd]; exact ctMaxArchNum_pos
  live_lt p hp := by rw [h.live] at hp; cases hp
  live_recid p hp := by rw [h.live] at hp; cases hp
  live_slot p hp := by rw [h.live] at hp; cases hp
  live_span p hp := by rw [h.live] at hp; cases hp
  span_live i hi := by
    rw [h.archivedStart, h.archivedEnd, offset_self ctMaxArchNum_pos] at hi
    omega

/-! ## The lookup -/

/-- In a spanned catalogue the lookup finds, for every live file, a live file with
its reset id and asn. -/
lemma Spanned.lookup (h : Spanned c) {p} (hp : p ∈ c.live) :
    ∃ q ∈ c.live, archGetArchivedLogInfo c p.2.rstId p.2.asn = some q.2 ∧
      q.2.rstId = p.2.rstId ∧ q.2.asn = p.2.asn := by
  have hspan := h.live_span p hp
  rw [← h.filesNum] at hspan
  have hmem : p.2 ∈ (range (archGetFilesNum c)).map fun i => c.archCtrl (locator c i) := by
    apply mem_map.mpr
    refine ⟨_, mem_range.mpr hspan, ?_⟩
    rw [h.locator_offset hp]
    exact h.live_slot p hp
  unfold archGetArchivedLogInfo
  cases hfind : find? (fun ctrl => ctrl.recid != 0 && (ctrl.asn == p.2.asn &&
      ctrl.rstId == p.2.rstId)) ((range (archGetFilesNum c)).map fun i =>
        c.archCtrl (locator c i)) with
  | none =>
    have hno := find?_eq_none.mp hfind p.2 hmem
    simp [h.live_recid p hp] at hno
  | some ctrl =>
    have hprop := find?_some hfind
    obtain ⟨i, hi, hctrl⟩ := mem_map.mp (mem_of_find?_eq_some hfind)
    simp only [Bool.and_eq_true, bne_iff_ne, ne_eq, beq_iff_eq] at hprop
    have hlt : i < offset ctMaxArchNum c.archivedStart c.archivedEnd := by
      rw [← h.filesNum]
      exact mem_range.mp hi
    refine ⟨(locator c i, ctrl), ?_, rfl, hprop.2.2, hprop.2.1⟩
    rw [← hctrl] at hprop ⊢
    exact h.span_live i hlt hprop.1

/-! ## Recording -/

lemma archNeedWaitClean_false (h : ¬archNeedWaitClean c = true) :
    (c.archivedEnd + 1) % ctMaxArchNum ≠ c.archivedStart := by
  intro he
  apply h
  unfold archNeedWaitClean
  simp [he]

/-- A recording puts the file into the slot at the end of the span, which no live
file uses, and moves the end on. -/
lemma Spanned.save {dbs f size} (h : Spanned c)
    (hne : (c.archivedEnd + 1) % ctMaxArchNum ≠ c.archivedStart) (hid : c.archivedRecid ≠ 0) :
    Spanned (archSaveArchinfo dbs c f size c.archivedStart c.archivedEnd
      ((c.archivedEnd + 1) % ctMaxArchNum)) := by
  have hsucc := offset_succ h.start_lt h.end_lt hne
  -- no live file is in the slot that gets overwritten
  have hfree : ∀ p ∈ c.live, p.1 ≠ c.archivedEnd := by
    intro p hp he
    have hlt := h.live_span p hp
    rw [he] at hlt
    omega
  have hkept : ∀ j ≠ c.archivedEnd, (archSaveArchinfo dbs c f size c.archivedStart c.archivedEnd
      ((c.archivedEnd + 1) % ctMaxArchNum)).archCtrl j = c.archCtrl j := fun _ hj => if_neg hj
  refine ⟨h.start_lt, Nat.mod_lt _ ctMaxArchNum_pos, forall_mem_cons.mpr ⟨h.end_lt, h.live_lt⟩,
    forall_mem_cons.mpr ⟨hid, h.live_recid⟩, forall_mem_cons.mpr ⟨if_pos rfl, fun p hp => ?_⟩, ?_,
    ?_⟩
  · exact (hkept _ (hfree p hp)).trans (h.live_slot p hp)
  · intro p hp
    refine lt_of_lt_of_eq ?_ hsucc.symm
    obtain rfl | hp := mem_cons.mp hp
    · exact Nat.lt_succ_self _
    · exact Nat.lt_succ_of_lt (h.live_span p hp)
  · intro i hi hrec
    have hi' : i < offset ctMaxArchNum c.archivedStart c.archivedEnd + 1 := hsucc ▸ hi
    by_cases hlast : locator c i = c.archivedEnd
    · exact mem_cons.mpr (.inl (Prod.ext hlast (if_pos hlast)))
    have hlt : i < offset ctMaxArchNum c.archivedStart c.archivedEnd := by
      apply Nat.lt_of_le_of_ne (by omega)
      intro he
      apply hlast
      rw [he]
      exact slotAt_offset h.start_lt h.end_lt
    have hold := h.span_live i hlt
    rw [← hkept _ hlast] at hold
    exact mem_cons_of_mem _ (hold hrec)

/-- Record ids have not run out: the next one is not `0` in `uint32`. -/
def recidLeft (c : Catalogue) : Bool := uint32 (c.archivedRecid + 1) != 0

lemma Spanned.record {dbs t f} (h : Spanned c) (hid : recidLeft c = true)
    (hstep : catStep dbs c (.record f) = some t) : Spanned t := by
  simp only [catStep, archRecordArchinfo] at hstep
  split at hstep
  · cases hstep
  rename_i hwait
  have hne := archNeedWaitClean_false hwait
  cases hsize : f.realSize with
  | none =>
    rw [hsize] at hstep
    cases hstep
    exact h
  | some =>
    rw [hsize] at hstep
    simp only [hne, if_false] at hstep
    split at hstep
    · cases hstep
      exact h
    · cases hstep
      have hnum : Spanned { c with archivedRecid := uint32 (c.archivedRecid + 1) } :=
        { h with }
      exact hnum.save hne (bne_iff_ne.mp hid)

/-! ## Cleaning -/

/-- Removing a file of the span and saving the slot after it as the start bound
keeps the catalogue spanned, if no live file is before it and the slot after
it exists. -/
lemma Spanned.removeFirst (h : Spanned c) {k}
    (hk : k < offset ctMaxArchNum c.archivedStart c.archivedEnd)
    (hfirst : ∀ p ∈ c.live, k ≤ offset ctMaxArchNum c.archivedStart p.1)
    (hlast : locator c k + 1 < ctMaxArchNum) :
    Spanned (dbSaveArchCtrl (removeFile c (locator c k)) (locator c k + 1) c.archivedEnd) := by
  have hnum : offset ctMaxArchNum c.archivedStart c.archivedEnd < ctMaxArchNum :=
    offset_lt ctMaxArchNum_pos
  set t := dbSaveArchCtrl (removeFile c (locator c k)) (locator c k + 1) c.archivedEnd
  have hbound : t.archivedStart = slotAt ctMaxArchNum c.archivedStart (k + 1) := by
    rw [← slotAt_slotAt]
    exact (Nat.mod_eq_of_lt hlast).symm
  have hlen : offset ctMaxArchNum t.archivedStart t.archivedEnd =
      offset ctMaxArchNum c.archivedStart c.archivedEnd - (k + 1) := by
    rw [hbound]
    exact offset_slotAt_left h.start_lt h.end_lt hk
  -- a live file other than the removed one is behind it
  have hbehind : ∀ p ∈ c.live, p ≠ (locator c k, c.archCtrl (locator c k)) →
      p.1 ≠ locator c k ∧ k + 1 ≤ offset ctMaxArchNum c.archivedStart p.1 := by
    intro p hp hne
    have hslot : p.1 ≠ locator c k := by
      intro he
      apply hne
      apply Prod.ext he
      rw [← he, h.live_slot p hp]
    refine ⟨hslot, Nat.lt_of_le_of_ne (hfirst p hp) ?_⟩
    intro he
    apply hslot
    rw [he, h.locator_offset hp]
  have hmem : ∀ {p}, p ∈ c.live.filter (fun p => p != (locator c k, c.archCtrl (locator c k))) →
      p ∈ c.live ∧ p.1 ≠ locator c k ∧ k + 1 ≤ offset ctMaxArchNum c.archivedStart p.1 := by
    intro p hp
    have hp' := mem_filter.mp hp
    exact ⟨hp'.1, hbehind p hp'.1 (bne_iff_ne.mp hp'.2)⟩
  refine ⟨hlast, h.end_lt, ?_, ?_, ?_, ?_, ?_⟩
  · intro p hp
    exact h.live_lt p (hmem hp).1
  · intro p hp
    exact h.live_recid p (hmem hp).1
  · intro p hp
    exact (if_neg (hmem hp).2.1).trans (h.live_slot p (hmem hp).1)
  · intro p hp
    have hspan := h.live_span p (hmem hp).1
    rw [hlen, hbound, offset_slotAt_left h.start_lt (h.live_lt p (hmem hp).1) (hmem hp).2.2]
    have := (hmem hp).2.2
    omega
  · intro i hi
    have hloc : locator t i = locator c (k + 1 + i) := by
      rw [locator, hbound, slotAt_slotAt]
      rfl
    have hne : locator c (k + 1 + i) ≠ locator c k := by
      intro he
      have := slotAt_inj h.start_lt (by omega) (by omega) he
      omega
    have hctrl : t.archCtrl (locator c (k + 1 + i)) = c.archCtrl (locator c (k + 1 + i)) :=
      if_neg hne
    rw [hloc, hctrl]
    intro hrec
    apply mem_filter.mpr
    refine ⟨h.span_live (k + 1 + i) (by omega) hrec, bne_iff_ne.mpr ?_⟩
    intro he
    exact hne (congrArg Prod.fst he)

end Cantian.Archive
