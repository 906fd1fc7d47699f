import Mathlib.Data.Finset.Max
import Cantian.Drc.PageRes

/-!
# Rebuilding the directory entry of a page

After an instance died, the others report the pages in their buffers to the
new masters, and `drc_rcy_page_info` makes the entry of a page from the
reports, one after the other. `Rebuilt` says what the entry holds in terms
of the reports alone; it is kept by every further report, and it fixes the
entry. So the order in which the reports arrive does not matter.
-/

namespace Cantian.Drc

open Lib Dcs List

/-- `page_info_t` of the page, with the instance that reports it. -/
structure PageInfo where
  instId : InstId
  lockMode : LockMode
  isEdp : Bool
  lsn : Nat
deriving DecidableEq, Repr

/-- The first part of `drc_update_page_info`. -/
def recordEdp (e : BufRes) (r : PageInfo) : BufRes :=
  if r.isEdp then
    let e :=
      if e.latestEdpLsn < r.lsn then { e with latestEdp := some r.instId, latestEdpLsn := r.lsn }
      else e
    { e with edpMap := insert r.instId e.edpMap }
  else e

/-- The second part of `drc_update_page_info`, in a release build. -/
def recordLockMode (e : BufRes) (r : PageInfo) : BufRes :=
  match r.lockMode with
  | .null => e
  | .share => { e with mode := .share, readonlyCopies := insert r.instId e.readonlyCopies }
  | .exclusive =>
    let e := { e with mode := .exclusive }
    if e.claimedOwner ≠ none then e else { e with claimedOwner := some r.instId }

def drcUpdatePageInfo (e : BufRes) (r : PageInfo) : BufRes :=
  recordLockMode (recordEdp e r) r

/-- The entry that the first report of a page makes. -/
def rcyBufRes (r : PageInfo) : BufRes where
  claimedOwner := if r.lockMode = .exclusive then some r.instId else none
  mode := r.lockMode
  readonlyCopies := if r.lockMode = .share then {r.instId} else ∅
  edpMap := if r.isEdp then {r.instId} else ∅
  latestEdp := if r.isEdp then some r.instId else none
  latestEdpLsn := if r.isEdp then r.lsn else 0
  lsn := 0
  pending := .invalid
  converting := none
  convertQ := .empty

def drcRcyPageInfo (entry : Option BufRes) (r : PageInfo) : BufRes :=
  match entry with
  | some e => drcUpdatePageInfo e r
  | none => rcyBufRes r

/-- The entry after all the reports, from an empty directory. -/
def rebuild (reports : List PageInfo) : Option BufRes :=
  reports.foldl (fun entry r => some (drcRcyPageInfo entry r)) none

/-! ## The entry in terms of the reports -/

/-- The reports of instances that follow the protocol. -/
structure Coherent (l : List PageInfo) : Prop where
  insts : (l.map PageInfo.instId).Nodup
  exclusive : ∀ r ∈ l, ∀ r' ∈ l, r.lockMode = .exclusive → r'.lockMode ≠ .null →
    r'.instId = r.instId
  edpLsn : ∀ r ∈ l, r.isEdp = true → r.lsn ≠ 0
  edpLsns : l.Pairwise fun r r' => r.isEdp = true → r'.isEdp = true → r.lsn ≠ r'.lsn

/-- The owner, the mode and the copies come from the lock modes reported. -/
structure LocksOf (l : List PageInfo) (e : BufRes) : Prop where
  owner : ∀ i, e.claimedOwner = some i ↔ ∃ r ∈ l, r.lockMode = .exclusive ∧ r.instId = i
  mode : ∀ r ∈ l, r.lockMode ≠ .null → e.mode = r.lockMode
  nullMode : (∀ r ∈ l, r.lockMode = .null) → e.mode = .null
  copies : ∀ i, i ∈ e.readonlyCopies ↔ ∃ r ∈ l, r.lockMode = .share ∧ r.instId = i

/-- The earlier dirty pages are the reported ones, the one with the largest
lsn is the latest. -/
structure EdpsOf (l : List PageInfo) (e : BufRes) : Prop where
  edpMap : ∀ i, i ∈ e.edpMap ↔ ∃ r ∈ l, r.isEdp = true ∧ r.instId = i
  noEdp : (∀ r ∈ l, r.isEdp = false) → e.latestEdp = none ∧ e.latestEdpLsn = 0
  latest : ∀ r ∈ l, r.isEdp = true → (∀ r' ∈ l, r'.isEdp = true → r'.lsn ≤ r.lsn) →
    e.latestEdp = some r.instId ∧ e.latestEdpLsn = r.lsn

/-- What the entry made from the reports `l` holds. -/
structure Rebuilt (l : List PageInfo) (e : BufRes) : Prop where
  locks : LocksOf l e
  edps : EdpsOf l e
  rest : e.lsn = 0 ∧ e.pending = .invalid ∧ e.converting = none ∧ e.convertQ = .empty

section
variable {l l' : List PageInfo} {r : PageInfo} {e e' : BufRes}

lemma Coherent.perm (hl : Coherent l) (hperm : l.Perm l') : Coherent l' where
  insts := (hperm.map _).nodup_iff.mp hl.insts
  exclusive r hr r' hr' :=
    hl.exclusive r (hperm.mem_iff.mpr hr) r' (hperm.mem_iff.mpr hr')
  edpLsn r hr := hl.edpLsn r (hperm.mem_iff.mpr hr)
  edpLsns := by
    refine (hperm.pairwise_iff ?_).mp hl.edpLsns
    intro r r' hne hr' hr heq
    exact hne hr hr' heq.symm

lemma Coherent.of_append (hl : Coherent (l ++ [r])) : Coherent l where
  insts := by
    have hinsts := hl.insts
    rw [map_append] at hinsts
    exact hinsts.of_append_left
  exclusive r hr r' hr' :=
    hl.exclusive r (mem_append_left _ hr) r' (mem_append_left _ hr')
  edpLsn r hr := hl.edpLsn r (mem_append_left _ hr)
  edpLsns := (pairwise_append.mp hl.edpLsns).1

lemma Coherent.last_ne (hl : Coherent (l ++ [r])) {r'} (hr' : r' ∈ l) : r'.instId ≠ r.instId := by
  have hnodup := hl.insts
  rw [map_append, nodup_append] at hnodup
  exact hnodup.2.2 _ (mem_map_of_mem hr') _ (mem_singleton.mpr rfl)

/-- Two instances that both have the page locked both have it shared. -/
lemma Coherent.share_of_ne (hl : Coherent l) {r r'} (hr : r ∈ l) (hr' : r' ∈ l)
    (hne : r.instId ≠ r'.instId) (hlock : r.lockMode ≠ .null) (hlock' : r'.lockMode ≠ .null) :
    r.lockMode = .share := by
  cases hmode : r.lockMode with
  | null => exact absurd hmode hlock
  | share => rfl
  | exclusive => exact absurd (hl.exclusive r hr r' hr' hmode hlock').symm hne

/-- One of the earlier dirty pages has the largest lsn. -/
lemma exists_latest (l : List PageInfo) : (∀ r ∈ l, r.isEdp = false) ∨
      ∃ r ∈ l, r.isEdp = true ∧ ∀ r' ∈ l, r'.isEdp = true → r'.lsn ≤ r.lsn := by
  by_cases hnone : ∀ r ∈ l, r.isEdp = false
  · exact .inl hnone
  push Not at hnone
  obtain ⟨r0, hr0, hedp0⟩ := hnone
  rw [ne_eq, Bool.not_eq_false] at hedp0
  obtain ⟨r, hr, hmax⟩ := (l.filter PageInfo.isEdp).toFinset.exists_max_image PageInfo.lsn
    ⟨r0, mem_toFinset.mpr (mem_filter.mpr ⟨hr0, hedp0⟩)⟩
  obtain ⟨hmem, hedp⟩ := mem_filter.mp (mem_toFinset.mp hr)
  refine .inr ⟨r, hmem, hedp, fun r' hr' hedp' => ?_⟩
  exact hmax r' (mem_toFinset.mpr (mem_filter.mpr ⟨hr', hedp'⟩))

lemma Rebuilt.unique (he : Rebuilt l e) (he' : Rebuilt l e') : e = e' := by
  have howner : e.claimedOwner = e'.claimedOwner :=
    Option.ext fun i => (he.locks.owner i).trans (he'.locks.owner i).symm
  have hmode : e.mode = e'.mode := by
    by_cases hnull : ∀ r ∈ l, r.lockMode = .null
    · rw [he.locks.nullMode hnull, he'.locks.nullMode hnull]
    · push Not at hnull
      obtain ⟨r, hr, hne⟩ := hnull
      rw [he.locks.mode r hr hne, he'.locks.mode r hr hne]
  have hcopies : e.readonlyCopies = e'.readonlyCopies :=
    Finset.ext fun i => (he.locks.copies i).trans (he'.locks.copies i).symm
  have hedp : e.edpMap = e'.edpMap :=
    Finset.ext fun i => (he.edps.edpMap i).trans (he'.edps.edpMap i).symm
  have hlatest : e.latestEdp = e'.latestEdp ∧ e.latestEdpLsn = e'.latestEdpLsn := by
    rcases exists_latest l with hnone | ⟨r, hr, hredp, hmax⟩
    · have h := he.edps.noEdp hnone
      have h' := he'.edps.noEdp hnone
      exact ⟨h.1.trans h'.1.symm, h.2.trans h'.2.symm⟩
    · have h := he.edps.latest r hr hredp hmax
      have h' := he'.edps.latest r hr hredp hmax
      exact ⟨h.1.trans h'.1.symm, h.2.trans h'.2.symm⟩
  obtain ⟨hlsn, hpending, hconv, hq⟩ := he.rest
  obtain ⟨hlsn', hpending', hconv', hq'⟩ := he'.rest
  cases e
  cases e'
  simp_all

/-- What the entry holds does not depend on the order of the reports. -/
lemma Rebuilt.perm (he : Rebuilt l e) (hperm : l.Perm l') : Rebuilt l' e := by
  have hmem : ∀ r, r ∈ l' ↔ r ∈ l := fun r => hperm.mem_iff.symm
  obtain ⟨⟨howner, hmode, hnull, hcopies⟩, ⟨hmap, hnone, hlatest⟩, hrest⟩ := he
  refine ⟨⟨?_, ?_, ?_, ?_⟩, ⟨?_, ?_, ?_⟩, hrest⟩
  all_goals
    simp only [hmem]
    assumption

/-! ## One report -/

lemma recordEdp_eq (e : BufRes) (r : PageInfo) :
    ∃ em le ll, recordEdp e r = { e with edpMap := em, latestEdp := le, latestEdpLsn := ll } := by
  unfold recordEdp
  split
  · split <;> exact ⟨_, _, _, rfl⟩
  · exact ⟨_, _, _, rfl⟩

lemma recordLockMode_eq (e : BufRes) (r : PageInfo) : ∃ o md ro, recordLockMode e r =
      { e with claimedOwner := o, mode := md, readonlyCopies := ro } := by
  unfold recordLockMode
  split
  · exact ⟨_, _, _, rfl⟩
  · exact ⟨_, _, _, rfl⟩
  · simp only
    split <;> exact ⟨_, _, _, rfl⟩

lemma mem_recordEdp_edpMap (e : BufRes) (r : PageInfo) (i : InstId) :
    i ∈ (recordEdp e r).edpMap ↔ (r.isEdp = true ∧ r.instId = i) ∨ i ∈ e.edpMap := by
  unfold recordEdp
  split
  · rename_i hedp
    split <;> simp [hedp, eq_comm]
  · rename_i hedp
    simp [hedp]

/-- The latest earlier dirty page is the reported one if its lsn is larger. -/
lemma recordEdp_latest (e : BufRes) (r : PageInfo) :
    (r.isEdp = true ∧ e.latestEdpLsn < r.lsn ∧ (recordEdp e r).latestEdp = some r.instId ∧
        (recordEdp e r).latestEdpLsn = r.lsn) ∨
      ((r.isEdp = true → r.lsn ≤ e.latestEdpLsn) ∧ (recordEdp e r).latestEdp = e.latestEdp ∧
        (recordEdp e r).latestEdpLsn = e.latestEdpLsn) := by
  unfold recordEdp
  split
  · rename_i hedp
    split_ifs with hlt
    · exact .inl ⟨hedp, hlt, rfl, rfl⟩
    · exact .inr ⟨fun _ => not_lt.mp hlt, rfl, rfl⟩
  · rename_i hedp
    exact .inr ⟨fun h => absurd h hedp, rfl, rfl⟩

lemma mem_recordLockMode_copies (e : BufRes) (r : PageInfo) (i : InstId) :
    i ∈ (recordLockMode e r).readonlyCopies ↔
      (r.lockMode = .share ∧ r.instId = i) ∨ i ∈ e.readonlyCopies := by
  unfold recordLockMode
  split
  · rename_i hmode
    simp [hmode]
  · rename_i hmode
    simp [hmode, eq_comm]
  · rename_i hmode
    simp only
    split <;> simp [hmode]

lemma recordLockMode_mode (e : BufRes) (r : PageInfo) :
    (recordLockMode e r).mode = if r.lockMode = .null then e.mode else r.lockMode := by
  unfold recordLockMode
  split
  · rename_i hmode
    rw [if_pos hmode]
  · rename_i hmode
    simp [hmode]
  · rename_i hmode
    simp only [hmode]
    split <;> rfl

lemma recordLockMode_owner (e : BufRes) (r : PageInfo) : (recordLockMode e r).claimedOwner =
      if r.lockMode = .exclusive ∧ e.claimedOwner = none then some r.instId
      else e.claimedOwner := by
  unfold recordLockMode
  split
  · rename_i hmode
    simp [hmode]
  · rename_i hmode
    simp [hmode]
  · rename_i hmode
    simp only
    split
    · rename_i howner
      simp [howner]
    · rename_i howner
      rw [not_not] at howner
      simp [hmode, howner]

lemma exists_mem_append_singleton {p : PageInfo → Prop} :
    (∃ r' ∈ l ++ [r], p r') ↔ p r ∨ ∃ r' ∈ l, p r' := by
  simp [or_and_right, exists_or, or_comm]

lemma forall_mem_append_singleton {p : PageInfo → Prop} :
    (∀ r' ∈ l ++ [r], p r') ↔ (∀ r' ∈ l, p r') ∧ p r := by
  simp [or_imp, forall_and]

lemma LocksOf.recordLockMode (he : LocksOf l e) (hl : Coherent (l ++ [r])) :
    LocksOf (l ++ [r]) (recordLockMode e r) := by
  have hmem : ∀ {r'}, r' ∈ l → r' ∈ l ++ [r] := fun h => mem_append_left _ h
  have hlast : r ∈ l ++ [r] := mem_append_right _ (mem_singleton.mpr rfl)
  constructor
  · intro i
    rw [exists_mem_append_singleton, ← he.owner i, recordLockMode_owner]
    by_cases hx : r.lockMode = .exclusive
    · -- no other instance has reported the page as exclusive
      have hnone : e.claimedOwner = none := by
        by_contra hsome
        obtain ⟨j, hj⟩ := Option.ne_none_iff_exists'.mp hsome
        obtain ⟨r', hr', hx', -⟩ := (he.owner j).mp hj
        refine hl.last_ne hr' (hl.exclusive r hlast r' (hmem hr') hx ?_)
        rw [hx']
        exact LockMode.noConfusion
      simp [hx, hnone]
    · simp [hx]
  · rw [forall_mem_append_singleton, recordLockMode_mode]
    refine ⟨fun r' hr' hne => ?_, fun hne => if_neg hne⟩
    split_ifs with hne'
    · exact he.mode r' hr' hne
    · have hinst := hl.last_ne hr'
      rw [hl.share_of_ne hlast (hmem hr') hinst.symm hne' hne,
        hl.share_of_ne (hmem hr') hlast hinst hne hne']
  · rw [forall_mem_append_singleton, recordLockMode_mode]
    intro hnull
    rw [if_pos hnull.2]
    exact he.nullMode hnull.1
  · intro i
    rw [exists_mem_append_singleton, ← he.copies i, mem_recordLockMode_copies]

/-- The lsn recorded is smaller than the one of a later report. -/
lemma EdpsOf.latestEdpLsn_lt (he : EdpsOf l e) (hl : Coherent (l ++ [r])) (hedp : r.isEdp = true)
    (hmax : ∀ r' ∈ l, r'.isEdp = true → r'.lsn ≤ r.lsn) : e.latestEdpLsn < r.lsn := by
  have hlast : r ∈ l ++ [r] := mem_append_right _ (mem_singleton.mpr rfl)
  rcases exists_latest l with hnone | ⟨m, hm, hmedp, hm'⟩
  · rw [(he.noEdp hnone).2]
    exact Nat.pos_of_ne_zero (hl.edpLsn r hlast hedp)
  · rw [(he.latest m hm hmedp hm').2]
    refine lt_of_le_of_ne (hmax m hm hmedp) ?_
    have hne := (pairwise_append.mp hl.edpLsns).2.2 m hm r (mem_singleton.mpr rfl)
    exact hne hmedp hedp

lemma EdpsOf.recordEdp (he : EdpsOf l e) (hl : Coherent (l ++ [r])) :
    EdpsOf (l ++ [r]) (recordEdp e r) := by
  have hmem : ∀ {r'}, r' ∈ l → r' ∈ l ++ [r] := fun h => mem_append_left _ h
  have hlast : r ∈ l ++ [r] := mem_append_right _ (mem_singleton.mpr rfl)
  constructor
  · intro i
    rw [exists_mem_append_singleton, ← he.edpMap i, mem_recordEdp_edpMap]
  · rw [forall_mem_append_singleton]
    intro hnone
    have hold := he.noEdp hnone.1
    rcases recordEdp_latest e r with ⟨hedp, -⟩ | ⟨-, hle, hll⟩
    · cases hnone.2.symm.trans hedp
    · exact ⟨hle.trans hold.1, hll.trans hold.2⟩
  · intro m hm hmedp hmax
    rw [forall_mem_append_singleton] at hmax
    rcases mem_append.mp hm with hm | hm
    · obtain ⟨hle, hll⟩ := he.latest m hm hmedp hmax.1
      rcases recordEdp_latest e r with ⟨hedp, hlt, -⟩ | ⟨-, hle', hll'⟩
      · exact absurd (hll ▸ hlt) (not_lt.mpr (hmax.2 hedp))
      · exact ⟨hle'.trans hle, hll'.trans hll⟩
    · obtain rfl := mem_singleton.mp hm
      have hlt : e.latestEdpLsn < m.lsn := he.latestEdpLsn_lt hl hmedp hmax.1
      rcases recordEdp_latest e m with ⟨-, -, hle, hll⟩ | ⟨hnot, -⟩
      · exact ⟨hle, hll⟩
      · exact absurd hlt (not_lt.mpr (hnot hmedp))

lemma rcyBufRes_rebuilt (r : PageInfo) : Rebuilt [r] (rcyBufRes r) := by
  have hforall : ∀ {p : PageInfo → Prop}, (∀ r' ∈ [r], p r') ↔ p r := by simp
  have hexists : ∀ {p : PageInfo → Prop}, (∃ r' ∈ [r], p r') ↔ p r := by simp
  refine ⟨⟨?_, ?_, ?_, ?_⟩, ⟨?_, ?_, ?_⟩, rfl, rfl, rfl, rfl⟩
  all_goals simp only [hforall, hexists, rcyBufRes]
  · simp
  · simp
  · exact id
  · intro i
    by_cases hmode : r.lockMode = .share
    · simp [hmode, eq_comm]
    · simp [hmode]
  · intro i
    cases hedp : r.isEdp with
    | true => simp [eq_comm]
    | false => simp
  · intro hedp
    simp [hedp]
  · intro hedp _
    simp [hedp]

lemma Rebuilt.update (he : Rebuilt l e) (hl : Coherent (l ++ [r])) :
    Rebuilt (l ++ [r]) (drcUpdatePageInfo e r) := by
  obtain ⟨em, le, ll, hedp⟩ := recordEdp_eq e r
  obtain ⟨o, md, ro, hlock⟩ := recordLockMode_eq (recordEdp e r) r
  constructor
  · have hlocks : LocksOf l (recordEdp e r) := by
      rw [hedp]
      exact { he.locks with }
    exact hlocks.recordLockMode hl
  · have hedps := he.edps.recordEdp hl
    rw [drcUpdatePageInfo, hlock]
    exact { hedps with }
  · rw [drcUpdatePageInfo, hlock, hedp]
    exact he.rest

/-! ## All reports -/

/-- The entry made from coherent reports, in terms of the reports. -/
lemma rebuild_rebuilt (l : List PageInfo) (hl : Coherent l) (hne : l ≠ []) :
    ∃ e, rebuild l = some e ∧ Rebuilt l e := by
  induction l using reverseRecOn with
  | nil => exact absurd rfl hne
  | append_singleton l r ih =>
    rw [rebuild, foldl_append, ← rebuild]
    refine ⟨_, rfl, ?_⟩
    cases l with
    | nil => exact rcyBufRes_rebuilt r
    | cons r0 l =>
      obtain ⟨e, he, hreb⟩ := ih hl.of_append (cons_ne_nil r0 l)
      rw [he]
      exact hreb.update hl

/-- Coherent reports of distinct instances make the same entry in any order,
and the owner is the instance that reports the page as exclusive. -/
theorem rebuild_perm (l l' : List PageInfo) (hl : Coherent l) (hperm : l.Perm l') :
    rebuild l = rebuild l' ∧
      ∀ r ∈ l, r.lockMode = .exclusive →
        ∃ e, rebuild l = some e ∧ e.claimedOwner = some r.instId := by
  by_cases hne : l = []
  · subst hne
    rw [nil_perm.mp hperm]
    exact ⟨rfl, fun r hr => absurd hr not_mem_nil⟩
  · have hne' : l' ≠ [] := fun h => hne (perm_nil.mp (h ▸ hperm))
    obtain ⟨e, he, hreb⟩ := rebuild_rebuilt l hl hne
    obtain ⟨e', he', hreb'⟩ := rebuild_rebuilt l' (hl.perm hperm) hne'
    obtain rfl := (hreb.perm hperm).unique hreb'
    refine ⟨he.trans he'.symm, fun r hr hx => ⟨e, he, ?_⟩⟩
    exact (hreb.locks.owner r.instId).mpr ⟨r, hr, hx, rfl⟩

end

/-- An owner, and two instances with earlier dirty pages. -/
def threeReports : List PageInfo :=
  [⟨0, .null, true, 5⟩, ⟨1, .exclusive, false, 9⟩, ⟨2, .null, true, 7⟩]

lemma threeReports_coherent : Coherent threeReports := by
  constructor <;> decide

theorem rebuild_perm_three : rebuild threeReports = rebuild threeReports.reverse ∧
      (rebuild threeReports).map (fun e => (e.claimedOwner, e.mode, e.edpMap, e.latestEdp)) =
        some (some 1, .exclusive, {0, 2}, some 2) :=
  ⟨(rebuild_perm _ _ threeReports_coherent (reverse_perm _).symm).1, by decide⟩

end Cantian.Drc
