import Cantian.Lib.Transition

/-!
# The recovery set

Analysis threads read redo batches in any order and record the pages that the
groups enter. The set is a table of buckets, each under its own lock, and its
items come from pools of a fixed capacity; a full pool is followed by a new one.

A call is one step. One that finds the lock of its bucket taken does not
return.
-/

namespace Cantian.Recovery.Analysis

open Lib Function List Option

section
variable {κ : Type*}

/-- `rcy_set_item_t`. -/
structure Item (κ : Type*) where
  pageId : κ
  firstDirtyLsn : Nat
  lastDirtyLsn : Nat
  pcn : Nat
  masterId : Nat
  needReplay : Bool
deriving DecidableEq

/-- `last_dirty_lsn` is raised. -/
def Item.raise (it : Item κ) (lsn : Nat) : Item κ :=
  { it with lastDirtyLsn := max it.lastDirtyLsn lsn }

/-- `rcy_set_bucket_t`, with its items from `first` on. -/
structure Bucket (κ : Type*) where
  lock : Bool
  items : List (Item κ)

/-- `rcy_set_t`: `hwm` is that of the current pool. No function reads `recorded`, the
pages and lsns of the calls that succeeded. -/
structure RcySet (κ : Type*) where
  hash : κ → Nat
  capacity : Nat
  hwm : Nat
  buckets : Nat → Bucket κ
  recorded : List (κ × Nat)

/-- A call, with what it meets: whether there is memory for a pool, and the master of the
page (`drc_get_page_master_id`). -/
structure Call (κ : Type*) where
  pageId : κ
  lsn : Nat
  pcn : Nat
  memory : Bool
  master : Option Nat

def RcySet.bucket (s : RcySet κ) (p : κ) : Bucket κ := s.buckets (s.hash p)

def RcySet.setBucket (s : RcySet κ) (p : κ) (b : Bucket κ) : RcySet κ :=
  { s with buckets := update s.buckets (s.hash p) b }

/-- An item of the current pool, or of a new one: the number that has been taken then.
After `dtc_rcy_try_alloc_itempool` the loop goes on with the exchange of `hwm`. -/
def RcySet.allocItem (s : RcySet κ) (memory : Bool) : Option Nat :=
  if s.hwm < s.capacity then some (s.hwm + 1) else if memory then some 1 else none

/-- The item has the smallest and the largest lsn of its page. -/
structure Spans (recorded : List (κ × Nat)) (it : Item κ) : Prop where
  first : (it.pageId, it.firstDirtyLsn) ∈ recorded
  last : (it.pageId, it.lastDirtyLsn) ∈ recorded
  between : ∀ l, (it.pageId, l) ∈ recorded → it.firstDirtyLsn ≤ l ∧ l ≤ it.lastDirtyLsn

def Bucket.pages (b : Bucket κ) : List κ := b.items.map Item.pageId

/-- Every recorded page has one item, and no lock is taken. -/
structure Recorded (s : RcySet κ) : Prop where
  lock : ∀ h, (s.buckets h).lock = false
  home : ∀ h, ∀ p ∈ (s.buckets h).pages, s.hash p = h
  once : ∀ h, (s.buckets h).pages.Nodup
  held : ∀ x ∈ s.recorded, x.1 ∈ (s.bucket x.1).pages
  spans : ∀ h, ∀ it ∈ (s.buckets h).items, Spans s.recorded it

variable [DecidableEq κ]

def dtcRcyGetItem (b : Bucket κ) (p : κ) : Option (Item κ) :=
  b.items.find? fun it => decide (it.pageId = p)

/-- `dtc_rcy_get_item`, with the update of `last_dirty_lsn`. -/
def raiseLsn (p : κ) (lsn : Nat) : List (Item κ) → Option (List (Item κ))
  | [] => none
  | it :: rest =>
    if it.pageId = p then some (it.raise lsn :: rest) else (raiseLsn p lsn rest).map (it :: ·)

/-- `dtc_rcy_record_page`, when it is not for a restore: whether it succeeds, and the set
that it leaves. -/
def dtcRcyRecordPage (s : RcySet κ) (c : Call κ) : Option (Bool × RcySet κ) :=
  let b := s.bucket c.pageId
  if b.lock then none
  else
    match raiseLsn c.pageId c.lsn b.items with
    | some items => some (true, s.setBucket c.pageId { b with items := items })
    | none =>
      match s.allocItem c.memory with
      -- the call returns without `cm_spin_unlock`
      | none => some (false, s.setBucket c.pageId { b with lock := true })
      | some hwm =>
        match c.master with
        | none => some (false, { s with hwm := hwm })
        | some m => some (true, { s with hwm := hwm }.setBucket c.pageId
            { b with items := ⟨c.pageId, c.lsn, c.lsn, c.pcn, m, true⟩ :: b.items })

def rcyStep (s : RcySet κ) (c : Call κ) : Option (RcySet κ) :=
  (dtcRcyRecordPage s c).map fun r =>
    if r.1 then { r.2 with recorded := (c.pageId, c.lsn) :: s.recorded } else r.2

/-- The set before the analysis. -/
structure RcySet.Fresh (s : RcySet κ) : Prop where
  buckets : ∀ h, s.buckets h = ⟨false, []⟩
  recorded : s.recorded = []

/-- The page was not recorded with a larger lsn first, and a new page that finds the pool
full gets the memory for the next one. -/
def recordOk (s : RcySet κ) (c : Call κ) : Bool :=
  match dtcRcyGetItem (s.bucket c.pageId) c.pageId with
  | some it => decide (it.firstDirtyLsn ≤ c.lsn)
  | none => (s.allocItem c.memory).isSome

/-! ## One call -/

section
variable {s t : RcySet κ} {c : Call κ} {p : κ} {lsn : Nat} {b : Bucket κ}

omit [DecidableEq κ] in
lemma Spans.cons {recorded it} (h : Spans recorded it) (hne : it.pageId ≠ p) :
    Spans ((p, lsn) :: recorded) it where
  first := mem_cons_of_mem _ h.first
  last := mem_cons_of_mem _ h.last
  between l hl := by
    rcases mem_cons.mp hl with heq | hl
    · exact absurd (Prod.mk.inj heq).1 hne
    · exact h.between l hl

omit [DecidableEq κ] in
/-- A successful call gives the bucket of its page new items. -/
lemma Recorded.record (h : Recorded s) {hwm} (hhome : ∀ q ∈ b.pages, s.hash q = s.hash p)
    (hlock : b.lock = false) (honce : b.pages.Nodup)
    (hheld : p ∈ b.pages ∧ (s.bucket p).pages ⊆ b.pages)
    (hspans : ∀ it ∈ b.items, Spans ((p, lsn) :: s.recorded) it) :
    Recorded { { s with hwm := hwm }.setBucket p b with recorded := (p, lsn) :: s.recorded } where
  lock := (forall_update_iff s.buckets fun _ b => b.lock = false).mpr ⟨hlock, fun i _ => h.lock i⟩
  home := (forall_update_iff s.buckets fun i b => ∀ q ∈ b.pages, s.hash q = i).mpr
    ⟨hhome, fun i _ => h.home i⟩
  once := (forall_update_iff s.buckets fun _ b => b.pages.Nodup).mpr ⟨honce, fun i _ => h.once i⟩
  held x hx := by
    show x.1 ∈ (update s.buckets (s.hash p) b (s.hash x.1)).pages
    rcases mem_cons.mp hx with rfl | hx
    · simpa only [update_self] using hheld.1
    · rcases eq_or_ne (s.hash x.1) (s.hash p) with hh | hh
      · have hold := h.held x hx
        rw [RcySet.bucket, hh] at hold
        rw [hh, update_self]
        exact hheld.2 hold
      · rw [update_of_ne hh]
        exact h.held x hx
  spans := by
    refine (forall_update_iff s.buckets fun _ b => ∀ it ∈ b.items, Spans _ it).mpr ⟨hspans, ?_⟩
    intro i hi it hit
    refine (h.spans i it hit).cons fun hp => hi ?_
    rw [← h.home i it.pageId (mem_map_of_mem hit), hp]

/-- What the walk over the bucket finds. -/
inductive Walked (p : κ) (lsn : Nat) (b : Bucket κ) : Prop where
  | absent (hget : dtcRcyGetItem b p = none) (hraise : raiseLsn p lsn b.items = none)
      (hnot : p ∉ b.pages)
  | found (as bs : List (Item κ)) (it : Item κ) (hitems : b.items = as ++ it :: bs)
      (hpage : it.pageId = p) (hget : dtcRcyGetItem b p = some it)
      (hraise : raiseLsn p lsn b.items = some (as ++ it.raise lsn :: bs))

lemma walked (p : κ) (lsn : Nat) (b : Bucket κ) : Walked p lsn b := by
  obtain ⟨lock, items⟩ := b
  induction items with
  | nil => exact .absent rfl rfl (by simp [Bucket.pages])
  | cons it rest ih =>
    by_cases hit : it.pageId = p
    · exact .found [] rest it rfl hit (by simp [dtcRcyGetItem, hit]) (by simp [raiseLsn, hit])
    cases ih with
    | absent hget hraise hnot =>
      refine .absent (by simpa [dtcRcyGetItem, hit] using hget) ?_ ?_
      · simp only [raiseLsn, hit, if_false, map_eq_none_iff]
        exact hraise
      · simpa [Bucket.pages, Ne.symm hit] using hnot
    | found as bs it' hitems hpage hget hraise =>
      refine .found (it :: as) bs it' (congrArg (it :: ·) hitems) hpage ?_ ?_
      · simpa [dtcRcyGetItem, hit] using hget
      · simp only [raiseLsn, hit, if_false, map_eq_some_iff]
        exact ⟨_, hraise, rfl⟩

lemma Recorded.step (h : Recorded s) (hstep : rcyStep s c = some t) :
    Recorded t ↔ recordOk s c = true := by
  have hfree : (s.bucket c.pageId).lock = false := h.lock _
  have hold : ∀ it ∈ (s.bucket c.pageId).items, Spans s.recorded it := h.spans _
  have honce : (s.bucket c.pageId).pages.Nodup := h.once _
  have hhome : ∀ q ∈ (s.bucket c.pageId).pages, s.hash q = s.hash c.pageId := h.home _
  simp only [rcyStep, dtcRcyRecordPage, hfree, Bool.false_eq_true, if_false] at hstep
  cases walked c.pageId c.lsn (s.bucket c.pageId) with
  | found as bs it hitems hpage hget hraise =>
    simp only [recordOk, hget, decide_eq_true_iff]
    simp only [hraise, map_some, if_true] at hstep
    cases hstep
    have hspan := hold it (by simp [hitems])
    have hpages : Bucket.pages ⟨false, as ++ it.raise c.lsn :: bs⟩ = (s.bucket c.pageId).pages := by
      simp [Bucket.pages, hitems, Item.raise]
    constructor
    · intro hrec
      have hnew := hrec.spans (s.hash c.pageId) (it.raise c.lsn) (by simp [RcySet.setBucket])
      exact (hnew.between c.lsn (by simp [Item.raise, hpage])).1
    · intro hle
      refine h.record (by rwa [hpages]) rfl (by rwa [hpages]) ?_ fun it' hit' => ?_
      · rw [hpages]
        exact ⟨by simp [Bucket.pages, hitems, hpage], List.Subset.refl _⟩
      rcases mem_cons.mp (perm_middle.mem_iff.mp hit') with rfl | hmem
      · refine ⟨mem_cons_of_mem _ hspan.first, ?_, fun l hl => ?_⟩
        · rcases Nat.le_total c.lsn it.lastDirtyLsn with hlast | hlast
          · exact mem_cons_of_mem _ (by simpa [Item.raise, hlast] using hspan.last)
          · simp [Item.raise, hpage, hlast]
        · rcases mem_cons.mp hl with heq | hl
          · obtain rfl := (Prod.mk.inj heq).2
            exact ⟨hle, Nat.le_max_right ..⟩
          · have hbetween := hspan.between l hl
            exact ⟨hbetween.1, Nat.le_trans hbetween.2 (Nat.le_max_left ..)⟩
      · have hmid : (it :: (as ++ bs)).map Item.pageId |>.Nodup :=
          (perm_middle.map Item.pageId).nodup_iff.mp (hitems ▸ honce)
        have hit : it' ∈ (s.bucket c.pageId).items :=
          hitems ▸ perm_middle.mem_iff.mpr (mem_cons_of_mem _ hmem)
        refine (hold it' hit).cons fun hp => (nodup_cons.mp hmid).1 ?_
        exact mem_map.mpr ⟨it', hmem, hp.trans hpage.symm⟩
  | absent hget hraise hnot =>
    simp only [recordOk, hget]
    simp only [hraise] at hstep
    cases halloc : s.allocItem c.memory with
    | none =>
      simp only [halloc, map_some] at hstep
      cases hstep
      refine iff_of_false (fun hrec => ?_) nofun
      have hlocked := hrec.lock (s.hash c.pageId)
      simp [RcySet.setBucket] at hlocked
    | some hwm =>
      refine iff_of_true ?_ rfl
      simp only [halloc] at hstep
      cases hmaster : c.master with
      | none =>
        simp only [hmaster, map_some] at hstep
        cases hstep
        exact { h with }
      | some m =>
        simp only [hmaster, map_some, if_true] at hstep
        cases hstep
        refine h.record ?_ rfl (nodup_cons.mpr ⟨hnot, honce⟩)
          ⟨mem_cons_self, subset_cons_self ..⟩ ?_
        · intro q hq
          rcases mem_cons.mp hq with rfl | hq
          · rfl
          · exact hhome q hq
        · intro it hit
          rcases mem_cons.mp hit with rfl | hit
          · refine ⟨mem_cons_self, mem_cons_self, fun l hl => ?_⟩
            rcases mem_cons.mp hl with heq | hl
            · exact ⟨Nat.le_of_eq (Prod.mk.inj heq).2.symm, Nat.le_of_eq (Prod.mk.inj heq).2⟩
            · exact absurd (h.held _ hl) hnot
          · exact (hold it hit).cons fun hp => hnot (mem_map.mpr ⟨it, hit, hp⟩)

omit [DecidableEq κ] in
lemma RcySet.Fresh.recorded_nil (h : s.Fresh) : Recorded s where
  lock i := by simp [h.buckets]
  home i := by simp [h.buckets, Bucket.pages]
  once i := by simp [h.buckets, Bucket.pages]
  held := by simp [h.recorded]
  spans i := by simp [h.buckets]

/-- As long as every call is in order and gets its memory, the set has each recorded page
once, with the smallest and the largest lsn, and no lock is left taken; the first call that
is not breaks this. -/
theorem recovery_set_of_ordered
    (h : ReachableBy rcyStep RcySet.Fresh (fun s c => recordOk s c = true) s) :
    Recorded s ∧ ∀ c t, rcyStep s c = some t → (Recorded t ↔ recordOk s c = true) := by
  have hrec : Recorded s :=
    h.invariant (fun _ hs => hs.recorded_nil) fun _ _ _ hok hs hst => (hs.step hst).mpr hok
  exact ⟨hrec, fun c t hst => hrec.step hst⟩

end

end

/-- One bucket and a pool of one item. -/
def smallSet : RcySet Nat := ⟨fun _ => 0, 1, 0, fun _ => ⟨false, []⟩, []⟩

lemma smallSet_fresh : smallSet.Fresh := ⟨fun _ => rfl, rfl⟩

/-- A page is recorded with two lsns in their order, then another one. -/
theorem recovery_set_of_three :
    ∃ s : RcySet Nat, Recorded s ∧ s.recorded = [(2, 15), (1, 20), (1, 10)] := by
  obtain ⟨s, hrun, hs⟩ := exists_of_runOk_map rcyStep recordOk smallSet
    [⟨1, 10, 0, true, some 0⟩, ⟨1, 20, 0, true, some 0⟩, ⟨2, 15, 0, true, some 0⟩]
    RcySet.recorded [(2, 15), (1, 20), (1, 10)] (by decide)
  exact ⟨s, (recovery_set_of_ordered (.of_runOk _ (.init smallSet_fresh) hrun)).1, hs⟩

/-- Two groups enter a page, and the later one is analysed first: `first_dirty_lsn` is not
the smallest lsn. Without memory for a second pool the bucket stays locked. -/
theorem recovery_set_unordered :
    (∃ s, Reachable rcyStep RcySet.Fresh s ∧ s.recorded = [(1, 10), (1, 20)] ∧
      (s.buckets 0).items.map Item.firstDirtyLsn = [20]) ∧
    ∃ s : RcySet Nat, Reachable rcyStep RcySet.Fresh s ∧ (s.buckets 0).lock = true := by
  constructor
  · obtain ⟨s, hrun, hs⟩ := exists_of_run_map rcyStep smallSet
      [⟨1, 20, 0, true, some 0⟩, ⟨1, 10, 0, true, some 0⟩]
      (fun s => (s.recorded, (s.buckets 0).items.map Item.firstDirtyLsn))
      ([(1, 10), (1, 20)], [20]) (by decide)
    exact ⟨s, .of_run _ (.init smallSet_fresh) hrun, Prod.mk.inj hs⟩
  · obtain ⟨s, hrun, hs⟩ := exists_of_run_map rcyStep smallSet
      [⟨1, 10, 0, true, some 0⟩, ⟨2, 20, 0, false, some 0⟩] (fun s => (s.buckets 0).lock) true
      (by decide)
    exact ⟨s, .of_run _ (.init smallSet_fresh) hrun, hs⟩

end Cantian.Recovery.Analysis
