import Cantian.Archive.Span

/-!
# Cleaning the archive catalogue

Both cleaning functions run the same rounds over the span. The rounds keep
the catalogue spanned when the removed files are the first live files of
the span and the last slot of the ring is not among them; whole runs of
recordings and cleanings then keep every live file in its slot and within
reach of the lookup. Without that condition the catalogue loses files.
-/

namespace Cantian.Archive

open Lib List Bool Prod

section
variable (needed : Nat → Bool) (a : CleanArgs) (c : Catalogue)

/-- The `i`-th entry of the span has a file that the cleaning may remove. -/
def removable (i : Nat) : Bool :=
  (c.archCtrl (locator c i)).recid != 0 && archCanBeCleaned a (c.archCtrl (locator c i))

/-- The `i`-th entry of the span has a file that the cleaning must leave. -/
def mustStay (i : Nat) : Bool :=
  (c.archCtrl (locator c i)).recid != 0 && !archCanBeCleaned a (c.archCtrl (locator c i))

/-- The size of the removable files among the first `i` entries. -/
def removableSize : Nat → Int
  | 0 => 0
  | i + 1 => removableSize i +
    if removable a c i then archGetCtrlRealSize (c.archCtrl (locator c i)) else 0

/-- The cleaning goes no further than the `i`-th entry: a backup needs it, or its
file cannot be removed or recorded as removed, or enough space is free then. -/
def endsAt (i : Nat) : Bool :=
  needed (c.archCtrl (locator c i)).asn ||
    (removable a c i && (a.removeFails (locator c i) || a.saveFails (locator c i) ||
      decide (uint64 (c.currArchSize - removableSize a c (i + 1)) < a.targetSize)))

/-- The cleaning comes to remove the file of the `i`-th entry. -/
def removes (i : Nat) : Bool :=
  removable a c i && !needed (c.archCtrl (locator c i)).asn && !a.removeFails (locator c i) &&
    (List.range i).all fun k => !endsAt needed a c k

/-- Whatever file the cleaning comes to remove, no file before it must stay, and it
is not in the last slot of the ring. -/
def cleansFront : Bool :=
  (List.range (archGetFilesNum c)).all fun i =>
    !removes needed a c i ||
      (((List.range i).all fun k => !mustStay a c k) && decide (locator c i + 1 < ctMaxArchNum))

end

section
variable {needed : Nat → Bool} {a : CleanArgs} {c : Catalogue}

/-- Where the rounds stand before the `i`-th entry of the span of `c`. -/
structure Walk (needed : Nat → Bool) (a : CleanArgs) (c : Catalogue) (i : Nat)
    (v : Catalogue) : Prop where
  spanned : Spanned v
  ended : v.archivedEnd = c.archivedEnd
  started : ∃ j ≤ i, v.archivedStart = slotAt ctMaxArchNum c.archivedStart j
  size : v.currArchSize = c.currArchSize - removableSize a c i
  ahead : ∀ k, i ≤ k → k < archGetFilesNum c → v.archCtrl (locator c k) = c.archCtrl (locator c k)
  behind : (∀ k < i, mustStay a c k = false) →
    ∀ p ∈ v.live, i ≤ offset ctMaxArchNum c.archivedStart p.1
  going : ∀ k < i, endsAt needed a c k = false

lemma Walk.start (h : Spanned c) : Walk needed a c 0 c where
  spanned := h
  ended := rfl
  started := ⟨0, Nat.le_refl 0, (slotAt_zero h.start_lt).symm⟩
  size := by simp [removableSize]
  ahead _ _ _ := rfl
  behind _ _ _ := Nat.zero_le _
  going _ hk := absurd hk (Nat.not_lt_zero _)

section
variable {v : Catalogue} {i : Nat} (hc : Spanned c) (w : Walk needed a c i v)
include hc w

/-- A live file at offset `i` is an entry with a record id. -/
lemma Walk.offset_ne (hi : i < archGetFilesNum c) (hzero : (c.archCtrl (locator c i)).recid = 0) {p}
    (hp : p ∈ v.live) : offset ctMaxArchNum c.archivedStart p.1 ≠ i := by
  intro he
  have hslot : locator c i = p.1 := by
    rw [← he]
    exact slotAt_offset hc.start_lt (w.spanned.live_lt p hp)
  have hctrl := w.ahead i (Nat.le_refl i) hi
  rw [hslot, w.spanned.live_slot p hp, ← hslot] at hctrl
  apply w.spanned.live_recid p hp
  rw [hctrl]
  exact hzero

lemma Walk.pass (hi : i < archGetFilesNum c) (hneed : needed (c.archCtrl (locator c i)).asn = false)
    (hrem : removable a c i = false) :
    Walk needed a c (i + 1) v where
  spanned := w.spanned
  ended := w.ended
  started := by
    obtain ⟨j, hj, hstart⟩ := w.started
    exact ⟨j, by omega, hstart⟩
  size := by
    rw [w.size]
    simp [removableSize, hrem]
  ahead k hk hlt := w.ahead k (by omega) hlt
  behind hstay p hp := by
    have hge := w.behind (fun k hk => hstay k (by omega)) p hp
    have hne : offset ctMaxArchNum c.archivedStart p.1 ≠ i := by
      apply w.offset_ne hc hi _ hp
      -- neither removable nor bound to stay: the entry has no file
      have hi' := hstay i (Nat.lt_succ_self i)
      unfold mustStay at hi'
      unfold removable at hrem
      cases hcan : archCanBeCleaned a (c.archCtrl (locator c i)) <;>
        simpa [hcan] using And.intro hi' hrem
    omega
  going k hk := by
    rcases eq_or_ne k i with rfl | hki
    · simp [endsAt, hneed, hrem]
    · exact w.going k (by omega)

lemma Walk.remove (hfront : cleansFront needed a c = true) (hi : i < archGetFilesNum c)
    (hneed : needed (c.archCtrl (locator c i)).asn = false) (hrem : removable a c i = true)
    (hdev : a.removeFails (locator c i) = false) :
    Spanned (dbSaveArchCtrl (removeFile v (locator c i)) (locator c i + 1) c.archivedEnd) ∧
    (dbSaveArchCtrl (removeFile v (locator c i)) (locator c i + 1) c.archivedEnd).currArchSize
      = c.currArchSize - removableSize a c (i + 1) ∧
    (endsAt needed a c i = false → Walk needed a c (i + 1)
        (dbSaveArchCtrl (removeFile v (locator c i)) (locator c i + 1) c.archivedEnd)) := by
  have hremoves : removes needed a c i = true := by
    simp only [removes, hrem, hneed, hdev, Bool.not_false, Bool.and_self, Bool.true_and,
      List.all_eq_true, List.mem_range, Bool.not_eq_true']
    exact w.going
  have hat := List.all_eq_true.mp hfront i (List.mem_range.mpr hi)
  rw [hremoves] at hat
  simp only [Bool.not_true, Bool.false_or, Bool.and_eq_true, List.all_eq_true, List.mem_range,
    not_eq_true', decide_eq_true_eq] at hat
  obtain ⟨hstay, hlast⟩ := hat
  have hbehind := w.behind hstay
  obtain ⟨j, hj, hstart⟩ := w.started
  have hnum := hc.filesNum
  have hcap := hc.filesNum_lt
  have hloc : locator v (i - j) = locator c i := by
    unfold locator
    rw [hstart, slotAt_slotAt, Nat.add_sub_of_le hj]
  have hspanned : Spanned
      (dbSaveArchCtrl (removeFile v (locator c i)) (locator c i + 1) c.archivedEnd) := by
    rw [← hloc, ← w.ended]
    apply w.spanned.removeFirst
    · rw [hstart, w.ended, offset_slotAt_left hc.start_lt hc.end_lt (by omega)]
      omega
    · intro p hp
      have hge := hbehind p hp
      rw [hstart, offset_slotAt_left hc.start_lt (w.spanned.live_lt p hp) (by omega)]
      omega
    · omega
  have hsize : (dbSaveArchCtrl (removeFile v (locator c i)) (locator c i + 1)
      c.archivedEnd).currArchSize = c.currArchSize - removableSize a c (i + 1) := by
    show v.currArchSize - archGetCtrlRealSize (v.archCtrl (locator c i)) = _
    rw [w.size, w.ahead i (Nat.le_refl i) hi]
    simp only [removableSize, hrem, if_true]
    omega
  refine ⟨hspanned, hsize, fun hgo => ⟨hspanned, rfl, ?_, hsize, ?_, ?_, ?_⟩⟩
  · refine ⟨i + 1, Nat.le_refl _, ?_⟩
    rw [← slotAt_slotAt]
    exact (Nat.mod_eq_of_lt hlast).symm
  · intro k hk hlt
    have hne : locator c k ≠ locator c i := by
      intro he
      have := slotAt_inj hc.start_lt (by omega) (by omega) he
      omega
    exact (if_neg hne).trans (w.ahead k (by omega) hlt)
  · intro _ p hp
    have hp' := mem_filter.mp hp
    have hge := hbehind p hp'.1
    have hne : offset ctMaxArchNum c.archivedStart p.1 ≠ i := by
      intro he
      have hslot : locator c i = p.1 := by
        rw [← he]
        exact slotAt_offset hc.start_lt (w.spanned.live_lt p hp'.1)
      apply bne_iff_ne.mp hp'.2
      apply Prod.ext hslot.symm
      rw [hslot, w.spanned.live_slot p hp'.1]
    omega
  · intro k hk
    by_cases hki : k = i
    · rw [hki]
      exact hgo
    · exact w.going k (by omega)

end

/-- The rounds from the `i`-th entry on keep the catalogue spanned. -/
lemma Walk.rounds (hc : Spanned c) (hfront : cleansFront needed a c = true) (ts : Bool) (m i : Nat)
    (hm : i + m = archGetFilesNum c) (v : CleanLocals) (w : Walk needed a c i v.cat) :
    Spanned (cleanRounds needed ts a c.archivedEnd ((List.range' i m).map (locator c)) v).cat := by
  induction m generalizing i v with
  | zero => exact w.spanned
  | succ m ih =>
    have hi : i < archGetFilesNum c := by omega
    have hctrl := w.ahead i (Nat.le_refl i) hi
    rw [range'_succ, map_cons]
    simp only [cleanRounds, hctrl]
    split
    · exact w.spanned
    rename_i hneed
    have hneed := eq_false_iff.mpr hneed
    split
    · rename_i hzero
      apply ih (i + 1) (by omega)
      apply w.pass hc hi hneed
      simp [removable, hzero]
    rename_i hrec
    split
    · rename_i hcan
      apply ih (i + 1) (by omega)
      apply w.pass hc hi hneed
      simp only [not_eq_true'] at hcan
      simp [removable, hcan]
    · rename_i hcan
      simp only [not_eq_true', not_eq_false] at hcan
      have hrem : removable a c i = true := by simp [removable, hcan, hrec]
      split
      · exact w.spanned
      rename_i hdev
      have hdev := eq_false_iff.mpr hdev
      obtain ⟨hspanned, hsize, hnext⟩ := w.remove hc hfront hi hneed hrem hdev
      split
      · exact hspanned
      rename_i hsave
      split
      · exact hspanned
      · rename_i htarget
        rw [hsize] at htarget
        apply ih (i + 1) (by omega)
        apply hnext
        simp [endsAt, hneed, hdev, hsave, htarget]

end

lemma Spanned.cleaned {c} (h : Spanned c) {needed a} (hfront : cleansFront needed a c = true)
    (ts : Bool) :
    Spanned (cleanRounds needed ts a c.archivedEnd (spanSlots c) ⟨c, 0, false⟩).cat := by
  have hrounds := Walk.rounds h hfront ts (archGetFilesNum c) 0 (Nat.zero_add _) ⟨c, 0, false⟩
    (Walk.start h)
  rw [← range_eq_range'] at hrounds
  exact hrounds

/-! ## Runs -/

/-- A step that keeps the catalogue together: a recording gets a record id other
than `0`, and a cleaning removes from the front of the span only. -/
def keepsSpan (c : Catalogue) : CatAction → Bool
  | .record _ => recidLeft c
  | .realClean b a => cleansFront (archNeededByBackup b) a c
  | .cleanStandby a => cleansFront (fun _ => false) a c

lemma Spanned.step {dbs c t act} (h : Spanned c) (hok : keepsSpan c act = true)
    (hstep : catStep dbs c act = some t) : Spanned t := by
  cases act with
  | record => exact h.record hok hstep
  | realClean =>
    cases hstep
    exact h.cleaned hok true
  | cleanStandby =>
    cases hstep
    exact h.cleaned hok false

/-- In every run whose recordings get a record id and whose cleanings remove from
the front of the span, both bounds stay slots of the ring, every file
recorded and not removed is unchanged in its slot and inside the span, and
the lookup by reset id and asn finds it: what it returns has this reset id
and asn, and is the file itself when no other live file has them. -/
theorem archive_catalogue_keeps_live {dbs : Bool} {c : Catalogue}
    (h : ReachableBy (catStep dbs) Catalogue.Fresh (fun c act => keepsSpan c act = true) c) :
    c.archivedStart < ctMaxArchNum ∧ c.archivedEnd < ctMaxArchNum ∧
    ∀ p ∈ c.live, c.archCtrl p.1 = p.2 ∧ p.1 ∈ spanSlots c ∧
      ∃ q ∈ c.live, archGetArchivedLogInfo c p.2.rstId p.2.asn = some q.2 ∧
        q.2.rstId = p.2.rstId ∧ q.2.asn = p.2.asn ∧
        ((∀ r ∈ c.live, r.2.rstId = p.2.rstId → r.2.asn = p.2.asn → r = p) → q = p) := by
  have hc : Spanned c :=
    h.invariant (fun _ hc => Fresh.spanned hc) fun _ _ _ hok hc hstep => hc.step hok hstep
  refine ⟨hc.start_lt, hc.end_lt, fun p hp => ⟨hc.live_slot p hp, ?_, ?_⟩⟩
  · apply mem_map.mpr
    refine ⟨_, mem_range.mpr ?_, hc.locator_offset hp⟩
    rw [hc.filesNum]
    exact hc.live_span p hp
  · obtain ⟨q, hq, hfind, hrst, hasn⟩ := hc.lookup hp
    exact ⟨q, hq, hfind, hrst, hasn, fun huniq => huniq q hq hrst hasn⟩

/-- A catalogue before its first recording. -/
def emptyCatalogue : Catalogue where
  archCtrl _ := ⟨0, 0, 0, 0, 0, 0, 0, 0, 0, 0, "", 0, 0⟩
  archivedStart := 0
  archivedEnd := 0
  currArchSize := 0
  archivedRecid := 0
  lastArchivedLog := (0, 0)
  live := []

lemma emptyCatalogue_fresh : emptyCatalogue.Fresh := ⟨rfl, rfl, rfl, rfl⟩

/-- A file of one block with the given asn, recorded at the given time. -/
def logFile (asn : Nat) (now : Int) : ArchFile where
  name := "arch"
  head := ⟨asn, asn, 512, asn, 512, 0, asn, asn + 1⟩
  realSize := some 512
  now := now

/-- No backup runs. -/
def idleBackup : BakContext := ⟨true, false, false, false, 0, fun _ => false⟩

/-- Clean everything stamped up to `untilTime` and before reset id `1`, with no
failing device. -/
def cleanUntil (untilTime : Int) : CleanArgs where
  rcyPoint := ⟨1, 0, 0⟩
  backupRcy := ⟨1, 0, 0⟩
  targetSize := 0
  defn := ⟨false, false, untilTime⟩
  dataType := .dbstor
  removeFails _ := false
  saveFails _ := false

theorem archive_catalogue_keeps_live_three :
    ∃ c, ReachableBy (catStep true) Catalogue.Fresh (fun c act => keepsSpan c act = true) c ∧
      (c.live.map Prod.fst = [2, 1] ∧ c.archivedStart = 1) ∧
      c.archivedStart < ctMaxArchNum ∧ c.archivedEnd < ctMaxArchNum ∧
      ∀ p ∈ c.live, c.archCtrl p.1 = p.2 ∧ p.1 ∈ spanSlots c ∧
        ∃ q ∈ c.live, archGetArchivedLogInfo c p.2.rstId p.2.asn = some q.2 ∧
          q.2.rstId = p.2.rstId ∧ q.2.asn = p.2.asn ∧
          ((∀ r ∈ c.live, r.2.rstId = p.2.rstId → r.2.asn = p.2.asn → r = p) → q = p) := by
  obtain ⟨c, hrun, hshape⟩ := exists_of_runOk_map (catStep true) keepsSpan emptyCatalogue
    [.record (logFile 1 10), .record (logFile 2 20), .realClean idleBackup (cleanUntil 10),
      .record (logFile 3 30)]
    (fun c => (c.live.map fst, c.archivedStart)) ([2, 1], 1) (by decide +kernel)
  have hreach : ReachableBy (catStep true) Catalogue.Fresh
      (fun c act => keepsSpan c act = true) c := .of_runOk _ (.init emptyCatalogue_fresh) hrun
  exact ⟨c, hreach, mk.inj hshape, archive_catalogue_keeps_live hreach⟩

/-! ## How files get lost

Two runs leave the condition. In the first the ring is used up to its last
slot: cleaning that slot saves `CT_MAX_ARCH_NUM` as the start bound, the end
never meets it again, and a full turn of recordings later the span is empty
although every slot holds a live file. In the second the clock is set back
between two recordings, so that a cleaning by time removes the later file
and leaves the earlier one in front of the start bound. -/

lemma catStep_record_logFile {c} (asn : Nat) (now : Int)
    (hwait : (c.archivedEnd + 1) % ctMaxArchNum ≠ c.archivedStart) :
    catStep true c (.record (logFile asn now)) =
      some (archSaveArchinfo true { c with archivedRecid := uint32 (c.archivedRecid + 1) }
        (logFile asn now) 512 c.archivedStart c.archivedEnd
        ((c.archivedEnd + 1) % ctMaxArchNum)) := by
  simp [catStep, archNeedWaitClean, archRecordArchinfo, logFile, hwait]

/-- Recording one file and cleaning it moves both bounds on, the start bound also
past the last slot. -/
lemma record_clean_reachable {c n} (hn : n < ctMaxArchNum)
    (hc : Reachable (catStep true) Catalogue.Fresh c) (hstart : c.archivedStart = n)
    (hend : c.archivedEnd = n) (hid : c.archivedRecid = n) :
    ∃ t, Reachable (catStep true) Catalogue.Fresh t ∧ t.archivedStart = n + 1 ∧
      t.archivedEnd = (n + 1) % ctMaxArchNum ∧ t.archivedRecid = n + 1 := by
  have hcap : n < 10240 := hn
  have hrecord := catStep_record_logFile (c := c) n n (by
    unfold ctMaxArchNum
    omega)
  have hrecid : uint32 (c.archivedRecid + 1) = n + 1 := by
    unfold uint32
    omega
  have hnum : uint32 (((n + 1) % ctMaxArchNum : Nat) - (n : Int) + ctMaxArchNum) % ctMaxArchNum
      = 1 := by
    have hmod : (n + 1) % ctMaxArchNum = if n + 1 < ctMaxArchNum then n + 1 else 0 := by
      unfold ctMaxArchNum
      split <;> omega
    rw [hmod]
    unfold uint32 ctMaxArchNum
    split <;> omega
  generalize hu : archSaveArchinfo true { c with archivedRecid := uint32 (c.archivedRecid + 1) }
    (logFile n n) 512 c.archivedStart c.archivedEnd ((c.archivedEnd + 1) % ctMaxArchNum) = u
    at hrecord
  have hustart : u.archivedStart = n := by
    rw [← hu]
    exact hstart
  have huend : u.archivedEnd = (n + 1) % ctMaxArchNum := by
    rw [← hu, ← hend]
    rfl
  have hurecid : u.archivedRecid = n + 1 := by
    rw [← hu]
    exact hrecid
  have hslot : u.archCtrl n = archRecordArchCtrl true (c.archCtrl n) (n + 1) (logFile n n) 512 := by
    rw [← hu, ← hrecid]
    show (if n = c.archivedEnd then _ else _) = _
    rw [if_pos hend.symm, hend]
  have hloc : locator u 0 = n := by
    unfold locator
    rw [hustart]
    exact slotAt_zero hn
  have hfiles : archGetFilesNum u = 1 := by
    unfold archGetFilesNum
    rw [hustart, huend]
    exact hnum
  -- a cleaning of a span with one entry saves the slot after it as start bound
  have hclean : (archDoRealClean idleBackup (cleanUntil n) u).cat =
      dbSaveArchCtrl (removeFile u n) (n + 1) u.archivedEnd := by
    have hslots : spanSlots u = [n] := by
      simp [spanSlots, hfiles, range_succ, hloc]
    have hrecid : (u.archCtrl n).recid ≠ 0 := by
      rw [hslot]
      exact Nat.succ_ne_zero n
    have hcan : archCanBeCleaned (cleanUntil n) (u.archCtrl n) = true := by
      rw [hslot]
      simp [archCanBeCleaned, cleanUntil, checkLogPointFunc, archLogPointDbstor, archLogPoint,
        logPointFileLtCheck, archRecordArchCtrl, logFile]
    simp only [archDoRealClean, hslots, cleanRounds, archNeededByBackup, idleBackup, hrecid, hcan]
    simp [cleanUntil]
  have hreach : Reachable (catStep true) Catalogue.Fresh
      (archDoRealClean idleBackup (cleanUntil n) u).cat :=
    .step (.step hc trivial hrecord) trivial (a := .realClean idleBackup (cleanUntil n)) rfl
  refine ⟨_, hreach, ?_⟩
  rw [hclean]
  exact ⟨rfl, huend, hurecid⟩

/-- Recording and cleaning one file at a time takes the start bound to every
number up to `CT_MAX_ARCH_NUM` itself. -/
lemma archivedStart_reaches (n : Nat) (hn : n ≤ ctMaxArchNum) :
    ∃ c, Reachable (catStep true) Catalogue.Fresh c ∧ c.archivedStart = n ∧
      c.archivedEnd = n % ctMaxArchNum ∧ c.archivedRecid = n := by
  induction n with
  | zero => exact ⟨emptyCatalogue, .init emptyCatalogue_fresh, rfl, rfl, rfl⟩
  | succ n ih =>
    obtain ⟨c, hc, hstart, hend, hid⟩ := ih (by omega)
    rw [Nat.mod_eq_of_lt (by omega)] at hend
    exact record_clean_reachable (by omega) hc hstart hend hid

/-- With the start bound past the ring, recordings never wait. -/
lemma record_past_reachable (k : Nat) :
    ∃ c, Reachable (catStep true) Catalogue.Fresh c ∧ c.archivedStart = ctMaxArchNum ∧
      c.archivedEnd = k % ctMaxArchNum ∧ (0 < k → c.live ≠ []) := by
  induction k with
  | zero =>
    obtain ⟨c, hc, hstart, hend, -⟩ := archivedStart_reaches ctMaxArchNum (Nat.le_refl _)
    exact ⟨c, hc, hstart, hend, fun h => absurd h (Nat.lt_irrefl 0)⟩
  | succ k ih =>
    obtain ⟨c, hc, hstart, hend, -⟩ := ih
    have hrecord := catStep_record_logFile (c := c) k k (by
      rw [hstart]
      exact Nat.ne_of_lt (Nat.mod_lt _ ctMaxArchNum_pos))
    refine ⟨_, .step hc trivial hrecord, hstart, ?_, fun _ => cons_ne_nil _ _⟩
    show (c.archivedEnd + 1) % ctMaxArchNum = (k + 1) % ctMaxArchNum
    rw [hend, Nat.mod_add_mod]

/-- The catalogue loses live files: once the last slot has been cleaned the start
bound is `CT_MAX_ARCH_NUM` and a turn of the ring later no live file is
found; and a cleaning that leaves an earlier file behind moves the start
bound past it. -/
theorem archive_catalogue_loses_live :
    (∃ c, Reachable (catStep true) Catalogue.Fresh c ∧ c.archivedStart = ctMaxArchNum ∧
      ∃ p ∈ c.live, archGetArchivedLogInfo c p.2.rstId p.2.asn = none) ∧
    ∃ c, Reachable (catStep true) Catalogue.Fresh c ∧ c.archivedStart < ctMaxArchNum ∧
      ∃ p ∈ c.live, p.1 ∉ spanSlots c ∧ archGetArchivedLogInfo c p.2.rstId p.2.asn = none := by
  constructor
  · obtain ⟨c, hc, hstart, hend, hlive⟩ := record_past_reachable ctMaxArchNum
    obtain ⟨p, hp⟩ := exists_mem_of_ne_nil _ (hlive ctMaxArchNum_pos)
    have hnum : archGetFilesNum c = 0 := by
      unfold archGetFilesNum
      rw [hstart, hend]
      decide
    refine ⟨c, hc, hstart, p, hp, ?_⟩
    simp [archGetArchivedLogInfo, hnum]
  · obtain ⟨c, hrun, hshape⟩ := exists_of_run_map (catStep true) emptyCatalogue
      [.record (logFile 1 20), .record (logFile 2 10), .realClean idleBackup (cleanUntil 15)]
      (fun c => ((c.archivedStart, spanSlots c),
        c.live.map fun p => (p.1, p.2.rstId, p.2.asn), (archGetArchivedLogInfo c 0 1).isNone))
      ((2, []), [(0, 0, 1)], true) (by decide +kernel)
    simp only [mk.injEq, Option.isNone_iff_eq_none] at hshape
    obtain ⟨⟨hstart, hslots⟩, hlive, hfind⟩ := hshape
    have hreach : Reachable (catStep true) Catalogue.Fresh c :=
      .of_run _ (.init emptyCatalogue_fresh) hrun
    obtain ⟨p, hp, hkey⟩ := mem_map.mp (hlive ▸ mem_singleton.mpr rfl :
      ((0, 0, 1) : Nat × Nat × Nat) ∈ c.live.map fun p => (p.1, p.2.rstId, p.2.asn))
    simp only [mk.injEq] at hkey
    refine ⟨c, hreach, by rw [hstart]; decide, p, hp, ?_, ?_⟩
    · rw [hslots]
      exact not_mem_nil
    · rw [hkey.2.1, hkey.2.2]
      exact hfind

end Cantian.Archive
