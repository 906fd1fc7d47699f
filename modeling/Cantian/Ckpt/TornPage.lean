import Cantian.Ckpt.DoubleWrite

/-!
# Torn pages are repaired from the double-write district

The two states that matter after a crash are `Settled`, in which the control
file names an empty range and no datafile has been touched in the round, and
`Pending`, in which the range holds the copies of the round and each page of
the group is old, new or torn. Each stage of a round gives one of the two for
the files as they are, and one for the files as the next save would leave
them; recovery turns either into `Settled`.
-/

namespace Cantian.Ckpt

open Lib List Option Bool

/-! ## Groups -/

/-- The group of a round: each page once, undamaged, and not older than the page
that the datafile held. -/
structure GroupOk (before : PageId → Image) (group : List Image) : Prop where
  nonempty : group ≠ []
  size : group.length ≤ ctMaxCkptGroupSize
  nodup : (group.map Image.id).Nodup
  sound : ∀ img ∈ group, sound img = true
  newer : ∀ img ∈ group, Ckpt.sound (before img.id) = true → (before img.id).lsn ≤ img.lsn

variable {disk : PageId → Image}

lemma copyable_groupOk {pages} (h : copyable disk pages = true) : GroupOk disk pages := by
  simp only [copyable, Bool.and_eq_true, Bool.not_eq_true', decide_eq_true_eq, List.all_eq_true,
    Bool.or_eq_true] at h
  obtain ⟨⟨⟨hne, hlen⟩, hnd⟩, hall⟩ := h
  constructor
  case nonempty => simpa using hne
  case size => exact hlen
  case nodup => exact hnd
  case sound => exact fun img himg => (hall img himg).1
  case newer =>
    intro img himg hsound
    have h2 := (hall img himg).2
    simpa [hsound] using h2

variable {group : List Image}

variable {p : PageId}

lemma groupPage_mem {img} (h : groupPage group p = some img) : img ∈ group ∧ img.id = p := by
  refine ⟨mem_of_find?_eq_some h, ?_⟩
  simpa using find?_some h

lemma groupPage_cons (img : Image) (group : List Image) (p : PageId) :
    groupPage (img :: group) p = if img.id = p then some img else groupPage group p := by
  by_cases h : img.id = p <;> simp [groupPage, h]

lemma groupPage_eq_none (h : p ∉ group.map Image.id) : groupPage group p = none := by
  simp only [groupPage, find?_eq_none, beq_iff_eq]
  intro img himg hid
  exact h (mem_map.mpr ⟨img, himg, hid⟩)

/-! ## Recovery of one page and of a group -/

lemma ckptRecoverOne_of_sound {page org} (h : sound page = true) :
    ckptRecoverOne page org false =
      some (if sound org && decide (org.lsn ≥ page.lsn) then org else page) := by
  have hchecks := h
  simp only [sound, and_eq_true] at hchecks
  obtain ⟨⟨hpcn, -⟩, hver⟩ := hchecks
  by_cases horg : sound org = true <;> by_cases hlsn : org.lsn ≥ page.lsn <;>
    simp [ckptRecoverOne, h, hpcn, hver, horg, hlsn]

/-- What recovery leaves at a page. -/
def repaired (skipped : PageId → Bool) (group : List Image) (disk : PageId → Image)
    (p : PageId) : Image :=
  match groupPage group p with
  | none => disk p
  | some img =>
    if skipped p || (sound (disk p) && decide ((disk p).lsn ≥ img.lsn)) then disk p else img

/-- Each page of the group is repaired by itself, since it occurs only once. -/
lemma recoverLoop_eq_repaired (skipped : PageId → Bool) (disk : PageId → Image)
    (hnd : (group.map Image.id).Nodup) (hsound : ∀ img ∈ group, sound img = true) :
    recoverLoop skipped group disk = some (repaired skipped group disk) := by
  induction group generalizing disk with
  | nil => rfl
  | cons page pages ih =>
    rw [map_cons, nodup_cons] at hnd
    obtain ⟨hfresh, hnd⟩ := hnd
    have hpages : ∀ img ∈ pages, sound img = true := fun img h => hsound img (.tail _ h)
    have hnone := groupPage_eq_none hfresh
    rw [recoverLoop]
    split
    case isTrue hskip =>
      rw [ih disk hnd hpages]
      congr 1
      funext p
      by_cases hp : page.id = p
      · subst hp
        simp [repaired, groupPage_cons, hnone, hskip]
      · simp [repaired, groupPage_cons, hp]
    case isFalse hskip =>
      simp only [ckptRecoverOne_of_sound (hsound page (.head _)), ih _ hnd hpages]
      congr 1
      funext p
      by_cases hp : page.id = p
      · subst hp
        simp [repaired, groupPage_cons, hnone, hskip]
      · have hp' : ¬ p = page.id := fun h => hp h.symm
        simp [repaired, groupPage_cons, hp, hp']

/-! ## The files between rounds and within a round -/

/-- The control file names an empty range and the datafiles are as before. -/
structure Settled (nodeId : Nat) (st : Store) (before : PageId → Image) : Prop where
  empty : st.dwStart = st.dwEnd
  lower : dwDistrictBegin nodeId ≤ st.dwEnd
  upper : st.dwEnd ≤ dwDistrictEnd nodeId
  disk : st.disk = before

/-- A page during the writing of the group: it is as before if it has no copy, and
otherwise as before, the copy, or damaged. -/
def PageOk (before : PageId → Image) (copies : List Image) (disk : PageId → Image)
    (p : PageId) : Prop :=
  match groupPage copies p with
  | none => disk p = before p
  | some img => disk p = before p ∨ disk p = img ∨ sound (disk p) = false

/-- The range in the control file holds the copies of the round. -/
structure Pending (nodeId : Nat) (st : Store) (before : PageId → Image) (copies : List Image) :
    Prop where
  lower : dwDistrictBegin nodeId ≤ st.dwStart
  range : st.dwEnd = st.dwStart + copies.length
  upper : st.dwEnd ≤ dwDistrictEnd nodeId
  held : ∀ i, (h : i < copies.length) → st.district (st.dwStart + i) = copies[i]
  group : GroupOk before copies
  page : ∀ p, PageOk before copies st.disk p

section
variable {nodeId : Nat} {st : Store} {before : PageId → Image} {copies : List Image}

lemma Pending.read (h : Pending nodeId st before copies) :
    ckptReadDoublewritePages nodeId st = some copies := by
  have hlower := h.lower
  have hupper := h.upper
  have hlen : st.dwEnd - st.dwStart = copies.length := by rw [h.range]; omega
  have hmap : (List.range copies.length).map (fun i => st.district (st.dwStart + i)) = copies := by
    apply List.ext_getElem
    · simp
    · intro i _ hi
      simp [h.held i hi]
  rw [ckptReadDoublewritePages, if_neg (by omega), if_neg (by omega), hlen, hmap]

/-- Recovery of a pending round goes through and repairs each page. -/
lemma Pending.recover (skipped : PageId → Bool) (h : Pending nodeId st before copies) :
    ckptRecoverPartialWriteNode nodeId skipped st =
      some { st with disk := repaired skipped copies st.disk, dwStart := st.dwEnd } := by
  have hpos : 0 < copies.length := length_pos_iff.mpr h.group.nonempty
  have hne : ¬ st.dwStart = st.dwEnd := by rw [h.range]; omega
  rw [ckptRecoverPartialWriteNode, if_neg hne, h.read]
  simp only [ckptRecoverPages, recoverLoop_eq_repaired skipped st.disk h.group.nodup h.group.sound,
    map_some]

lemma Settled.recover (skipped : PageId → Bool) (h : Settled nodeId st before) :
    ckptRecoverPartialWriteNode nodeId skipped st = some st := by
  rw [ckptRecoverPartialWriteNode, if_pos h.empty]

/-- Writing some pages of the group, or tearing them, keeps the round pending. -/
lemma Pending.write (h : Pending nodeId st before copies) (hdisk : ∀ p, disk p = st.disk p ∨
      ∃ img, groupPage copies p = some img ∧ (disk p = img ∨ sound (disk p) = false)) :
    Pending nodeId { st with disk := disk } before copies := by
  refine { h with page := fun p => ?_ }
  have hp := h.page p
  rcases hdisk p with hsame | ⟨img, himg, hnew⟩
  · simpa [PageOk, hsame] using hp
  · simp only [PageOk, himg]
    exact .inr hnew

end

/-! ## Stages -/

/-- What holds at each stage of a round. -/
def StageOk (nodeId : Nat) (n : Node) : Prop :=
  match n.stage with
  | .idle => Settled nodeId n.store n.store.disk
  | .copied => Settled nodeId n.store n.before ∧ GroupOk n.before n.copies ∧ n.group = n.copies
  | .doubled =>
    Settled nodeId n.store n.before ∧ Pending nodeId (dtcSaveCtrl n) n.before n.copies ∧
      n.group = n.copies
  | .saved => Pending nodeId n.store n.before n.copies ∧ n.group = n.copies
  | .flushed => Pending nodeId n.store n.before n.copies
  | .advanced =>
    Pending nodeId n.store n.before n.copies ∧ Settled nodeId (dtcSaveCtrl n) n.store.disk
  | .down => Settled nodeId n.store n.before ∨ Pending nodeId n.store n.before n.copies

/-- The bounds in memory: the next group starts within the district, and the record of
the node follows the context. -/
structure BoundsOk (nodeId : Nat) (n : Node) : Prop where
  startLower : dwDistrictBegin nodeId ≤ n.dwCkptStart
  endLower : dwDistrictBegin nodeId ≤ n.dwCkptEnd
  endUpper : n.dwCkptEnd ≤ dwDistrictEnd nodeId
  nodeEnd : n.nodeDwEnd = n.dwCkptEnd

structure NodeOk (nodeId : Nat) (n : Node) : Prop where
  stage : StageOk nodeId n
  bounds : n.stage ≠ .down → BoundsOk nodeId n

section
variable {nodeId swapFileHead : Nat} {n n' : Node}

lemma Node.Fresh.nodeOk (h : n.Fresh nodeId) : NodeOk nodeId n := by
  have hbe : dwDistrictBegin nodeId ≤ dwDistrictEnd nodeId := Nat.le_add_right _ _
  constructor
  case stage =>
    simp only [StageOk, h.stage]
    have hend := h.ctrlEnd
    exact ⟨h.ctrlStart.trans h.ctrlEnd.symm, by omega, by omega, rfl⟩
  case bounds =>
    intro _
    have hstart := h.ckptStart
    have hend := h.ckptEnd
    exact ⟨by omega, by omega, by omega, h.nodeEnd.trans h.ckptEnd.symm⟩

/-- The writing of a group to the district never panics, and saving its bounds makes the
round pending. -/
lemma ckptDoubleWrite_spec (hlower : dwDistrictBegin nodeId ≤ n.dwCkptStart)
    (hset : Settled nodeId n.store n.before) (hgroup : GroupOk n.before n.copies)
    (hcopies : n.group = n.copies) :
    ∃ n', ckptDoubleWrite nodeId n = some n' ∧ NodeOk nodeId n' := by
  have hsize : n.group.length ≤ 8192 := by rw [hcopies]; exact hgroup.size
  have hend : dwDistrictEnd nodeId = dwDistrictBegin nodeId + 8192 := rfl
  simp only [ckptDoubleWrite]
  generalize hs : (if n.dwCkptStart + n.group.length > dwDistrictEnd nodeId
    then dwDistrictBegin nodeId else n.dwCkptStart) = start
  have hstart : dwDistrictBegin nodeId ≤ start ∧
      start + n.group.length ≤ dwDistrictEnd nodeId := by
    rw [← hs]
    split <;> omega
  rw [if_neg (by omega), if_neg (by omega)]
  refine ⟨_, rfl, ?_, ?_⟩
  · refine ⟨{ hset with }, ?_, hcopies⟩
    constructor
    case lower => exact hstart.1
    case range => simp [dtcSaveCtrl, hcopies]
    case upper => exact hstart.2
    case held =>
      intro i hi
      simp [dtcSaveCtrl, hcopies, hi]
    case group => exact hgroup
    case page =>
      intro p
      simp only [PageOk, dtcSaveCtrl, hset.disk]
      split <;> simp
  · intro _
    exact ⟨hstart.1, by simp only; omega, hstart.2, rfl⟩

lemma ckptStep_doubleWrite (hn : NodeOk nodeId n)
    (h : ckptStep nodeId swapFileHead n .doubleWrite = some n') : NodeOk nodeId n' := by
  obtain ⟨hstage, h⟩ := ite_none_right_eq_some.mp h
  have hs := hn.stage
  simp only [StageOk, hstage] at hs
  obtain ⟨hset, hgroup, hcopies⟩ := hs
  obtain ⟨m, hm, hok⟩ :=
    ckptDoubleWrite_spec (hn.bounds (by simp [hstage])).startLower hset hgroup hcopies
  cases hm.symm.trans h
  exact hok

/-- The writer leaves the copy of a page or, for a punch page, a hole. -/
lemma written_cases (img : Image) : written img = img ∨ sound (written img) = false := by
  by_cases hp : img.punch = true
  · exact .inr (by simp [written, hp, sound_hole])
  · exact .inl (by simp [written, hp])

lemma ckptStep_flush (hn : NodeOk nodeId n) (h : ckptStep nodeId swapFileHead n .flush = some n') :
    NodeOk nodeId n' := by
  obtain ⟨hstage, ⟨⟩⟩ := ite_none_right_eq_some.mp h
  have hs := hn.stage
  simp only [StageOk, hstage] at hs
  obtain ⟨hpend, hcopies⟩ := hs
  refine ⟨?_, ?_⟩
  · show Pending nodeId { n.store with disk := ckptFlushPages n.group n.store.disk } n.before
      n.copies
    apply hpend.write
    intro p
    rw [hcopies, ckptFlushPages]
    split
    case h_1 => exact .inl rfl
    case h_2 img himg => exact .inr ⟨img, himg, written_cases img⟩
  · exact fun _ => { hn.bounds (by simp [hstage]) with }

/-! ## Crashes and recovery -/

/-- A write cut by the crash leaves the old page, the copy or a damaged page. -/
lemma Pending.cut {st before copies} (h : Pending nodeId st before copies) (fate : PageId → Fate) :
    Pending nodeId { st with
      disk := fun p =>
        match groupPage copies p with
        | none => st.disk p
        | some img => (fate p).apply (st.disk p) (written img) } before copies := by
  apply h.write
  intro p
  split
  case h_1 => exact .inl rfl
  case h_2 img himg =>
    cases fate p with
    | kept => exact .inl rfl
    | written => exact .inr ⟨img, himg, written_cases img⟩
    | torn t => exact .inr ⟨img, himg, .inr t.property⟩

section
variable (hn : NodeOk nodeId n)
include hn

/-- The files after a crash are settled or pending, for the round that was cut or, if it
was over, for the files themselves. -/
lemma NodeOk.crashStore (hup : n.stage ≠ .down) (fate : PageId → Fate) (slots : Nat → Option Image)
    (ctrlSaved : Bool) :
    if roundOver n ctrlSaved = true then
      Settled nodeId (crashStore n fate slots ctrlSaved) (crashStore n fate slots ctrlSaved).disk
    else
      Settled nodeId (crashStore n fate slots ctrlSaved) n.before ∨
        Pending nodeId (crashStore n fate slots ctrlSaved) n.before n.copies := by
  have hs := hn.stage
  cases hstage : n.stage <;> simp only [StageOk, hstage] at hs <;>
    simp only [Ckpt.crashStore, roundOver, hstage]
  case idle => exact hs
  case copied => exact .inl ⟨hs.1.empty, hs.1.lower, hs.1.upper, hs.1.disk⟩
  case doubled =>
    cases ctrlSaved with
    | false => exact .inl hs.1
    | true => exact .inr hs.2.1
  case saved =>
    rw [hs.2]
    exact .inr (hs.1.cut fate)
  case flushed => exact .inr hs
  case advanced =>
    cases ctrlSaved with
    | false => exact .inr hs.1
    | true => exact hs.2
  case down => exact absurd hstage hup

lemma ckptStep_crash {fate slots ctrlSaved}
    (h : ckptStep nodeId swapFileHead n (.crash fate slots ctrlSaved) = some n') :
    NodeOk nodeId n' := by
  simp only [ckptStep] at h
  split at h
  case isTrue => cases h
  rename_i hup
  have hcrash := hn.crashStore hup fate slots ctrlSaved
  split at h
  case isTrue hover =>
    rw [if_pos hover] at hcrash
    cases h
    exact ⟨.inl hcrash, fun hne => absurd rfl hne⟩
  case isFalse hover =>
    rw [if_neg hover] at hcrash
    cases h
    exact ⟨hcrash, fun hne => absurd rfl hne⟩

lemma ckptStep_recover {offline} (h : ckptStep nodeId swapFileHead n (.recover offline) = some n') :
    NodeOk nodeId n' := by
  obtain ⟨hstage, h⟩ := ite_none_right_eq_some.mp h
  have hs := hn.stage
  simp only [StageOk, hstage] at hs
  obtain ⟨store, hrec, hset⟩ : ∃ store,
      ckptRecoverPartialWriteNode nodeId (recoverSkips swapFileHead offline) n.store
        = some store ∧ Settled nodeId store store.disk := by
    rcases hs with hset | hpend
    · exact ⟨_, hset.recover _, hset.empty, hset.lower, hset.upper, rfl⟩
    · have hlower := hpend.lower
      have hrange := hpend.range
      exact ⟨_, hpend.recover _, rfl, by simp only; omega, hpend.upper, rfl⟩
  rw [hrec] at h
  cases h
  refine ⟨hset, ?_⟩
  intro _
  have hempty := hset.empty
  have hlower := hset.lower
  have hupper := hset.upper
  exact ⟨by simp only; omega, by simp only; omega, by simp only; omega, hempty.symm⟩

/-- A crash of the recovery itself leaves the round pending. -/
lemma ckptStep_recoverCut {offline fate}
    (h : ckptStep nodeId swapFileHead n (.recoverCut offline fate) = some n') :
    NodeOk nodeId n' := by
  obtain ⟨hstage, h⟩ := ite_none_right_eq_some.mp h
  have hs := hn.stage
  simp only [StageOk, hstage] at hs
  refine ⟨?_, ?_⟩
  · rcases hs with hset | hpend
    · rw [hset.recover] at h
      cases h
      simp only [StageOk, hstage]
      exact .inl { hset with disk := by simpa using hset.disk }
    rw [hpend.recover] at h
    cases h
    simp only [StageOk, hstage]
    right
    apply hpend.write
    intro p
    by_cases hsame : repaired (recoverSkips swapFileHead offline) n.copies n.store.disk p
        = n.store.disk p
    · exact .inl (by simp [hsame])
    obtain ⟨img, himg, hnew⟩ : ∃ img, groupPage n.copies p = some img ∧
        repaired (recoverSkips swapFileHead offline) n.copies n.store.disk p = img := by
      simp only [repaired] at hsame ⊢
      split at hsame
      case h_1 => exact absurd rfl hsame
      case h_2 img himg =>
        split at hsame
        case isTrue => exact absurd rfl hsame
        case isFalse hno => exact ⟨img, himg, by simp only [if_neg hno]⟩
    simp only [if_neg hsame]
    cases fate p with
    | kept => exact .inl rfl
    | written => exact .inr ⟨img, himg, .inl hnew⟩
    | torn t => exact .inr ⟨img, himg, .inr t.property⟩
  · intro hup
    obtain ⟨store, -, rfl⟩ := map_eq_some_iff.mp h
    exact absurd hstage hup

lemma ckptStep_nodeOk {a} (h : ckptStep nodeId swapFileHead n a = some n') : NodeOk nodeId n' := by
  have hs := hn.stage
  cases a with
  | copy =>
    obtain ⟨⟨hstage, hcopy⟩, ⟨⟩⟩ := ite_none_right_eq_some.mp h
    simp only [StageOk, hstage] at hs
    exact ⟨⟨hs, copyable_groupOk hcopy, rfl⟩, fun _ => { hn.bounds (by simp [hstage]) with }⟩
  | doubleWrite => exact ckptStep_doubleWrite hn h
  | save =>
    obtain ⟨hstage, ⟨⟩⟩ := ite_none_right_eq_some.mp h
    simp only [StageOk, hstage] at hs
    exact ⟨⟨hs.2.1, hs.2.2⟩, fun _ => { hn.bounds (by simp [hstage]) with }⟩
  | flush => exact ckptStep_flush hn h
  | advance =>
    obtain ⟨hstage, ⟨⟩⟩ := ite_none_right_eq_some.mp h
    simp only [StageOk, hstage] at hs
    have hb := hn.bounds (by simp [hstage])
    refine ⟨⟨hs, hb.nodeEnd.symm, ?_, ?_, rfl⟩, fun _ => { hb with startLower := hb.endLower }⟩
    · exact hb.nodeEnd ▸ hb.endLower
    · exact hb.nodeEnd ▸ hb.endUpper
  | saveEnd =>
    obtain ⟨hstage, ⟨⟩⟩ := ite_none_right_eq_some.mp h
    simp only [StageOk, hstage] at hs
    exact ⟨hs.2, fun _ => { hn.bounds (by simp [hstage]) with }⟩
  | crash => exact ckptStep_crash hn h
  | recover => exact ckptStep_recover hn h
  | recoverCut => exact ckptStep_recoverCut hn h

end

section
variable (h : Reachable (ckptStep nodeId swapFileHead) (Node.Fresh nodeId) n)
include h

lemma nodeOk_of_reachable : NodeOk nodeId n :=
  h.invariant (fun _ hf => hf.nodeOk) fun _ _ _ _ hn hstep => ckptStep_nodeOk hn hstep

/-- In every run, whatever crashes it has, the group fits into the double-write district:
`ckpt_double_write` does not panic. -/
theorem double_write_never_panics (hstage : n.stage = .copied) :
    (ckptDoubleWrite nodeId n).isSome = true := by
  have hn := nodeOk_of_reachable h
  have hs := hn.stage
  simp only [StageOk, hstage] at hs
  obtain ⟨m, hm, -⟩ :=
    ckptDoubleWrite_spec (hn.bounds (by simp [hstage])).startLower hs.1 hs.2.1 hs.2.2
  rw [hm]
  rfl

end

/-! ## What recovery leaves -/

/-- A page that recovery is done with: the old page or its copy, not damaged, not older. -/
structure Repaired (n : Node) (disk : PageId → Image) (p : PageId) : Prop where
  content : disk p = n.before p ∨ groupPage n.copies p = some (disk p)
  untorn : sound (n.before p) = true → sound (disk p) = true
  newer : sound (n.before p) = true → (n.before p).lsn ≤ (disk p).lsn

lemma Repaired.of_before (h : disk p = n.before p) : Repaired n disk p :=
  ⟨.inl h, fun hs => h ▸ hs, fun _ => Nat.le_of_eq (congrArg Image.lsn h.symm)⟩

lemma Pending.repaired {skipped} (h : Pending nodeId n.store n.before n.copies)
    (hp : skipped p = false) : Repaired n (Ckpt.repaired skipped n.copies n.store.disk) p := by
  have hpage := h.page p
  simp only [PageOk] at hpage
  cases hg : groupPage n.copies p with
  | none =>
    simp only [hg] at hpage
    exact .of_before (by simp [Ckpt.repaired, hg, hpage])
  | some img =>
    simp only [hg] at hpage
    obtain ⟨himg, hid⟩ := groupPage_mem hg
    have hsound := h.group.sound img himg
    have hnewer := h.group.newer img himg
    rw [hid] at hnewer
    by_cases hkeep : sound (n.store.disk p) = true ∧ (n.store.disk p).lsn ≥ img.lsn
    · have heq : Ckpt.repaired skipped n.copies n.store.disk p = n.store.disk p := by
        simp [Ckpt.repaired, hg, hkeep]
      constructor
      case content =>
        rw [heq, hg]
        rcases hpage with hold | hnew | htorn
        · exact .inl hold
        · exact .inr (congrArg some hnew.symm)
        · simp [htorn] at hkeep
      case untorn => intro _; rw [heq]; exact hkeep.1
      case newer =>
        intro hs
        rw [heq]
        exact Nat.le_trans (hnewer hs) hkeep.2
    · have heq : Ckpt.repaired skipped n.copies n.store.disk p = img := by
        simp only [Ckpt.repaired, hg, hp, Bool.false_or]
        rw [if_neg]
        simpa using hkeep
      constructor
      case content => rw [heq, hg]; exact .inr rfl
      case untorn => intro _; rw [heq]; exact hsound
      case newer => intro hs; rw [heq]; exact hnewer hs

/-- After every crash in every run recovery goes through. Each page that it does not pass
over is the page from before the round or the copy taken in it, undamaged and
not older; the pages that it passes over stay as the crash left them. -/
theorem double_write_repairs_torn_pages
    (h : Reachable (ckptStep nodeId swapFileHead) (Node.Fresh nodeId) n) (hdown : n.stage = .down)
    (offline : Nat → Bool) :
    ∃ st, ckptRecoverPartialWriteNode nodeId (recoverSkips swapFileHead offline) n.store = some st ∧
      ∀ p, (recoverSkips swapFileHead offline p = false → Repaired n st.disk p) ∧
        (recoverSkips swapFileHead offline p = true → st.disk p = n.store.disk p) := by
  have hs := (nodeOk_of_reachable h).stage
  simp only [StageOk, hdown] at hs
  rcases hs with hset | hpend
  · refine ⟨n.store, hset.recover _, ?_⟩
    exact fun p => ⟨fun _ => .of_before (congrFun hset.disk p), fun _ => rfl⟩
  · refine ⟨_, hpend.recover _, ?_⟩
    intro p
    refine ⟨fun hp => hpend.repaired hp, ?_⟩
    intro hp
    simp only [repaired, hp, Bool.true_or, if_true]
    split <;> rfl

end

/-! ## A torn page, and a torn page of the swap space -/

/-- A page with a checksum that holds. -/
def goodPage (p : PageId) (lsn body : Nat) : Image := ⟨p, lsn, body, lsn, lsn, 1, true, false⟩

/-- A page of which only the head has been written. -/
def tornPage (p : PageId) (lsn : Nat) : { img : Image // sound img = false } :=
  ⟨⟨p, lsn, 0, lsn, lsn + 1, 1, false, false⟩, by simp [sound, checkPagePcn]⟩

/-- Node 0 after the creation of the database. -/
def freshNode : Node where
  store :=
    { disk := fun p => goodPage p 1 0
      district := fun _ => hole
      dwStart := 4
      dwEnd := 4 }
  stage := .idle
  group := []
  dwCkptStart := 4
  dwCkptEnd := 4
  nodeDwStart := 4
  nodeDwEnd := 4
  before := fun p => goodPage p 1 0
  copies := []

lemma freshNode_fresh : freshNode.Fresh 0 := ⟨rfl, rfl, rfl, rfl, rfl, rfl, rfl⟩

/-- A round with one page, cut while the page is written. -/
def cutRound (p : PageId) : List CkptAction :=
  [.copy [goodPage p 7 5], .doubleWrite, .save,
    .crash (fun q => .torn (tornPage q 7)) (fun _ => none) false]

/-- What a test looks at: the stage, the page on disk, the page before the round, and the
copies. -/
def look (p : PageId) (n : Node) : (Stage × Image) × Image × List Image :=
  ((n.stage, n.store.disk p), n.before p, n.copies)

theorem double_write_repairs_cut_round :
    ∃ n, Reachable (ckptStep 0 2) (Node.Fresh 0) n ∧ n.stage = .down ∧
      sound (n.store.disk ⟨5, 3⟩) = false ∧
      ∃ st, ckptRecoverPartialWriteNode 0 (recoverSkips 2 fun _ => false) n.store = some st ∧
        ∀ p, (recoverSkips 2 (fun _ => false) p = false → Repaired n st.disk p) ∧
          (recoverSkips 2 (fun _ => false) p = true → st.disk p = n.store.disk p) := by
  obtain ⟨n, hrun, hlook⟩ := exists_of_run_map (ckptStep 0 2) freshNode (cutRound ⟨5, 3⟩)
    (look ⟨5, 3⟩) ((.down, (tornPage ⟨5, 3⟩ 7).val), goodPage ⟨5, 3⟩ 1 0, [goodPage ⟨5, 3⟩ 7 5])
    (by decide +kernel)
  have hreach : Reachable (ckptStep 0 2) (Node.Fresh 0) n :=
    .of_run _ (.init freshNode_fresh) hrun
  simp only [look, Prod.mk.injEq] at hlook
  obtain ⟨⟨hstage, hdisk⟩, -, -⟩ := hlook
  exact ⟨n, hreach, hstage, hdisk ▸ (tornPage ⟨5, 3⟩ 7).property,
    double_write_repairs_torn_pages hreach hstage _⟩

/-- The page is in the first file of the swap space, which recovery passes over: it stays
torn, and it is neither the old page nor the copy. -/
theorem double_write_leaves_swap_page_torn :
    ∃ n st, Reachable (ckptStep 0 2) (Node.Fresh 0) n ∧ n.stage = .down ∧
      ckptRecoverPartialWriteNode 0 (recoverSkips 2 fun _ => false) n.store = some st ∧
      sound (n.before ⟨2, 0⟩) = true ∧ sound (st.disk ⟨2, 0⟩) = false ∧
      st.disk ⟨2, 0⟩ ≠ n.before ⟨2, 0⟩ ∧ st.disk ⟨2, 0⟩ ∉ n.copies := by
  obtain ⟨n, hrun, hlook⟩ := exists_of_run_map (ckptStep 0 2) freshNode (cutRound ⟨2, 0⟩)
    (fun n => (look ⟨2, 0⟩ n,
      (ckptRecoverPartialWriteNode 0 (recoverSkips 2 fun _ => false) n.store).map
        fun st => st.disk ⟨2, 0⟩))
    (((.down, (tornPage ⟨2, 0⟩ 7).val), goodPage ⟨2, 0⟩ 1 0, [goodPage ⟨2, 0⟩ 7 5]),
      some (tornPage ⟨2, 0⟩ 7).val)
    (by decide +kernel)
  simp only [look, Prod.mk.injEq] at hlook
  obtain ⟨⟨⟨hstage, -⟩, hbefore, hcopies⟩, hrec⟩ := hlook
  obtain ⟨st, hst, hdisk⟩ := map_eq_some_iff.mp hrec
  refine ⟨n, st, .of_run _ (.init freshNode_fresh) hrun, hstage, hst, ?_⟩
  rw [hbefore, hdisk, hcopies]
  decide

theorem double_write_after_crash : ∃ n, Reachable (ckptStep 0 2) (Node.Fresh 0) n ∧
    n.stage = .copied ∧ (ckptDoubleWrite 0 n).isSome = true := by
  obtain ⟨n, hrun, hstage⟩ := exists_of_run_map (ckptStep 0 2) freshNode
    (cutRound ⟨5, 3⟩ ++ [.recover fun _ => false, .copy [goodPage ⟨5, 4⟩ 8 6]]) Node.stage .copied
    (by decide +kernel)
  have hreach := Reachable.of_run _ (.init freshNode_fresh) hrun
  exact ⟨n, hreach, hstage, double_write_never_panics hreach hstage⟩

end Cantian.Ckpt
