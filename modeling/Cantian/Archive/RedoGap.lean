import Cantian.Archive.RedoFlow

/-!
# Archived redo has no gap

The copy by the storage and the making of an archive file, and with them
the result for whole runs: unless one of the three failures occurs that the
record does not survive, the recorded files hold the log without a gap, and
nothing is recycled that is not archived and behind the recovery point.
-/

namespace Cantian.Archive.Redo

open Lib List Option

variable {c : Config} {p p' : Proc}

/-! ## Copying -/

lemma ProcOk.copy {v n} (hp : ProcOk c p) (hst : p.stage = .copying v) :
    ProcOk c (copyTurn c p v n) := by
  obtain ⟨htmp, hquiet, hstart⟩ := hp.stageAt hst
  simp only [copyTurn, hstart]
  split
  case isTrue =>
    exact ⟨hp.record.setStart _, ⟨htmp.1, htmp.2.1, by simp⟩, hquiet, rfl⟩
  case isFalse hne =>
    obtain ⟨hseg, hlo, hhi⟩ := readBatches_spec hp.record.sorted hne
    have hadv := hp.record.advance htmp hlo hhi
    rw [← hseg] at hadv
    have hsome : (writeTmp c p p.record.offset
        (bytesOf (readBatches p.log (p.record.curLsn + 1) n))).isSome = true := by
      simpa [writeTmp] using htmp.1
    have hoff := le_trans htmp.2.1
      (Nat.le_add_right _ (redoSize (readBatches p.log (p.record.curLsn + 1) n)))
    split
    case isTrue => exact ⟨hadv.setStart _, ⟨hsome, hoff, by simp⟩, hquiet, rfl⟩
    case isFalse => exact ⟨hadv, ⟨hsome, hoff, htmp.2.2⟩, hquiet, rfl⟩

/-! ## The archive file -/

lemma lastRecorded_concat (files : List ArchFile) (f : ArchFile) :
    lastRecorded (files ++ [f]) = f.lastLsn := by
  simp [lastRecorded]

variable {files : List ArchFile}

/-- A file appended to its reset id continues the numbers and the LSNs there. -/
lemma NoGap.record {log f} (h : NoGap log files) (hlsn : f.firstLsn < f.lastLsn)
    (hcontent : f.content = bytesOf (redo log f.firstLsn f.lastLsn))
    (hlast : ∀ g, (files.filter fun g => g.rstId == f.rstId).getLast? = some g →
      f.asn = g.asn + 1 ∧ f.firstLsn = g.lastLsn) : NoGap log (files ++ [f]) := by
  constructor
  case linked =>
    intro rstId
    rw [filter_append]
    by_cases hrst : f.rstId = rstId
    · subst hrst
      rw [isChain_append]
      refine ⟨h.linked _, by simp, ?_⟩
      intro g hg
      simpa using hlast g hg
    · simpa [hrst] using h.linked rstId
  case content =>
    exact forall_mem_append.mpr ⟨h.content, forall_mem_singleton.mpr ⟨hlsn, hcontent⟩⟩

lemma archDbstorUpdateProgress_spec {r logRstId} (hle : r.rstId ≤ logRstId)
    (holder : ∀ f ∈ files, f.rstId ≤ r.rstId)
    (hnext : ∀ f, (files.filter fun f => f.rstId == r.rstId).getLast? = some f →
      r.asn = f.asn + 1 ∧ f.lastLsn = r.endLsn) :
    (archDbstorUpdateProgress logRstId r).rstId = logRstId ∧
      ∀ f, (files.filter fun f => f.rstId == logRstId).getLast? = some f →
        (archDbstorUpdateProgress logRstId r).asn = f.asn + 1 ∧ r.endLsn = f.lastLsn := by
  rw [archDbstorUpdateProgress]
  split
  case isTrue hlt =>
    refine ⟨rfl, ?_⟩
    -- no file has the new reset id yet
    have hnone : (files.filter fun f => f.rstId == logRstId) = [] := by
      rw [filter_eq_nil_iff]
      intro f hf
      have := holder f hf
      simp
      omega
    rw [hnone]
    intro f hf
    cases hf
  case isFalse hge =>
    have heq : r.rstId = logRstId := by omega
    refine ⟨heq, ?_⟩
    rw [← heq]
    exact fun f hf => ⟨(hnext f hf).1, (hnext f hf).2.symm⟩

/-- The recorded file is made of the temporary file, and the record starts anew. -/
lemma RecordInv.generate {log logRstId r tmp recycles}
    (h : RecordInv c log logRstId r (some tmp) files recycles) (hstart : r.startLsn = some r.endLsn)
    (hne : r.endLsn ≠ r.curLsn) :
    let r' := archDbstorUpdateProgress logRstId r
    RecordInv c log logRstId
      { r' with offset := c.headSize, asn := r'.asn + 1, endLsn := r'.curLsn } none
      (files ++ [archFile c logRstId r' tmp]) recycles := by
  obtain ⟨hrst, hnext⟩ := archDbstorUpdateProgress_spec h.rstId h.older h.nextAsn
  obtain ⟨rst, asn, hupd⟩ : ∃ rst asn,
      archDbstorUpdateProgress logRstId r = { r with rstId := rst, asn := asn } := by
    unfold archDbstorUpdateProgress
    split <;> exact ⟨_, _, rfl⟩
  rw [hupd] at hrst hnext ⊢
  have hholds := h.tmp tmp rfl
  intro r'
  have hfirst : (archFile c logRstId r' tmp).firstLsn = r.endLsn := by
    simp [archFile, r', hstart]
  have hlast : (archFile c logRstId r' tmp).lastLsn = r.curLsn := rfl
  have hcontent : (archFile c logRstId r' tmp).content = bytesOf (redo log r.endLsn r.curLsn) :=
    hholds.bytes
  exact
  { sorted := h.sorted
    noGap := by
      apply h.noGap.record
      · have := h.endCur
        omega
      · rw [hcontent, hfirst, hlast]
      · intro g hg
        exact ⟨(hnext g hg).1, hfirst.trans (hnext g hg).2⟩
    filesBound := forall_mem_append.mpr ⟨h.filesBound, forall_mem_singleton.mpr h.curBound⟩
    atEnd := by rw [lastRecorded_concat]; rfl
    endCur := le_refl _
    curBound := h.curBound
    fresh := fun _ => rfl
    offset := .inr (le_refl _)
    tmp := nofun
    gone := fun _ => ⟨rfl, Nat.sub_self _⟩
    rstId := le_of_eq hrst
    older := by
      rw [hrst]
      refine forall_mem_append.mpr ⟨fun f hf => ?_, forall_mem_singleton.mpr (le_refl _)⟩
      exact le_trans (h.older f hf) h.rstId
    nextAsn := by
      intro f hf
      have hown : (archFile c logRstId r' tmp).rstId = r'.rstId := hrst.symm
      simp only [filter_append, filter_cons, hown, beq_self_eq_true, if_true,
        filter_nil, getLast?_append, getLast?_singleton, some_or, some.injEq] at hf
      subst hf
      exact ⟨rfl, rfl⟩
    recycles := h.recycles }

lemma generateArchFile_procOk {f} (hp : ProcOk c p) (hst : p.stage = .written)
    (hsize : f.sizeFails = false) (h : generateArchFile c p f = some p') : ProcOk c p' := by
  have hs := hp.stageAt hst
  obtain ⟨-, hquiet, hstart⟩ := hs
  have hfail : ProcOk c (failArchive p) := ⟨hp.record, hquiet⟩
  simp only [generateArchFile] at h
  split at h
  case isTrue =>
    cases h
    exact hfail
  case isFalse hne =>
    split at h
    case h_1 =>
      cases h
      exact hfail
    case h_2 tmp htmp =>
      have hr := hp.record
      rw [RecordOk, htmp] at hr
      split at h
      case isTrue =>
        cases h
        exact hfail
      case isFalse =>
        split at h
        case isTrue =>
          cases h
          exact hfail
        case isFalse =>
          split at h
          case isTrue => cases h
          case isFalse =>
            rw [hsize, if_neg (by simp)] at h
            cases h
            exact ⟨(hr.generate hstart hne).recycle _, hquiet⟩

lemma ProcOk.finish {f} (hp : ProcOk c p) (hst : p.stage = .written) (hsize : f.sizeFails = false)
    (h : endArchive c p f = some p') : ProcOk c p' := by
  have hs := hp.stageAt hst
  rw [endArchive] at h
  split at h
  case isTrue =>
    cases h
    exact ⟨hp.record, hs.2.1⟩
  case isFalse =>
    split at h
    case isTrue =>
      cases h
      exact ⟨hp.record, hs.2.1⟩
    case isFalse => exact generateArchFile_procOk hp hst hsize h

/-! ## Runs -/

/-- The failures that the record survives: a temporary file gets lost only between two
calls and with nothing in it that is not recorded, the size of a renamed
file can be read, and a call is not given up after a failed write with one
buffer waiting or the writing thread at work. -/
def survives (p : Proc) : Action → Bool
  | .lose => p.stage == .idle && p.record.curLsn == p.record.endLsn
  | .finish f => !f.sizeFails
  | .finishWait => endsEven p
  | _ => true

lemma archStep_procOk {a} (hp : ProcOk c p) (hok : survives p a = true)
    (h : archStep c p a = some p') : ProcOk c p' := by
  cases a <;> simp only [archStep] at h
  case append =>
    obtain ⟨hg, ⟨⟩⟩ := ite_none_right_eq_some.mp h
    exact hp.append hg.1
  case resetLogs =>
    cases h
    exact ⟨{ hp.record with rstId := Nat.le_succ_of_le hp.record.rstId }, hp.stage⟩
  case setRcyPoint =>
    cases h
    exact ⟨hp.record, hp.stage⟩
  case recycle =>
    cases h
    exact ⟨hp.record.recycle _, hp.stage⟩
  case lose =>
    simp only [survives, Bool.and_eq_true, beq_iff_eq] at hok
    cases h
    refine ⟨hp.record.lose hok.2, ?_⟩
    have hs := hp.stage
    simp only [StageOk, hok.1] at hs ⊢
    exact hs
  -- every other step is made at one place of its thread only
  case start =>
    split at h <;> cases h
    exact hp.start ‹_›
  case read =>
    split at h
    · obtain ⟨hput, ⟨⟩⟩ := ite_none_right_eq_some.mp h
      exact hp.read ‹_› hput
    · cases h
  case readFails | giveUp =>
    split at h
    · obtain ⟨-, ⟨⟩⟩ := ite_none_right_eq_some.mp h
      have hs := hp.stageAt ‹_›
      exact ⟨hp.record, hs.1, hs.2.1⟩
    · cases h
  case check =>
    split at h <;> cases h
    exact hp.check ‹_›
  case finishWait =>
    split at h
    · obtain ⟨hwait, ⟨⟩⟩ := ite_none_right_eq_some.mp h
      exact hp.finishWait hok ‹_› hwait
    · cases h
  case writeStart =>
    split at h
    · obtain ⟨-, ⟨⟩⟩ := ite_none_right_eq_some.mp h
      exact hp.writeStart ‹_›
    · cases h
  case writeDone =>
    split at h <;> cases h
    exact hp.writeDone ‹_›
  case writeFails =>
    split at h <;> cases h
    exact hp.writeFails ‹_› _
  case copy =>
    split at h <;> cases h
    exact hp.copy ‹_›
  case copyFails =>
    split at h <;> cases h
    have hs := hp.stageAt ‹_›
    exact ⟨hp.record.write_garbage _, hs.2.1⟩
  case finish =>
    simp only [survives, Bool.not_eq_true'] at hok
    split at h
    · exact hp.finish ‹_› hok h
    · cases h

/-- In every run of the archive process in which only such failures occur, the recorded
files have no gap, and what is recycled is archived and behind the recovery
point. -/
theorem archived_redo_has_no_gap
    (h : ReachableBy (archStep c) Proc.Fresh (fun p a => survives p a = true) p) :
    NoGap p.log p.files ∧ ∀ r ∈ p.recycles, r.Safe := by
  have hp : ProcOk c p :=
    h.invariant (fun _ hf => hf.procOk) fun _ _ _ hok hp hstep => archStep_procOk hp hok hstep
  exact ⟨hp.record.noGap, hp.record.recycles⟩

/-! ## Runs with and without a gap -/

/-- A process with an empty log and an empty catalogue. -/
def freshProc : Proc where
  log := []
  logRstId := 1
  rcyPoint := 0
  record := ⟨1, 1, none, 0, 0, 0⟩
  tmpFile := none
  rwBuf := .empty
  inFlight := none
  archExecute := false
  writeFailed := false
  needFileArchive := false
  stage := .idle
  files := []
  recycles := []

lemma freshProc_fresh : freshProc.Fresh := by
  constructor
  case sorted => exact List.Pairwise.nil
  case noGap => exact ⟨fun _ => .nil, nofun⟩
  case rwBuf => exact DoubleBuffer.holds_empty
  case nextAsn => exact nofun
  case bound => exact nofun
  case older => exact nofun
  all_goals rfl

def smallConfig : Config := ⟨2, 100, false⟩

def noFaults : EndFaults := ⟨false, false, false, false, false⟩

/-- A call that reads one batch, the last one of the log, and writes it. -/
def oneBatch (force : Bool) : List Action :=
  [.start force none 1 .none, .read 1, .check, .writeStart, .writeDone, .finishWait]

theorem archived_redo_has_no_gap_two_files :
    ∃ p, ReachableBy (archStep smallConfig) Proc.Fresh (fun p a => survives p a = true) p ∧
      (p.files.map fun f => (f.asn, f.firstLsn, f.lastLsn)) = [(1, 0, 2), (2, 2, 5)] ∧
      NoGap p.log p.files ∧ ∀ r ∈ p.recycles, r.Safe := by
  obtain ⟨p, hrun, hfiles⟩ := exists_of_runOk_map (archStep smallConfig) survives freshProc
    ([.append ⟨1, 1⟩, .append ⟨2, 2⟩, .setRcyPoint 1, .start true none 9 .none, .read 1,
      .writeStart, .check, .read 1, .writeDone, .check, .writeStart, .writeFails 1, .writeStart,
      .readFails, .writeDone, .finishWait] ++ [.start true none 0 .none, .read 1, .finishWait,
      .finish noFaults, .append ⟨5, 1⟩] ++ oneBatch true ++ [.finish noFaults])
    (fun p => p.files.map fun f => (f.asn, f.firstLsn, f.lastLsn)) [(1, 0, 2), (2, 2, 5)]
    (by decide +kernel)
  have hreach : ReachableBy (archStep smallConfig) Proc.Fresh
      (fun p a => survives p a = true) p := .of_runOk _ (.init freshProc_fresh) hrun
  exact ⟨p, hreach, hfiles, archived_redo_has_no_gap hreach⟩

/-- The temporary file gets lost with a batch in it. The record is set back to the last
recorded file, but the next read starts behind the lost batch. -/
def lostFileRun : List Action :=
  .append ⟨1, 1⟩ :: oneBatch false ++ [.finish noFaults, .lose, .append ⟨2, 1⟩] ++ oneBatch true ++
    [.finish noFaults]

/-- The size of the renamed file cannot be read. The file gets its name back, but the offset
of the record is at its head, so that the next batch overwrites the first. -/
def sizeFailsRun : List Action :=
  .append ⟨1, 1⟩ :: oneBatch true ++
    [.finish { noFaults with sizeFails := true }, .append ⟨2, 1⟩] ++
    oneBatch true ++ [.finish noFaults]

/-- A write fails with one buffer waiting, which leaves the indices of the threads apart.
The next call writes its second buffer first, and if then the write of the
first one fails, its batch is never written. -/
def writeFailsRun : List Action :=
  [.append ⟨1, 1⟩, .start false none 1 .none, .read 1, .check, .writeStart, .writeFails 0,
    .finishWait, .append ⟨2, 1⟩, .start false none 2 .none, .read 1, .check, .read 1, .check,
    .writeStart, .writeDone, .writeStart, .writeFails 0, .finishWait, .append ⟨3, 1⟩] ++
    oneBatch true ++ [.finish noFaults]

/-- The run is one of the archive process and ends with a gap in the files. -/
def LeavesGap (as : List Action) : Prop :=
  ∃ p, Reachable (archStep smallConfig) Proc.Fresh p ∧
    run (archStep smallConfig) freshProc as = some p ∧ ¬ NoGap p.log p.files

lemma leavesGap_of_run {as} (log : List Batch) (f : ArchFile)
    (hmap : ((run (archStep smallConfig) freshProc as).map fun p => (p.log, p.files))
      = some (log, [f]))
    (hcontent : f.content ≠ bytesOf (segment Batch.lsn log f.firstLsn f.lastLsn)) :
    LeavesGap as := by
  obtain ⟨p, hrun, hlook⟩ := exists_of_run_map _ _ as _ _ hmap
  obtain ⟨hlog, hfiles⟩ := Prod.mk.inj hlook
  refine ⟨p, .of_run as (.init freshProc_fresh) hrun, hrun, ?_⟩
  rw [hlog, hfiles]
  exact fun hgap => hcontent (hgap.content _ mem_cons_self).2

/-- After each of these runs the only recorded file lacks the batch with LSN 1 of its
range. -/
theorem archived_redo_gaps :
    LeavesGap lostFileRun ∧ LeavesGap sizeFailsRun ∧ LeavesGap writeFailsRun := by
  refine ⟨?_, ?_, ?_⟩
  · exact leavesGap_of_run [⟨1, 1⟩, ⟨2, 1⟩] ⟨1, 1, 0, 2, [(2, 0)]⟩ (by decide +kernel) (by decide)
  · exact leavesGap_of_run [⟨1, 1⟩, ⟨2, 1⟩] ⟨1, 1, 0, 2, [(2, 0)]⟩ (by decide +kernel) (by decide)
  · exact leavesGap_of_run [⟨1, 1⟩, ⟨2, 1⟩, ⟨3, 1⟩] ⟨1, 1, 0, 3, [(2, 0), (3, 0)]⟩
      (by decide +kernel) (by decide)

end Cantian.Archive.Redo
