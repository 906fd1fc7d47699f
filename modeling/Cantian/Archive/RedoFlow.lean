import Cantian.Archive.RedoCopy

/-!
# The archive record and the temporary file

What ties the record to the bytes: up to the offset of the record the
temporary file holds the batches from the end of the last recorded file to
the current LSN, and the buffers hold what follows, up to the last LSN that
was read. Each step keeps that, but for three: the loss of a temporary file
with batches in it, a renamed file whose size cannot be read, and a call
given up after a failed write with one buffer waiting.
-/

namespace Cantian.Archive.Redo

open Lib List Option

/-! ## Bytes -/

@[simp] lemma bytesOf_append (as bs : List Batch) :
    bytesOf (as ++ bs) = bytesOf as ++ bytesOf bs := by
  simp [bytesOf]

@[simp] lemma bytesOf_nil : bytesOf [] = [] := rfl

lemma redoSize_append (as bs : List Batch) : redoSize (as ++ bs) = redoSize as + redoSize bs := by
  simp [redoSize]

variable {file : List Byte} {b : Batch} {fault : BeginFault}

lemma take_writeAt {pos} (h : pos ≤ file.length) (data : List Byte) :
    (writeAt file pos data).take (pos + data.length) = file.take pos ++ data := by
  have hzero : pos - file.length = 0 := by omega
  have hlen : (file.take pos ++ data).length = pos + data.length := by simp [h]
  rw [writeAt, hzero, replicate_zero, append_nil, ← hlen, take_left]

lemma take_writeAt_le {data pos} (h : pos ≤ file.length) :
    (writeAt file pos data).take pos = file.take pos := by
  have htake := congrArg (take pos) (take_writeAt h data)
  rw [take_take, Nat.min_eq_left (Nat.le_add_right _ _)] at htake
  rw [htake, take_append_of_le_length (by simp [h]), take_take, Nat.min_self]

/-! ## The record -/

/-- The batches above `lo` and up to `hi`. -/
abbrev redo (log : List Batch) (lo hi : Nat) : List Batch := segment Batch.lsn log lo hi

/-- A file that holds, in its first `size` bytes, exactly the batches `bs`. -/
structure HoldsRedo (file : List Byte) (n : Nat) (bs : List Batch) : Prop where
  size : n = redoSize bs
  bytes : file.take n = bytesOf bs

lemma HoldsRedo.le_length {n bs} (h : HoldsRedo file n bs) : n ≤ file.length := by
  have hlen := congrArg length h.bytes
  have hsize := h.size
  simp only [length_take] at hlen
  rw [redoSize] at hsize
  omega

lemma HoldsRedo.write {file n as} (h : HoldsRedo file n as) (bs : List Batch) :
    HoldsRedo (writeAt file n (bytesOf bs)) (n + redoSize bs) (as ++ bs) := by
  constructor
  case size => rw [redoSize_append, h.size]
  case bytes => rw [redoSize, take_writeAt h.le_length, h.bytes, bytesOf_append]

lemma HoldsRedo.write_garbage {n as} (h : HoldsRedo file n as) (data : List Byte) :
    HoldsRedo (writeAt file n data) n as :=
  ⟨h.size, by rw [take_writeAt_le h.le_length, h.bytes]⟩

/-- The record, the temporary file and the catalogue. -/
structure RecordInv (c : Config) (log : List Batch) (logRstId : Nat) (r : ArchRecord)
    (tmpFile : Option (List Byte)) (files : List ArchFile) (recycles : List RecycleCall) :
    Prop where
  sorted : Ascending Batch.lsn log
  noGap : NoGap log files
  filesBound : ∀ f ∈ files, f.lastLsn ≤ lastKey Batch.lsn log
  atEnd : r.endLsn = lastRecorded files
  endCur : r.endLsn ≤ r.curLsn
  curBound : r.curLsn ≤ lastKey Batch.lsn log
  fresh : r.startLsn = none → r.curLsn = r.endLsn
  offset : r.offset = 0 ∨ c.headSize ≤ r.offset
  tmp : ∀ file, tmpFile = some file →
    HoldsRedo file (r.offset - c.headSize) (redo log r.endLsn r.curLsn)
  gone : tmpFile = none → r.curLsn = r.endLsn ∧ r.offset - c.headSize = 0
  rstId : r.rstId ≤ logRstId
  older : ∀ f ∈ files, f.rstId ≤ r.rstId
  nextAsn : ∀ f, (files.filter fun f => f.rstId == r.rstId).getLast? = some f →
    r.asn = f.asn + 1 ∧ f.lastLsn = r.endLsn
  recycles : ∀ call ∈ recycles, call.Safe

abbrev RecordOk (c : Config) (p : Proc) : Prop :=
  RecordInv c p.log p.logRstId p.record p.tmpFile p.files p.recycles

/-- Chunks that follow each other in the log from `lo` to `hi`. -/
def ChunksFrom (log : List Batch) : Nat → List Chunk → Nat → Prop
  | lo, [], hi => lo = hi
  | lo, d :: q, hi => lo ≤ d.lastLsn ∧ d.lastLsn ≤ lastKey Batch.lsn log ∧
      d.batches = redo log lo d.lastLsn ∧ ChunksFrom log d.lastLsn q hi

/-- The buffers hold what was read up to `lastLsn` and not yet written, and the write that
is going on is that of the first one. -/
def BuffersOk (log : List Batch) (r : ArchRecord) (rwBuf : DoubleBuffer Chunk)
    (inFlight : Option (Nat × Chunk)) (lastLsn : Nat) : Prop :=
  ∃ q, rwBuf.Holds q ∧ ChunksFrom log r.curLsn q lastLsn ∧
    (inFlight = none ∨ ∃ d, q.head? = some d ∧ inFlight = some (r.offset, d))

/-- Nothing is on the way between the threads. -/
def Quiet (rwBuf : DoubleBuffer Chunk) (inFlight : Option (Nat × Chunk)) : Prop :=
  rwBuf.Holds [] ∧ inFlight = none

/-- The temporary file is there, the offset is past its head, and the start is known. -/
def TmpOpen (c : Config) (r : ArchRecord) (tmpFile : Option (List Byte)) : Prop :=
  tmpFile.isSome = true ∧ c.headSize ≤ r.offset ∧ r.startLsn ≠ none

/-- The threads, by the place of the reading thread. -/
def StageInv (c : Config) (log : List Batch) (r : ArchRecord) (tmpFile : Option (List Byte))
    (rwBuf : DoubleBuffer Chunk) (inFlight : Option (Nat × Chunk)) : Stage → Prop
  | .idle => Quiet rwBuf inFlight
  | .reading v => TmpOpen c r tmpFile ∧ BuffersOk log r rwBuf inFlight v.lastLsn ∧
      v.startLsn = v.lastLsn + 1
  | .checking v => TmpOpen c r tmpFile ∧ BuffersOk log r rwBuf inFlight v.lastLsn ∧
      v.startLsn = v.lastLsn + 1
  | .ending lastLsn _ => TmpOpen c r tmpFile ∧ BuffersOk log r rwBuf inFlight lastLsn
  | .copying v => TmpOpen c r tmpFile ∧ Quiet rwBuf inFlight ∧ v.startLsn = r.curLsn + 1
  | .written => TmpOpen c r tmpFile ∧ Quiet rwBuf inFlight ∧ r.startLsn = some r.endLsn

abbrev StageOk (c : Config) (p : Proc) : Prop :=
  StageInv c p.log p.record p.tmpFile p.rwBuf p.inFlight p.stage

structure ProcOk (c : Config) (p : Proc) : Prop where
  record : RecordOk c p
  stage : StageOk c p

variable {c : Config} {p p' : Proc}

lemma ProcOk.stageAt (hp : ProcOk c p) {st} (hst : p.stage = st) :
    StageInv c p.log p.record p.tmpFile p.rwBuf p.inFlight st :=
  hst ▸ hp.stage

lemma redo_self (log : List Batch) (lo : Nat) : redo log lo lo = [] := segment_self

lemma Proc.Fresh.procOk (h : p.Fresh) : ProcOk c p := by
  have hredo : redo p.log p.record.endLsn p.record.curLsn = [] := by rw [h.cur, redo_self]
  constructor
  · exact
    { sorted := h.sorted
      noGap := h.noGap
      filesBound := h.bound
      atEnd := h.atEnd
      endCur := le_of_eq h.cur.symm
      curBound := by
        rw [h.cur, h.atEnd, lastRecorded]
        cases hlast : p.files.getLast? with
        | none => exact Nat.zero_le _
        | some f => exact h.bound f (mem_of_getLast? hlast)
      fresh := fun _ => h.cur
      offset := .inl h.offset
      tmp := by
        intro file _
        rw [hredo, h.offset]
        exact ⟨by simp [redoSize], by simp⟩
      gone := fun _ => ⟨h.cur, by rw [h.offset]; omega⟩
      rstId := h.rstId
      older := h.older
      nextAsn := h.nextAsn
      recycles := by rw [h.recycles]; simp }
  · rw [StageOk, h.stage]
    exact ⟨h.rwBuf, h.inFlight⟩

/-! ## The log and the catalogue -/

lemma redo_concat {log hi} (hb : lastKey Batch.lsn log < b.lsn) (hhi : hi ≤ lastKey Batch.lsn log)
    (lo : Nat) : redo (log ++ [b]) lo hi = redo log lo hi :=
  segment_concat (lt_of_le_of_lt hhi hb)

lemma NoGap.concat {log files} (h : NoGap log files) (hb : lastKey Batch.lsn log < b.lsn)
    (hbound : ∀ f ∈ files, f.lastLsn ≤ lastKey Batch.lsn log) : NoGap (log ++ [b]) files := by
  refine ⟨h.linked, ?_⟩
  intro f hf
  have hsame := redo_concat hb (hbound f hf) f.firstLsn
  exact ⟨(h.content f hf).1, (h.content f hf).2.trans (congrArg bytesOf hsame.symm)⟩

lemma ChunksFrom.concat {log q lo hi} (hb : lastKey Batch.lsn log < b.lsn)
    (h : ChunksFrom log lo q hi) : ChunksFrom (log ++ [b]) lo q hi := by
  induction q generalizing lo with
  | nil => exact h
  | cons d q ih =>
    obtain ⟨hlo, hbound, hbs, hrest⟩ := h
    refine ⟨hlo, ?_, ?_, ih hrest⟩
    · rw [lastKey_concat]; omega
    · rw [redo_concat hb hbound]; exact hbs

section
variable {log log' : List Batch} {r r' : ArchRecord} {tmpFile tmpFile' : Option (List Byte)}
  {rwBuf rwBuf' : DoubleBuffer Chunk} {inFlight inFlight' : Option (Nat × Chunk)} {st : Stage}

/-- A change under the reading thread, which between two calls sees none of it. -/
lemma StageInv.map (h : StageInv c log r tmpFile rwBuf inFlight st)
    (htmp : TmpOpen c r tmpFile → TmpOpen c r' tmpFile')
    (hbuf : ∀ last, BuffersOk log r rwBuf inFlight last → BuffersOk log' r' rwBuf' inFlight' last)
    (hquiet : Quiet rwBuf inFlight → Quiet rwBuf' inFlight' ∧ r' = r) :
    StageInv c log' r' tmpFile' rwBuf' inFlight' st := by
  cases st with
  | idle => exact (hquiet h).1
  | reading | checking => exact ⟨htmp h.1, hbuf _ h.2.1, h.2.2⟩
  | ending => exact ⟨htmp h.1, hbuf _ h.2⟩
  | copying | written =>
    obtain ⟨hq, rfl⟩ := hquiet h.2.1
    exact ⟨htmp h.1, hq, h.2.2⟩

lemma StageInv.busy (h : StageInv c log r tmpFile rwBuf inFlight st)
    (hbusy : ¬Quiet rwBuf inFlight) :
    TmpOpen c r tmpFile ∧ ∃ last, BuffersOk log r rwBuf inFlight last := by
  cases st with
  | idle => exact absurd h hbusy
  | reading | checking => exact ⟨h.1, _, h.2.1⟩
  | ending => exact ⟨h.1, _, h.2⟩
  | copying | written => exact absurd h.2.1 hbusy

end

lemma ProcOk.append (hp : ProcOk c p) (hb : lastKey Batch.lsn p.log < b.lsn) :
    ProcOk c { p with log := p.log ++ [b] } := by
  have hr := hp.record
  refine ⟨{ hr with
    sorted := ascending_concat hr.sorted hb
    noGap := hr.noGap.concat hb hr.filesBound
    filesBound := ?_
    curBound := ?_
    tmp := ?_ }, hp.stage.map id ?_ fun hq => ⟨hq, rfl⟩⟩
  · intro f hf
    have := hr.filesBound f hf
    rw [lastKey_concat]
    omega
  · have := hr.curBound
    show p.record.curLsn ≤ _
    rw [lastKey_concat]
    omega
  · rw [redo_concat hb hr.curBound]
    exact hr.tmp
  · exact fun last ⟨q, hq, hch, hfl⟩ => ⟨q, hq, hch.concat hb, hfl⟩

/-! ## Changes of the record -/

section
variable {log : List Batch} {logRstId rcyPoint last n : Nat} {r : ArchRecord}
  {tmpFile : Option (List Byte)} {files : List ArchFile} {recycles : List RecycleCall}

section
variable (h : RecordInv c log logRstId r tmpFile files recycles)
include h

lemma RecordInv.recycle (rcyPoint : Nat) : RecordInv c log logRstId r tmpFile files
      (⟨min rcyPoint r.endLsn, rcyPoint, lastRecorded files⟩ :: recycles) := by
  refine { h with recycles := ?_ }
  exact forall_mem_cons.mpr ⟨⟨h.atEnd ▸ min_le_right _ _, min_le_left _ _⟩, h.recycles⟩

/-- Without batches in it the temporary file has no bytes that count. -/
lemma RecordInv.offset_eq (hcur : r.curLsn = r.endLsn) : r.offset - c.headSize = 0 := by
  cases htmp : tmpFile with
  | none => exact (h.gone htmp).2
  | some file =>
    have hsize := (h.tmp file htmp).size
    rw [hcur, redo_self] at hsize
    exact hsize

lemma RecordInv.lose (hcur : r.curLsn = r.endLsn) :
    RecordInv c log logRstId r none files recycles := by
  refine { h with tmp := ?_, gone := ?_ }
  · simp
  · exact fun _ => ⟨hcur, h.offset_eq hcur⟩

end

lemma RecordInv.create (h : RecordInv c log logRstId r none files recycles) :
    RecordInv c log logRstId r (some []) files recycles := by
  obtain ⟨hcur, hoff⟩ := h.gone rfl
  refine { h with tmp := ?_, gone := ?_ }
  · intro file hfile
    cases hfile
    rw [hcur, redo_self, hoff]
    exact ⟨rfl, rfl⟩
  · omega

section
variable (h : RecordInv c log logRstId r tmpFile files recycles)
include h

lemma RecordInv.setStart (start : Nat) :
    RecordInv c log logRstId { r with startLsn := some start } tmpFile files
      recycles := by
  refine { h with fresh := ?_ }
  intro hnone
  cases hnone

lemma RecordInv.setOffset (hzero : r.offset = 0) :
    RecordInv c log logRstId { r with offset := c.headSize } tmpFile files recycles := by
  have hsame : r.offset - c.headSize = c.headSize - c.headSize := by omega
  refine { h with offset := ?_, tmp := ?_, gone := ?_ }
  · exact .inr (le_refl _)
  · exact fun file hfile => hsame ▸ h.tmp file hfile
  · exact fun hnone => ⟨(h.gone hnone).1, hsame ▸ (h.gone hnone).2⟩

lemma RecordInv.advance (htmp : TmpOpen c r tmpFile) (hcur : r.curLsn ≤ last)
    (hlast : last ≤ lastKey Batch.lsn log) : RecordInv c log logRstId
      { r with offset := r.offset + redoSize (redo log r.curLsn last), curLsn := last }
      (tmpFile.map fun file => writeAt file (r.offset - c.headSize)
        (bytesOf (redo log r.curLsn last))) files recycles := by
  obtain ⟨file, rfl⟩ := isSome_iff_exists.mp htmp.1
  have hoff := htmp.2.1
  have hend := h.endCur
  refine { h with
    endCur := ?_, curBound := hlast, fresh := ?_, offset := ?_, tmp := ?_, gone := ?_ }
  · exact le_trans hend hcur
  · exact fun hnone => absurd hnone htmp.2.2
  · exact .inr (Nat.le_trans hoff (Nat.le_add_right _ _))
  · intro file' hfile'
    cases hfile'
    have hwritten := (h.tmp file rfl).write (redo log r.curLsn last)
    rw [segment_append h.sorted hend hcur] at hwritten
    have hpos : r.offset + redoSize (redo log r.curLsn last) - c.headSize
        = r.offset - c.headSize + redoSize (redo log r.curLsn last) := by omega
    rw [hpos]
    exact hwritten
  · simp

lemma RecordInv.write_garbage (data : List Byte) : RecordInv c log logRstId r
      (tmpFile.map fun file => writeAt file (r.offset - c.headSize) data) files recycles := by
  refine { h with tmp := ?_, gone := ?_ }
  · intro file hfile
    obtain ⟨old, hold, rfl⟩ := map_eq_some_iff.mp hfile
    exact (h.tmp old hold).write_garbage data
  · exact fun hnone => h.gone (map_eq_none_iff.mp hnone)

end

end

/-! ## Steps outside of a call -/

/-- The record is never set back: the file is there unless it has nothing in it. -/
lemma archHandleLoss_spec {q} (hp : RecordOk c p) (h : archHandleLoss p fault = some q) :
    RecordOk c q ∧ q.record.startLsn ≠ none ∧ q.record.curLsn = p.record.curLsn ∧
      q.rwBuf = p.rwBuf ∧ q.inFlight = p.inFlight := by
  have hkeep : ¬ (p.tmpFile = none ∧ p.record.curLsn ≠ p.record.endLsn) :=
    fun hlost => hlost.2 (hp.gone hlost.1).1
  rw [archHandleLoss, if_neg hkeep] at h
  split at h
  case isTrue hnone =>
    split at h <;> cases h
    exact ⟨(hp.lose (hp.fresh hnone)).setStart 0, by simp, rfl, rfl, rfl⟩
  case isFalse hsome =>
    cases h
    exact ⟨hp, hsome, rfl, rfl, rfl⟩

lemma archHandleFault_spec {q} (hp : RecordOk c p) (h : archHandleFault c p fault = some q) :
    RecordOk c q ∧ (c.headSize ≤ q.record.offset ∧ q.record.startLsn ≠ none) ∧
      q.record.curLsn = p.record.curLsn ∧ q.rwBuf = p.rwBuf ∧ q.inFlight = p.inFlight := by
  obtain ⟨f, hloss, rfl⟩ := map_eq_some_iff.mp h
  obtain ⟨hf, hstart, hcur, hbuf, hfl⟩ := archHandleLoss_spec hp hloss
  rw [skipHead]
  split
  case isTrue hzero => exact ⟨hf.setOffset hzero, ⟨le_refl _, hstart⟩, hcur, hbuf, hfl⟩
  case isFalse hzero => exact ⟨hf, ⟨hf.offset.resolve_left hzero, hstart⟩, hcur, hbuf, hfl⟩

lemma archCreateOpenFile_spec {q ok} (hp : RecordOk c p)
    (h : archCreateOpenFile p fault = (q, ok)) :
    RecordOk c q ∧ (ok = true → q.tmpFile.isSome = true) ∧ q.record = p.record ∧
      q.rwBuf = p.rwBuf ∧ q.inFlight = p.inFlight := by
  rw [archCreateOpenFile] at h
  split at h
  case isTrue hnone =>
    split at h
    case isTrue =>
      cases h
      exact ⟨hp, nofun, rfl, rfl, rfl⟩
    case isFalse =>
      cases h
      refine ⟨?_, fun _ => rfl, rfl, rfl, rfl⟩
      rw [RecordOk, hnone] at hp
      exact hp.create
  case isFalse hsome =>
    cases h
    exact ⟨hp, fun _ => isSome_iff_ne_none.mpr hsome, rfl, rfl, rfl⟩

variable (hp : ProcOk c p)
include hp

lemma ProcOk.start {force forceEnd size} (hidle : p.stage = .idle) :
    ProcOk c (beginArchive c p force forceEnd size fault) := by
  have hquiet : Quiet p.rwBuf p.inFlight := hp.stageAt hidle
  simp only [beginArchive]
  split
  case h_1 => exact ⟨hp.record, hquiet⟩
  case h_2 q hfault =>
    obtain ⟨hq, ⟨hoff, hstart⟩, hcur, hbuf, hfl⟩ := archHandleFault_spec hp.record hfault
    obtain ⟨need, hneed⟩ : ∃ need,
        setNeedFileArchive c q force size = { q with needFileArchive := need } := by
      rw [setNeedFileArchive]
      split <;> exact ⟨_, rfl⟩
    rw [hneed]
    generalize hopen : archCreateOpenFile _ fault = opened
    obtain ⟨t, ok⟩ := opened
    obtain ⟨ht, hsome, hrec, hbuf', hfl'⟩ :=
      archCreateOpenFile_spec (p := { q with needFileArchive := need }) hq hopen
    rw [← hbuf, ← hfl, ← hbuf', ← hfl'] at hquiet
    cases ok with
    | false => exact ⟨ht, hquiet⟩
    | true =>
      have htmp : TmpOpen c t.record t.tmpFile := by
        rw [hrec]
        exact ⟨hsome rfl, hoff, hstart⟩
      have hcur' : t.record.curLsn = p.record.curLsn := by rw [hrec]; exact hcur
      simp only [startReading]
      split
      case isTrue => exact ⟨ht, htmp, hquiet, by rw [hcur']⟩
      case isFalse =>
        refine ⟨ht, htmp, ⟨[], hquiet.1, rfl, .inl hquiet.2⟩, ?_⟩
        simp [hcur']

/-! ## Reading -/

omit hp in
lemma ChunksFrom.snoc {log q lo mid hi d} (h : ChunksFrom log lo q mid)
    (hd : ChunksFrom log mid [d] hi) : ChunksFrom log lo (q ++ [d]) hi := by
  induction q generalizing lo with
  | nil =>
    have hlo : lo = mid := h
    rw [hlo]
    exact hd
  | cons e q ih =>
    obtain ⟨hlo, hbound, hbs, hrest⟩ := h
    exact ⟨hlo, hbound, hbs, ih hrest⟩

omit hp in
/-- What a read from behind `last` returns. -/
lemma readBatches_spec {log last n} (hlog : Ascending Batch.lsn log)
    (hne : readBatches log (last + 1) n ≠ []) : readBatches log (last + 1) n
        = redo log last (lastKey Batch.lsn (readBatches log (last + 1) n)) ∧
      last ≤ lastKey Batch.lsn (readBatches log (last + 1) n) ∧
      lastKey Batch.lsn (readBatches log (last + 1) n) ≤ lastKey Batch.lsn log := by
  refine ⟨take_above_eq_segment hlog rfl hne, ?_⟩
  obtain ⟨b, hb, hkey⟩ := lastKey_mem Batch.lsn hne
  have hmem := mem_filter.mp (mem_of_mem_take hb)
  have habove : last + 1 ≤ b.lsn := by simpa using hmem.2
  rw [← hkey]
  exact ⟨by omega, le_lastKey hlog b hmem.1⟩

lemma ProcOk.read {v n} (hst : p.stage = .reading v) (hput : p.rwBuf.canPut = true) :
    ProcOk c (readTurn p v n) := by
  obtain ⟨htmp, ⟨q, hq, hch, hfl⟩, hstart⟩ := hp.stageAt hst
  simp only [readTurn, hstart]
  split
  case isTrue => exact ⟨hp.record, htmp, q, hq, hch, hfl⟩
  case isFalse hne =>
    obtain ⟨hseg, hlo, hhi⟩ := readBatches_spec hp.record.sorted hne
    refine ⟨hp.record, htmp, ⟨q ++ [_], hq.put hput, hch.snoc ⟨hlo, hhi, hseg, rfl⟩, ?_⟩, rfl⟩
    rcases hfl with hnone | ⟨d, hd, hfl⟩
    · exact .inl hnone
    · refine .inr ⟨d, ?_, hfl⟩
      rw [head?_append, hd]
      rfl

lemma ProcOk.check {v} (hst : p.stage = .checking v) : ProcOk c (readCheck c p v) := by
  have hs := hp.stageAt hst
  simp only [readCheck]
  split
  case isTrue => exact ⟨hp.record, hs.1, hs.2.1⟩
  case isFalse => exact ⟨hp.record, hs⟩

/-- A call is not given up, after a failed write, with one buffer waiting or the writing
thread at work. -/
def endsEven (p : Proc) : Bool :=
  !p.writeFailed || (p.rwBuf.readIndex == p.rwBuf.writeIndex && p.inFlight.isNone)

lemma ProcOk.finishWait {last failed} (heven : endsEven p = true)
    (hst : p.stage = .ending last failed) (hwait : (p.rwBuf.isEmpty || p.writeFailed) = true) :
    ProcOk c (finishWrite p last failed) := by
  obtain ⟨htmp, q, hq, hch, hfl⟩ := hp.stageAt hst
  have hquiet : Quiet p.rwBuf.reset p.inFlight := by
    cases hw : p.writeFailed with
    | true =>
      simp only [endsEven, hw, Bool.not_true, Bool.false_or, Bool.and_eq_true, beq_iff_eq,
        isNone_iff_eq_none] at heven
      exact ⟨DoubleBuffer.holds_reset heven.1, heven.2⟩
    | false =>
      -- without a failed write the wait has emptied the buffers
      have hempty : p.rwBuf.isEmpty = true := by simpa [hw] using hwait
      have hnil := hq.eq_nil hempty
      subst hnil
      refine ⟨DoubleBuffer.holds_reset hq.readIndex_eq, ?_⟩
      rcases hfl with hnone | ⟨d, hd, _⟩
      · exact hnone
      · cases hd
  simp only [finishWrite]
  split
  case isTrue => exact ⟨hp.record, hquiet⟩
  case isFalse =>
    split
    case isTrue => exact ⟨hp.record, hquiet⟩
    case isFalse => exact ⟨hp.record.setStart _, ⟨htmp.1, htmp.2.1, by simp⟩, hquiet, rfl⟩

/-! ## Writing -/

lemma ProcOk.writeStart {d} (hpeek : p.rwBuf.peek = some d) :
    ProcOk c { p with inFlight := some (p.record.offset, d) } := by
  refine ⟨hp.record, hp.stage.map id ?_ fun hquiet => ?_⟩
  · exact fun last ⟨q, hq, hch, _⟩ => ⟨q, hq, hch, .inr ⟨d, hq.peek ▸ hpeek, rfl⟩⟩
  · cases hquiet.1.peek.symm.trans hpeek

/-- While a write is going on the reading thread is in `arch_write_file`, and the write is
that of the first waiting buffer at the offset of the record. -/
lemma ProcOk.inFlight_spec {offset d} (hfl : p.inFlight = some (offset, d)) :
    TmpOpen c p.record p.tmpFile ∧ offset = p.record.offset ∧ p.record.curLsn ≤ d.lastLsn ∧
      d.lastLsn ≤ lastKey Batch.lsn p.log ∧
      d.batches = redo p.log p.record.curLsn d.lastLsn := by
  have hbusy : ¬Quiet p.rwBuf p.inFlight := by
    intro hq
    cases hq.2.symm.trans hfl
  obtain ⟨htmp, last, q, -, hch, hor⟩ := hp.stage.busy hbusy
  refine ⟨htmp, ?_⟩
  rcases hor with hnone | ⟨e, he, hsome⟩
  · cases hnone.symm.trans hfl
  · cases hsome.symm.trans hfl
    cases q with
    | nil => cases he
    | cons =>
      cases he
      exact ⟨rfl, hch.1, hch.2.1, hch.2.2.1⟩

lemma ProcOk.writeDone {offset d} (hfl : p.inFlight = some (offset, d)) :
    ProcOk c (writeDone c p offset d) := by
  obtain ⟨htmp, rfl, hcur, hlast, hbs⟩ := hp.inFlight_spec hfl
  have hadv := hp.record.advance htmp hcur hlast
  rw [← hbs] at hadv
  refine ⟨hadv, hp.stage.map (fun _ => ?_) (fun last hbuf => ?_) fun hquiet => ?_⟩
  · refine ⟨?_, Nat.le_trans htmp.2.1 (Nat.le_add_right _ _), htmp.2.2⟩
    simpa [Redo.writeDone, writeTmp] using htmp.1
  · rw [hfl] at hbuf
    obtain ⟨q, hq, hch, hnone | ⟨e, he, hsome⟩⟩ := hbuf
    · cases hnone
    · cases hsome
      cases q with
      | nil => cases he
      | cons =>
        cases he
        exact ⟨_, hq.take, hch.2.2.2, .inl rfl⟩
  · cases hquiet.2.symm.trans hfl

lemma ProcOk.writeFails {offset d} (hfl : p.inFlight = some (offset, d)) (data : List Byte) :
    ProcOk c { p with
      tmpFile := writeTmp c p offset data, writeFailed := true, inFlight := none } := by
  obtain ⟨htmp, rfl, -⟩ := hp.inFlight_spec hfl
  refine ⟨hp.record.write_garbage _, hp.stage.map (fun _ => ?_) ?_ fun hquiet => ?_⟩
  · exact ⟨by simpa [writeTmp] using htmp.1, htmp.2⟩
  · exact fun last ⟨q, hq, hch, _⟩ => ⟨q, hq, hch, .inl rfl⟩
  · cases hquiet.2.symm.trans hfl

end Cantian.Archive.Redo
