import Cantian.Lib.Transition
import Cantian.Lib.DoubleBuffer
import Cantian.Lib.Segment
import Mathlib.Data.List.Chain

/-!
# Archiving redo from the shared log

The archive process of a node copies batches from the shared log to a
temporary file and, when that is large enough or archiving is forced, turns
it into an archive file and records it in the catalogue. One call of
`arch_dbstor_do_archive` reads in one thread; a second thread writes what
was read and advances the record. Between the threads lie two buffers. In a
deployment without a file server the storage copies the batches itself
(`arch_copy_file`).

The model has one step for each piece of a call between which the other
thread, the log or the checkpoint may move. LSNs do not reach
`CT_INVALID_ID64`, which is `none` here.
-/

namespace Cantian.Archive.Redo

open Lib (DoubleBuffer)

/-! ## Log and files -/

/-- A batch of the log: the last LSN in it and its size in bytes. -/
structure Batch where
  lsn : Nat
  size : Nat
deriving DecidableEq, Repr

/-- A byte of a file, named by the batch and the place in it. -/
abbrev Byte := Nat × Nat

def Batch.bytes (b : Batch) : List Byte := (List.range b.size).map fun i => (b.lsn, i)

def bytesOf (bs : List Batch) : List Byte := bs.flatMap Batch.bytes

/-- What a file reads as where nothing has been written. -/
def zeroByte : Byte := (0, 0)

/-- Bytes `data` written at `pos`. -/
def writeAt (file : List Byte) (pos : Nat) (data : List Byte) : List Byte :=
  (file ++ List.replicate (pos - file.length) zeroByte).take pos ++ data ++
    file.drop (pos + data.length)

/-- What does not change in a run: the aligned size of a file head, `arch_file_size`, and
`DBSTOR_DEPLOY_MODE_NO_NAS`. -/
structure Config where
  headSize : Nat
  archFileSize : Nat
  noNas : Bool
deriving DecidableEq, Repr

/-- `st_arch_log_record_id_t`. -/
structure ArchRecord where
  rstId : Nat
  asn : Nat
  startLsn : Option Nat
  endLsn : Nat
  curLsn : Nat
  offset : Nat
deriving DecidableEq, Repr

/-- A recorded archive file: what its head says and the bytes after the head. -/
structure ArchFile where
  rstId : Nat
  asn : Nat
  firstLsn : Nat
  lastLsn : Nat
  content : List Byte
deriving DecidableEq, Repr

/-- `buf_data_t`. -/
structure Chunk where
  batches : List Batch
  lastLsn : Nat
deriving DecidableEq, Repr

/-- A call of the recycling of the log, with the recovery point at that moment and the
last LSN of the last recorded file. -/
structure RecycleCall where
  lsn : Nat
  rcyPoint : Nat
  lastRecorded : Nat
deriving DecidableEq, Repr

/-! ## The process -/

/-- The local variables of `arch_read_from_src` and `arch_copy_file`. -/
structure ReadVars where
  startLsn : Nat
  lastLsn : Nat
  endLsn : Option Nat
  leftSize : Int
deriving DecidableEq, Repr

/-- Where the reading thread is. -/
inductive Stage where
  /-- Between two calls. -/
  | idle
  /-- At the head of the loop of `arch_read_from_src`. -/
  | reading (v : ReadVars)
  /-- Past a read, before the tests at the end of the loop. -/
  | checking (v : ReadVars)
  /-- In `arch_wait_write_finish`. -/
  | ending (lastLsn : Nat) (readFailed : Bool)
  /-- In the loop of `arch_copy_file`. -/
  | copying (v : ReadVars)
  /-- The temporary file is written. -/
  | written
deriving DecidableEq, Repr

structure Proc where
  log : List Batch
  logRstId : Nat
  rcyPoint : Nat
  record : ArchRecord
  tmpFile : Option (List Byte)
  rwBuf : DoubleBuffer Chunk
  /-- The write that the writing thread has begun: file offset and data. -/
  inFlight : Option (Nat × Chunk)
  archExecute : Bool
  writeFailed : Bool
  needFileArchive : Bool
  stage : Stage
  /-- The files in the catalogue in the order in which they were recorded. -/
  files : List ArchFile
  recycles : List RecycleCall

/-- What may go wrong before the reading starts. -/
inductive BeginFault where
  | none
  | clear
  | create
  | head
  | openFile
deriving DecidableEq, Repr

/-- What may go wrong after it. -/
structure EndFaults where
  waitClean : Bool
  flushFails : Bool
  renameFails : Bool
  sizeFails : Bool
  renameBackFails : Bool
deriving DecidableEq, Repr

/-- The error exit of `arch_dbstor_do_archive`. -/
def failArchive (p : Proc) : Proc := { p with needFileArchive := false, stage := .idle }

/-- The first half of `arch_handle_fault`: a temporary file from before the start is
removed, and a lost one sets the record back; `none` if the removal fails. -/
def archHandleLoss (p : Proc) (fault : BeginFault) : Option Proc :=
  if p.record.startLsn = none then
    if fault = .clear then none
    else some { p with tmpFile := none, record := { p.record with startLsn := some 0 } }
  else if p.tmpFile = none ∧ p.record.curLsn ≠ p.record.endLsn then
    some { p with record := { p.record with curLsn := p.record.endLsn, offset := 0 } }
  else some p

/-- Its second half: a new file starts behind the head. -/
def skipHead (c : Config) (p : Proc) : Proc :=
  if p.record.offset = 0 then { p with record := { p.record with offset := c.headSize } } else p

def archHandleFault (c : Config) (p : Proc) (fault : BeginFault) : Option Proc :=
  (archHandleLoss p fault).map (skipHead c)

/-- `arch_create_open_file`; the file may have been created even if it fails. -/
def archCreateOpenFile (p : Proc) (fault : BeginFault) : Proc × Bool :=
  if p.tmpFile = none then
    if fault = .create then (p, false)
    else ({ p with tmpFile := some [] }, fault ≠ .head && fault ≠ .openFile)
  else (p, fault ≠ .openFile)

/-- The test in `arch_dbstor_archive_file` whether a file is to be made. -/
def setNeedFileArchive (c : Config) (p : Proc) (force : Bool) (redoLogFilesize : Nat) : Proc :=
  if force || decide (redoLogFilesize + p.record.offset ≥ c.archFileSize) then
    { p with needFileArchive := true }
  else p

/-- Where `arch_write_file_dbstor` starts to read. -/
def startReading (c : Config) (p : Proc) (startLsn : Nat) (endLsn : Option Nat)
    (redoLogFilesize : Nat) : Proc :=
  if c.noNas then { p with stage := .copying ⟨startLsn, 0, endLsn, redoLogFilesize⟩ }
  else
    { p with
      archExecute := true, writeFailed := false
      stage := .reading ⟨startLsn, p.record.curLsn, endLsn, redoLogFilesize⟩ }

/-- `arch_dbstor_archive_file` up to the first read. `redoLogFilesize` is what the storage
said before the call, and `forceEnd` the LSN up to which archiving is forced. -/
def beginArchive (c : Config) (p : Proc) (force : Bool) (forceEnd : Option Nat)
    (redoLogFilesize : Nat) (fault : BeginFault) : Proc :=
  -- the start of the reading is taken before the record may be set back
  let startLsn := p.record.curLsn + 1
  match archHandleFault c p fault with
  | none => failArchive p
  | some q =>
    match archCreateOpenFile (setNeedFileArchive c q force redoLogFilesize) fault with
    | (q, false) => failArchive q
    | (q, true) => startReading c q startLsn (if force then forceEnd else none) redoLogFilesize

/-- The batches from an LSN on, as many as the storage returns at once. -/
def readBatches (log : List Batch) (startLsn n : Nat) : List Batch :=
  (log.filter fun b => decide (startLsn ≤ b.lsn)).take n

def redoSize (bs : List Batch) : Nat := (bytesOf bs).length

/-- The end LSN of the reading is reached. -/
def readEnd (v : ReadVars) : Bool :=
  match v.endLsn with
  | none => false
  | some e => decide (v.lastLsn ≥ e)

/-- One turn of the loop of `arch_read_from_src` up to the tests at its end. -/
def readTurn (p : Proc) (v : ReadVars) (n : Nat) : Proc :=
  let bs := readBatches p.log v.startLsn n
  if bs = [] then { p with stage := .ending v.lastLsn false }
  else
    let last := Lib.lastKey Batch.lsn bs
    { p with
      rwBuf := p.rwBuf.put ⟨bs, last⟩
      stage := .checking ⟨last + 1, last, v.endLsn, v.leftSize - redoSize bs⟩ }

/-- The tests at the end of that loop. -/
def readCheck (c : Config) (p : Proc) (v : ReadVars) : Proc :=
  if readEnd v || decide (p.record.offset ≥ c.archFileSize) || decide (v.leftSize ≤ 0) ||
      p.writeFailed then
    { p with stage := .ending v.lastLsn false }
  else { p with stage := .reading v }

/-- The end of `arch_write_file`. -/
def finishWrite (p : Proc) (lastLsn : Nat) (readFailed : Bool) : Proc :=
  let q := { p with rwBuf := p.rwBuf.reset, archExecute := false }
  if readFailed then failArchive q
  else if p.writeFailed || p.record.curLsn != lastLsn then failArchive q
  else { q with record := { q.record with startLsn := some q.record.endLsn }, stage := .written }

/-- Data written to the temporary file; a file that is gone does not come back. -/
def writeTmp (c : Config) (p : Proc) (offset : Nat) (data : List Byte) : Option (List Byte) :=
  p.tmpFile.map fun file => writeAt file (offset - c.headSize) data

/-- The writing thread has written a buffer. -/
def writeDone (c : Config) (p : Proc) (offset : Nat) (d : Chunk) : Proc :=
  { p with
    tmpFile := writeTmp c p offset (bytesOf d.batches)
    record := { p.record with
      offset := p.record.offset + redoSize d.batches, curLsn := d.lastLsn }
    rwBuf := p.rwBuf.take
    inFlight := none }

/-- One turn of the loop of `arch_copy_file`. -/
def copyTurn (c : Config) (p : Proc) (v : ReadVars) (n : Nat) : Proc :=
  let bs := readBatches p.log v.startLsn n
  if bs = [] then
    { p with record := { p.record with startLsn := some p.record.endLsn }, stage := .written }
  else
    let last := Lib.lastKey Batch.lsn bs
    let v' : ReadVars := ⟨last + 1, last, v.endLsn, v.leftSize - redoSize bs⟩
    let q := { p with
      tmpFile := writeTmp c p p.record.offset (bytesOf bs)
      record := { p.record with offset := p.record.offset + redoSize bs, curLsn := last } }
    if readEnd v' || decide (q.record.offset ≥ c.archFileSize) || decide (v'.leftSize ≤ 0) then
      { q with record := { q.record with startLsn := some q.record.endLsn }, stage := .written }
    else { q with stage := .copying v' }

/-! ## The archive file -/

def archDbstorUpdateProgress (logRstId : Nat) (r : ArchRecord) : ArchRecord :=
  if r.rstId < logRstId then { r with rstId := logRstId, asn := 1 } else r

/-- The file that `arch_flush_head` and the renaming make of the temporary file: the bytes
up to `write_pos` count. -/
def archFile (c : Config) (logRstId : Nat) (r : ArchRecord) (tmp : List Byte) : ArchFile :=
  { rstId := logRstId
    asn := r.asn
    firstLsn := r.startLsn.getD 0
    lastLsn := r.curLsn
    content := tmp.take (r.offset - c.headSize) }

/-- The last LSN of the last recorded file. -/
def lastRecorded (files : List ArchFile) : Nat := ((files.getLast?).map ArchFile.lastLsn).getD 0

/-- The LSN for the recycling: `arch_log_recycle_file`, `log_recycle_get_arch_point`. -/
def recycleCall (p : Proc) : RecycleCall :=
  ⟨min p.rcyPoint p.record.endLsn, p.rcyPoint, lastRecorded p.files⟩

def archArchiveLogRecorded (files : List ArchFile) (rstId asn : Nat) : Bool :=
  files.any fun f => f.rstId == rstId && f.asn == asn

/-- `arch_dbstor_generate_arch_file` and the rest of `arch_dbstor_do_archive`; `none` if
the process aborts. -/
def generateArchFile (c : Config) (p : Proc) (f : EndFaults) : Option Proc :=
  if p.record.endLsn = p.record.curLsn then some (failArchive p)
  else
    let r := archDbstorUpdateProgress p.logRstId p.record
    match p.tmpFile with
    | none => some (failArchive p)
    | some tmp =>
      if f.flushFails then some (failArchive p)
      else
        let file := archFile c p.logRstId r tmp
        let r := { r with offset := c.headSize }
        if f.renameFails then some (failArchive p)
        else if archArchiveLogRecorded p.files p.logRstId r.asn then none
        else if f.sizeFails then
          -- the file gets its old name back, but the record keeps the new offset
          some { p with
            record := r
            tmpFile := if f.renameBackFails then none else some tmp
            needFileArchive := false
            stage := .idle }
        else
          let q := { p with
            record := { r with asn := r.asn + 1, endLsn := r.curLsn }
            tmpFile := none
            files := p.files ++ [file]
            needFileArchive := false
            stage := .idle }
          some { q with recycles := recycleCall q :: q.recycles }

/-- The end of a call of `arch_dbstor_do_archive`. -/
def endArchive (c : Config) (p : Proc) (f : EndFaults) : Option Proc :=
  if !p.needFileArchive then some { p with stage := .idle }
  else if f.waitClean then some (failArchive p)
  else generateArchFile c p f

/-! ## Steps -/

inductive Action where
  /-- A batch is appended to the log. -/
  | append (b : Batch)
  /-- The log continues under a new reset id. -/
  | resetLogs
  /-- The recovery point moves. -/
  | setRcyPoint (lsn : Nat)
  /-- The checkpoint recycles the log. -/
  | recycle
  /-- The temporary file gets lost. -/
  | lose
  | start (force : Bool) (forceEnd : Option Nat) (redoLogFilesize : Nat) (fault : BeginFault)
  | read (n : Nat)
  | readFails
  /-- No buffer is free, and a write has failed. -/
  | giveUp
  | check
  | finishWait
  | writeStart
  | writeDone
  /-- A write fails after `n` bytes. -/
  | writeFails (n : Nat)
  | copy (n : Nat)
  | copyFails (n : Nat)
  | finish (f : EndFaults)
deriving DecidableEq, Repr

def archStep (c : Config) (p : Proc) : Action → Option Proc
  | .append b =>
    if Lib.lastKey Batch.lsn p.log < b.lsn ∧ 0 < b.size then some { p with log := p.log ++ [b] }
    else none
  | .resetLogs => some { p with logRstId := p.logRstId + 1 }
  | .setRcyPoint lsn => some { p with rcyPoint := lsn }
  | .recycle => some { p with recycles := recycleCall p :: p.recycles }
  | .lose => some { p with tmpFile := none }
  | .start force forceEnd redoLogFilesize fault =>
    match p.stage with
    | .idle => some (beginArchive c p force forceEnd redoLogFilesize fault)
    | _ => none
  | .read n =>
    match p.stage with
    | .reading v => if p.rwBuf.canPut then some (readTurn p v n) else none
    | _ => none
  | .readFails =>
    match p.stage with
    | .reading v => if p.rwBuf.canPut then some { p with stage := .ending v.lastLsn true } else none
    | _ => none
  | .giveUp =>
    match p.stage with
    | .reading v =>
      if !p.rwBuf.canPut && p.writeFailed then some { p with stage := .ending v.lastLsn false }
      else none
    | _ => none
  | .check =>
    match p.stage with
    | .checking v => some (readCheck c p v)
    | _ => none
  | .finishWait =>
    match p.stage with
    | .ending lastLsn readFailed =>
      if p.rwBuf.isEmpty || p.writeFailed then some (finishWrite p lastLsn readFailed) else none
    | _ => none
  | .writeStart =>
    match p.inFlight, p.rwBuf.peek with
    | none, some d =>
      if p.archExecute then some { p with inFlight := some (p.record.offset, d) } else none
    | _, _ => none
  | .writeDone =>
    match p.inFlight with
    | some (offset, d) => some (writeDone c p offset d)
    | none => none
  | .writeFails n =>
    match p.inFlight with
    | some (offset, d) =>
      some { p with
        tmpFile := writeTmp c p offset ((bytesOf d.batches).take n)
        writeFailed := true
        inFlight := none }
    | none => none
  | .copy n =>
    match p.stage with
    | .copying v => some (copyTurn c p v n)
    | _ => none
  | .copyFails n =>
    match p.stage with
    | .copying v =>
      some (failArchive { p with
        tmpFile := writeTmp c p p.record.offset
          ((bytesOf (readBatches p.log v.startLsn p.log.length)).take n) })
    | _ => none
  | .finish f =>
    match p.stage with
    | .written => endArchive c p f
    | _ => none

/-! ## What is expected of the archive -/

/-- The recorded files have no gap: within a reset id they have consecutive numbers, each
starts where the one before it ends, and each holds exactly the batches of
its range. -/
structure NoGap (log : List Batch) (files : List ArchFile) : Prop where
  linked : ∀ rstId, (files.filter fun f => f.rstId == rstId).IsChain
    fun f g => g.asn = f.asn + 1 ∧ g.firstLsn = f.lastLsn
  content : ∀ f ∈ files, f.firstLsn < f.lastLsn ∧
    f.content = bytesOf (Lib.segment Batch.lsn log f.firstLsn f.lastLsn)

/-- A recycled LSN is archived and behind the recovery point. -/
def RecycleCall.Safe (r : RecycleCall) : Prop := r.lsn ≤ r.lastRecorded ∧ r.lsn ≤ r.rcyPoint

/-- A process that has just been started: its record is at the end of the last recorded
file, under the reset id of that file or the newer one of the log. -/
structure Proc.Fresh (p : Proc) : Prop where
  sorted : Lib.Ascending Batch.lsn p.log
  noGap : NoGap p.log p.files
  atEnd : p.record.endLsn = lastRecorded p.files
  bound : ∀ f ∈ p.files, f.lastLsn ≤ Lib.lastKey Batch.lsn p.log
  cur : p.record.curLsn = p.record.endLsn
  start : p.record.startLsn = none
  offset : p.record.offset = 0
  rstId : p.record.rstId ≤ p.logRstId
  older : ∀ f ∈ p.files, f.rstId ≤ p.record.rstId
  nextAsn : ∀ f, (p.files.filter fun f => f.rstId == p.record.rstId).getLast? = some f →
    p.record.asn = f.asn + 1 ∧ f.lastLsn = p.record.endLsn
  rwBuf : p.rwBuf.Holds []
  inFlight : p.inFlight = none
  archExecute : p.archExecute = false
  needFileArchive : p.needFileArchive = false
  stage : p.stage = .idle
  recycles : p.recycles = []

end Cantian.Archive.Redo
