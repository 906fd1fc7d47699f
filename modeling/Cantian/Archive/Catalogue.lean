import Cantian.Lib.Ring
import Cantian.Lib.Transition

/-!
# The archive catalogue of a node

`knl_archive.c` keeps, for every node, a ring of `CT_MAX_ARCH_NUM` archive
control entries. `archived_start` and `archived_end` bound the span of the
ring in use; an entry of the span with `recid = 0` is one whose file has
been cleaned. A recording fills the slot at `archived_end`; a cleaning
walks the span from `archived_start` and removes files.

The state carries one history variable, `live`: the files recorded and not
yet removed, each with the slot it was recorded in. No function of the
source reads it.
-/

namespace Cantian.Archive

def ctMaxArchNum : Nat := 10240

def bakMaxFileNum : Nat := 2048 * 20

/-- Arithmetic of `uint32`, modulo 2^32. -/
def uint32 (x : Int) : Nat := (x % 4294967296).toNat

/-- The conversion of an `int64` to `uint64`, modulo 2^64. -/
def uint64 (x : Int) : Nat := (x % 18446744073709551616).toNat

/-- The parts of a `log_point_t` that the cleaning compares. -/
structure LogPoint where
  rstId : Nat
  asn : Nat
  lsn : Nat
deriving DecidableEq, Repr

def logPointFileLt (l r : LogPoint) : Bool :=
  l.rstId < r.rstId || (l.rstId == r.rstId && l.asn < r.asn)

def logPointFileLtCheck (l r : LogPoint) : Bool :=
  l.rstId < r.rstId || (l.rstId == r.rstId && l.lsn < r.lsn)

/-- `arch_ctrl_t`: one slot of the catalogue. -/
structure ArchCtrl where
  recid : Nat
  destId : Nat
  rstId : Nat
  asn : Nat
  stamp : Int
  blocks : Int
  blockSize : Int
  realSize : Int
  first : Nat
  last : Nat
  name : String
  startLsn : Nat
  endLsn : Nat
deriving DecidableEq, Repr

/-- The fields of a `log_file_head_t` that a recording copies. -/
structure LogFileHead where
  first : Nat
  last : Nat
  writePos : Nat
  asn : Nat
  blockSize : Int
  rstId : Nat
  firstLsn : Nat
  lastLsn : Nat
deriving DecidableEq, Repr

/-- The catalogue of one node with the archive process that serves it. -/
structure Catalogue where
  archCtrl : Nat → ArchCtrl
  archivedStart : Nat
  archivedEnd : Nat
  /-- `proc_ctx->curr_arch_size`. -/
  currArchSize : Int
  /-- `arch_ctx->archived_recid`. -/
  archivedRecid : Nat
  /-- `proc_ctx->last_archived_log`: reset id and asn. -/
  lastArchivedLog : Nat × Nat
  /-- History: the files recorded and not removed, with their slots. -/
  live : List (Nat × ArchCtrl)

/-! ## Reading the catalogue -/

def archGetFilesNum (c : Catalogue) : Nat :=
  uint32 ((c.archivedEnd : Int) - c.archivedStart + ctMaxArchNum) % ctMaxArchNum

def archNeedWaitClean (c : Catalogue) : Bool :=
  (c.archivedEnd + 1) % ctMaxArchNum == c.archivedStart

/-- The slot the `i`-th round of a walk over the span looks at. -/
def locator (c : Catalogue) (i : Nat) : Nat :=
  Lib.slotAt ctMaxArchNum c.archivedStart i

def archGetArchivedLogInfo (c : Catalogue) (rstId asn : Nat) : Option ArchCtrl :=
  ((List.range (archGetFilesNum c)).map fun i => c.archCtrl (locator c i)).find? fun ctrl =>
    ctrl.recid != 0 && (ctrl.asn == asn && ctrl.rstId == rstId)

/-! ## Recording -/

/-- The archive file handed to a recording: its name, the head of the log,
the size reported by the device (`none` when `arch_get_real_size` fails) and
the time of the timer. -/
structure ArchFile where
  name : String
  head : LogFileHead
  realSize : Option Int
  now : Int

/-- `arch_record_arch_ctrl`: what the slot becomes. Without dbstor the two LSN
fields keep what the slot held before. -/
def archRecordArchCtrl (enableDbs : Bool) (old : ArchCtrl) (recid : Nat) (f : ArchFile)
    (realFileSize : Int) : ArchCtrl where
  recid := recid
  destId := 0
  stamp := f.now
  name := f.name
  blockSize := f.head.blockSize
  blocks := f.head.writePos / f.head.blockSize
  first := f.head.first
  last := f.head.last
  rstId := f.head.rstId
  asn := f.head.asn
  realSize := realFileSize
  startLsn := if enableDbs then f.head.firstLsn else old.startLsn
  endLsn := if enableDbs then f.head.lastLsn else old.endLsn

/-- `db_save_arch_ctrl`, as far as the catalogue in memory goes: the two bounds
are set before the control files are written. -/
def dbSaveArchCtrl (c : Catalogue) (startAsn endAsn : Nat) : Catalogue :=
  { c with archivedStart := startAsn, archivedEnd := endAsn }

/-- `arch_save_archinfo`, when the head flush and the saving succeed. -/
def archSaveArchinfo (enableDbs : Bool) (c : Catalogue) (f : ArchFile) (realFileSize : Int)
    (archivedStart archivedEnd endPos : Nat) : Catalogue :=
  let ctrl := archRecordArchCtrl enableDbs (c.archCtrl archivedEnd) c.archivedRecid f realFileSize
  let last := c.lastArchivedLog
  let c := { c with
    archCtrl := fun l => if l = archivedEnd then ctrl else c.archCtrl l
    currArchSize := c.currArchSize + realFileSize
    lastArchivedLog :=
      if last.1 < f.head.rstId || (last.1 == f.head.rstId && last.2 < f.head.asn) then
        (f.head.rstId, f.head.asn)
      else last
    live := (archivedEnd, ctrl) :: c.live }
  dbSaveArchCtrl c archivedStart endPos

/-- `arch_record_archinfo`; `none` when it aborts the process. A file whose size
cannot be read, or is not positive, is not recorded. -/
def archRecordArchinfo (enableDbs : Bool) (c : Catalogue) (f : ArchFile) : Option Catalogue :=
  let endPos := (c.archivedEnd + 1) % ctMaxArchNum
  match f.realSize with
  | none => some c
  | some realFileSize =>
    if realFileSize ≤ 0 then some c
    else if endPos = c.archivedStart then none
    else
      let c := { c with archivedRecid := uint32 (c.archivedRecid + 1) }
      some (archSaveArchinfo enableDbs c f realFileSize c.archivedStart c.archivedEnd endPos)

/-! ## Cleaning -/

/-- `knl_alterdb_archivelog_t`, the fields that a cleaning reads. -/
structure AlterdbArchivelog where
  allDelete : Bool
  forceDelete : Bool
  untilTime : Int

/-- The kind of archive process; it selects the log point check of
`g_arch_func`. -/
inductive ArchDataType where
  | file
  | dbstor
  | dbstorStandby
deriving DecidableEq, Repr

/-- What `arch_log_point_file` and `arch_log_point_dbstor` share: the point of the
file is before the recovery point and, unless deletion is forced, before the
backup point. -/
def archLogPoint (lt : LogPoint → LogPoint → Bool) (curr rcyPoint backupRcy : LogPoint)
    (forceDelete : Bool) : Bool :=
  if !lt curr rcyPoint then false
  else if !forceDelete then lt curr backupRcy
  else true

def archLogPointFile := archLogPoint logPointFileLt

def archLogPointDbstor := archLogPoint logPointFileLtCheck

/-- `g_arch_func[data_type].check_log_point_func`. -/
def checkLogPointFunc : ArchDataType → LogPoint → LogPoint → LogPoint → Bool → Bool
  | .file => archLogPointFile
  | .dbstor => archLogPointDbstor
  | .dbstorStandby => archLogPointDbstor

/-- The part of the backup context that decides which log files a backup still
needs. `copyStage` says that the backup is in its data or its log stage. -/
structure BakContext where
  notWork : Bool
  isBuilding : Bool
  dataOnly : Bool
  copyStage : Bool
  startAsn : Nat
  bakDone : Nat → Bool

def bakLogfileNotBacked (b : BakContext) (asn : Nat) : Bool :=
  !(if b.copyStage then
      if b.startAsn ≤ asn ∧ asn - b.startAsn < bakMaxFileNum then b.bakDone (asn - b.startAsn)
      else decide (asn < b.startAsn)
    else false)

def archNeededByBackup (b : BakContext) (asn : Nat) : Bool :=
  if !b.notWork || b.isBuilding then bakLogfileNotBacked b asn
  else if b.dataOnly then decide (b.startAsn ≤ asn)
  else false

def archGetCtrlRealSize (ctrl : ArchCtrl) : Int :=
  if ctrl.realSize = 0 then ctrl.blocks * ctrl.blockSize else ctrl.realSize

/-- The arguments of a cleaning and what the devices do during it: `removeFails`
and `saveFails` say for which slots the file cannot be removed and the
control files cannot be written. -/
structure CleanArgs where
  rcyPoint : LogPoint
  backupRcy : LogPoint
  targetSize : Nat
  defn : AlterdbArchivelog
  dataType : ArchDataType
  removeFails : Nat → Bool
  saveFails : Nat → Bool

def archCanBeCleaned (a : CleanArgs) (ctrl : ArchCtrl) : Bool :=
  if !a.defn.allDelete && decide (ctrl.stamp > a.defn.untilTime) then false
  else checkLogPointFunc a.dataType ⟨ctrl.rstId, ctrl.asn, ctrl.endLsn⟩ a.rcyPoint a.backupRcy
    a.defn.forceDelete

/-- The locals of a cleaning that its rounds change. -/
structure CleanLocals where
  cat : Catalogue
  cleanNum : Nat
  cleanSkip : Bool

/-- Removing the file of slot `l`: the slot is marked and the size goes down. -/
def removeFile (c : Catalogue) (l : Nat) : Catalogue :=
  let ctrl := c.archCtrl l
  { c with
    archCtrl := fun l' => if l' = l then { ctrl with recid := 0 } else c.archCtrl l'
    currArchSize := c.currArchSize - archGetCtrlRealSize ctrl
    live := c.live.filter fun p => p != (l, ctrl) }

/-- The rounds of a cleaning over the slots `ls`, until one of them leaves the
loop. `needed` tells for which asn a backup stops the walk and `tracksSkip`
whether the function has the flag `clean_skip`. The start bound saved after
each removal is the slot after the removed one. -/
def cleanRounds (needed : Nat → Bool) (tracksSkip : Bool) (a : CleanArgs) (archivedEnd : Nat) :
    List Nat → CleanLocals → CleanLocals
  | [], v => v
  | l :: ls, v =>
    let ctrl := v.cat.archCtrl l
    let counted := if v.cleanSkip then v.cleanNum else v.cleanNum + 1
    if needed ctrl.asn then v
    else if ctrl.recid = 0 then
      cleanRounds needed tracksSkip a archivedEnd ls { v with cleanNum := counted }
    else if !archCanBeCleaned a ctrl then
      cleanRounds needed tracksSkip a archivedEnd ls { v with cleanSkip := tracksSkip }
    else if a.removeFails l then v
    else
      let cat := dbSaveArchCtrl (removeFile v.cat l) (l + 1) archivedEnd
      let v := { v with cat := cat, cleanNum := counted }
      if a.saveFails l then v
      else if uint64 cat.currArchSize < a.targetSize then v
      else cleanRounds needed tracksSkip a archivedEnd ls v

/-- The slots of the span, in the order of a walk. -/
def spanSlots (c : Catalogue) : List Nat := (List.range (archGetFilesNum c)).map (locator c)

def archDoRealClean (b : BakContext) (a : CleanArgs) (c : Catalogue) : CleanLocals :=
  cleanRounds (archNeededByBackup b) true a c.archivedEnd (spanSlots c) ⟨c, 0, false⟩

/-- `arch_clean_arch_files_standby`: no backup is asked and nothing counts as
skipped. -/
def archCleanArchFilesStandby (a : CleanArgs) (c : Catalogue) : CleanLocals :=
  cleanRounds (fun _ => false) false a c.archivedEnd (spanSlots c) ⟨c, 0, false⟩

/-! ## Runs -/

/-- What happens to a catalogue. -/
inductive CatAction where
  | record (f : ArchFile)
  | realClean (b : BakContext) (a : CleanArgs)
  | cleanStandby (a : CleanArgs)

/-- One step. A recording is made only when `arch_need_wait_clean` is false. -/
def catStep (enableDbs : Bool) (c : Catalogue) : CatAction → Option Catalogue
  | .record f => if archNeedWaitClean c then none else archRecordArchinfo enableDbs c f
  | .realClean b a => some (archDoRealClean b a c).cat
  | .cleanStandby a => some (archCleanArchFilesStandby a c).cat

/-- A catalogue in which nothing has been recorded. -/
structure Catalogue.Fresh (c : Catalogue) : Prop where
  archivedStart : c.archivedStart = 0
  archivedEnd : c.archivedEnd = 0
  archivedRecid : c.archivedRecid = 0
  live : c.live = []

end Cantian.Archive
