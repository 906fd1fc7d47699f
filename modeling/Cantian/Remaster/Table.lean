import Cantian.Dcs.Types
import Cantian.Lib.Chain

/-!
# Remaster: the partition table

Every page and lock resource belongs to one of `DRC_MAX_PART_NUM`
partitions, and every partition has a master instance. When the membership
of the cluster changes, the reformer computes a new assignment in
`drc_execute_remaster` (`cluster/dtc_drc.c`): `drc_scaleout_remaster` gives
the joining instances their share, then `drc_scalein_remaster` spreads the
partitions of the leaving, of the aborting and of the failing instances.

The tables are the source's: `part_map` holds each partition's master and
the link to the next partition of that master, `inst_part_tbl` holds each
instance's first partition and their number. The target copies are changed
in place, `part_map` and `inst_part_tbl` are not. `none` is a panic, an
error return or an access beyond the end of an array.
-/

namespace Cantian.Remaster

open Function

open Cantian.Dcs (InstId)

/-! ## Tables -/

/-- Partition ids, `0 .. DRC_MAX_PART_NUM - 1`. -/
abbrev PartId := Fin 1024

/-- `drc_part_status_e`. -/
inductive PartStatus where
  | init
  | normal
  | waitMigrate
  | migrating
  | waitRecovery
  | recovering
  | migrateComplete
  | migrateFail
deriving DecidableEq, Repr

/-- `drc_part_t`. -/
structure Part where
  instId : InstId
  status : PartStatus
  next : PartId
deriving DecidableEq, Repr

/-- `drc_inst_part_t`. -/
structure InstPart where
  first : PartId
  last : PartId
  count : Nat
  expectedNum : Nat
  isUsed : Bool
deriving DecidableEq, Repr

/-- `drc_remaster_task_t`. -/
structure RemasterTask where
  exportInst : InstId
  importInst : InstId
  partId : PartId
  status : PartStatus
deriving DecidableEq, Repr

/-- The target tables of `drc_remaster_mngr_t`. `remasterTaskSet` holds the
first `task_num` entries of the array. -/
structure RemasterMngr where
  targetInstPartTbl : InstId → InstPart
  targetPartMap : PartId → Part
  remasterTaskSet : List RemasterTask

/-- `drc_part_mngr_t`. -/
structure PartMngr where
  instNum : Nat
  remasterInst : InstId
  mgrtFailList : Bool
  instPartTbl : InstId → InstPart
  partMap : PartId → Part
  remasterMngr : RemasterMngr

/-- What the remaster reads of the session: whether the control version is
at least `DRC_IN_REFORMER_MODE_RELEASE_VERSION`, and the attribute
`drc_in_reformer_mode`. -/
structure Session where
  releaseVersion : Bool
  drcInReformerMode : Bool

/-- The new instances get nothing: all partitions belong on the reformer. -/
def Session.reformerMode (s : Session) : Bool := s.releaseVersion && s.drcInReformerMode

/-- `instance_list_t`: the whole array and how many entries of it count.
`rc_init_inst_list` resets the number only, so the rest holds old ids. -/
structure InstanceList where
  instIdList : List InstId
  instIdCount : Nat

/-- The ids of the list. -/
def InstanceList.ids (l : InstanceList) : List InstId := l.instIdList.take l.instIdCount

/-- The lists of `reform_info_t` that the remaster reads. -/
structure ReformInfo where
  join : InstanceList
  leave : InstanceList
  abort : InstanceList
  fail : InstanceList

/-! ## Loops over the instances -/

/-- The loop over all instances that numbers the used ones with
`inst_loop_seq`. The body changes the entry of its instance and appends
tasks. -/
def instLoop (body : InstId → Nat → InstPart → InstPart × List RemasterTask) :
    List InstId → Nat → RemasterMngr → RemasterMngr
  | [], _, r => r
  | i :: is, seq, r =>
    let e := r.targetInstPartTbl i
    instLoop body is (if e.isUsed then seq + 1 else seq)
      { r with
        targetInstPartTbl := update r.targetInstPartTbl i (body i seq e).1
        remasterTaskSet := r.remasterTaskSet ++ (body i seq e).2 }

/-- A task as the first loop leaves it: the import instance is still unset. -/
def exportTask (i : InstId) (p : PartId) : RemasterTask := ⟨i, 0, p, .init⟩

/-- The expected number of partitions of the used instance with number `seq`. -/
def expectedShare (instNum seq : Nat) : Nat :=
  if seq < 1024 % instNum then 1024 / instNum + 1 else 1024 / instNum

/-- `drc_set_remaster_taskset_export_inst`: the surplus is taken off the
front of the list. -/
def drcSetRemasterTasksetExportInst (map : PartId → Part) (i : InstId) (e : InstPart) :
    InstPart × List RemasterTask :=
  if e.expectedNum < e.count then
    let next := fun p => (map p).next
    let mgrtNum := e.count - e.expectedNum
    ({ e with first := next^[mgrtNum] e.first, count := e.expectedNum },
      (Lib.chain next e.first mgrtNum).map (exportTask i))
  else (e, [])

/-- The loop body of `drc_set_remaster_taskset` and its sibling: the used
instance gets its expected number and exports what it has beyond it. -/
def exportBody (expected : InstId → Nat → Nat) (map : PartId → Part) (i : InstId) (seq : Nat)
    (e : InstPart) : InstPart × List RemasterTask :=
  if e.isUsed then
    drcSetRemasterTasksetExportInst map i { e with expectedNum := expected i seq }
  else (e, [])

def drcSetRemasterTaskset (instNum : Nat) (r : RemasterMngr) : RemasterMngr :=
  instLoop (exportBody (fun _ seq => expectedShare instNum seq) r.targetPartMap)
    (List.finRange 64) 0 r

def drcSetRemasterTasksetDrcInReformerMode (remasterInst : InstId) (r : RemasterMngr) :
    RemasterMngr :=
  instLoop (exportBody (fun i _ => if remasterInst = i then 1024 else 0) r.targetPartMap)
    (List.finRange 64) 0 r

/-- The loop body of `drc_scalein_remaster`: members get their new share,
everything that another instance has is taken off it. The links are those of
`part_map`, not of the target. -/
def scaleinBody (instNum : Nat) (map : PartId → Part) (i : InstId) (seq : Nat) (e : InstPart) :
    InstPart × List RemasterTask :=
  if e.isUsed then ({ e with expectedNum := expectedShare instNum seq }, [])
  else if 0 < e.count then
    ({ e with count := 0 },
      (Lib.chain (fun p => (map p).next) e.first e.count).map (exportTask i))
  else (e, [])

/-! ## Handing the exported partitions out -/

/-- The partition of the task becomes the first one of instance `inst`. -/
def importPart (r : RemasterMngr) (task : RemasterTask) (inst : InstId) (status : PartStatus) :
    RemasterMngr :=
  let e := r.targetInstPartTbl inst
  { targetPartMap := update r.targetPartMap task.partId
      { instId := inst, status := status, next := e.first }
    targetInstPartTbl := update r.targetInstPartTbl inst
      { e with
        first := task.partId
        last := if e.count = 0 then task.partId else e.last
        count := e.count + 1 }
    remasterTaskSet := r.remasterTaskSet ++ [{ task with importInst := inst, status := status }] }

/-- Where the second loop of `drc_scaleout_remaster` gets to: a full instance
of the array of new ids is passed by, without a look at how many there are. -/
def nextNew (newIdArray : List InstId) (r : RemasterMngr) (loop : Nat) : Option (Nat × InstId) :=
  newIdArray[loop]?.bind fun cur =>
    let e := r.targetInstPartTbl cur
    let loop := if e.expectedNum ≤ e.count then loop + 1 else loop
    newIdArray[loop]?.map fun inst => (loop, inst)

/-- The second loop of `drc_scaleout_remaster`. -/
def scaleoutImport (newIdArray : List InstId) :
    List RemasterTask → Nat → RemasterMngr → Option RemasterMngr
  | [], _, r => some r
  | task :: tasks, loop, r =>
    (nextNew newIdArray r loop).bind fun (loop, inst) =>
      scaleoutImport newIdArray tasks loop (importPart r task inst .waitMigrate)

/-- An instance that the second loop of `drc_scalein_remaster` stops at. -/
def InstPart.takes (e : InstPart) : Bool := e.isUsed && decide (e.count < e.expectedNum)

/-- The `while` loop of `drc_scalein_remaster`. -/
def nextMember (r : RemasterMngr) (loop : Nat) : Option InstId :=
  ((List.finRange 64).drop loop).find? fun i => (r.targetInstPartTbl i).takes

/-- The second loop of `drc_scalein_remaster`. -/
def scaleinImport (status : PartStatus) :
    List RemasterTask → Nat → RemasterMngr → Option RemasterMngr
  | [], _, r => some r
  | task :: tasks, loop, r =>
    (nextMember r loop).bind fun inst =>
      scaleinImport status tasks inst (importPart r task inst status)

/-! ## The remaster -/

/-- The entries of joining instances: `first` is left as it is. -/
def markNew (tbl : InstId → InstPart) (ids : List InstId) : InstId → InstPart :=
  ids.foldl (fun tbl i => update tbl i { tbl i with isUsed := true, count := 0 }) tbl

/-- The entries of departing instances. -/
def markDeleted (tbl : InstId → InstPart) (ids : List InstId) : InstId → InstPart :=
  ids.foldl (fun tbl i => update tbl i { tbl i with isUsed := false, expectedNum := 0 }) tbl

def drcScaleoutRemaster (s : Session) (newIdArray : List InstId) (newNum : Nat) (m : PartMngr) :
    Option PartMngr :=
  if newNum = 0 then some m
  else if (newIdArray.take newNum).any fun i => (m.instPartTbl i).isUsed then none
  else
    let instNum := newNum + m.instNum
    let r := { m.remasterMngr with
      targetInstPartTbl := markNew m.remasterMngr.targetInstPartTbl (newIdArray.take newNum) }
    let r := if s.reformerMode then drcSetRemasterTasksetDrcInReformerMode m.remasterInst r
      else drcSetRemasterTaskset instNum r
    (scaleoutImport newIdArray r.remasterTaskSet 0 { r with remasterTaskSet := [] }).map fun r =>
      { m with instNum := instNum, remasterMngr := r }

def drcScaleinRemaster (deleteIdArray : List InstId) (deleteNum : Nat) (m : PartMngr)
    (isAbort : Bool) : Option PartMngr :=
  if deleteNum = 0 ∨ m.instNum ≤ deleteNum then none
  else if (deleteIdArray.take deleteNum).any fun i => !(m.instPartTbl i).isUsed then none
  else
    let instNum := m.instNum - deleteNum
    let r := { m.remasterMngr with
      targetInstPartTbl :=
        markDeleted m.remasterMngr.targetInstPartTbl (deleteIdArray.take deleteNum) }
    let startTaskNum := r.remasterTaskSet.length
    let r := instLoop (scaleinBody instNum m.partMap) (List.finRange 64) 0 r
    let status := if isAbort then .waitRecovery else .waitMigrate
    (scaleinImport status (r.remasterTaskSet.drop startTaskNum) 0
      { r with remasterTaskSet := r.remasterTaskSet.take startTaskNum }).map fun r =>
      { m with
        instNum := instNum
        remasterMngr := if isAbort then
            -- no migrate for abort inst
            { r with remasterTaskSet := r.remasterTaskSet.take startTaskNum }
          else r }

def drcIntRemasterTarget (m : PartMngr) : PartMngr :=
  { m with remasterMngr := ⟨m.instPartTbl, m.partMap, []⟩ }

def scaleoutUnlessEmpty (s : Session) (l : InstanceList) (m : PartMngr) : Option PartMngr :=
  if 0 < l.instIdCount then drcScaleoutRemaster s l.instIdList l.instIdCount m else some m

def scaleinUnlessEmpty (l : InstanceList) (enabled isAbort : Bool) (m : PartMngr) :
    Option PartMngr :=
  if enabled = true ∧ 0 < l.instIdCount then
    drcScaleinRemaster l.instIdList l.instIdCount m isAbort
  else some m

/-- `drc_execute_remaster`, up to the assignment of the tasks. -/
def drcExecuteRemaster (s : Session) (m : PartMngr) (info : ReformInfo) : Option PartMngr := do
  let m ← scaleoutUnlessEmpty s info.join (drcIntRemasterTarget m)
  let m ← scaleinUnlessEmpty info.leave true false m
  let m ← scaleinUnlessEmpty info.abort m.mgrtFailList true m
  scaleinUnlessEmpty info.fail m.mgrtFailList true m

/-! ## What a table has to be -/

/-- The list of instance `i`. -/
def partsOf (tbl : InstId → InstPart) (map : PartId → Part) (i : InstId) : List PartId :=
  Lib.chain (fun p => (map p).next) (tbl i).first (tbl i).count

/-- The list of each instance is exactly the partitions mapped to it. -/
def ListsExact (tbl : InstId → InstPart) (map : PartId → Part) : Prop :=
  ∀ i, (partsOf tbl map i).Nodup ∧ ∀ p, p ∈ partsOf tbl map i ↔ (map p).instId = i

/-- How many instances are used. -/
def usedNum (tbl : InstId → InstPart) : Nat :=
  (List.finRange 64).countP fun i => (tbl i).isUsed

/-- A partition table between two reforms. -/
structure WellFormed (m : PartMngr) : Prop where
  mapped : ∀ p, (m.instPartTbl (m.partMap p).instId).isUsed = true
  lists : ListsExact m.instPartTbl m.partMap
  instNum : m.instNum = usedNum m.instPartTbl

end Cantian.Remaster
