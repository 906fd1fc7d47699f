import Cantian.Lib.Transition

/-!
# Redo buffers and group commit

Sessions end their atomic operations with `log_write`, which reserves room
for the redo group in a public buffer under the buffer's lock and copies the
group without it; a slot byte of the buffer is 1 until the copy is done. The
buffers form two sets. `log_flush` switches the set that is written to,
waits for the copies into the other one, and writes its groups as one batch.
`log_commit` queues the session; the one that gets `commit_lock` flushes for
all that are queued.

A section under a lock is one step, except where it waits for others: a
flush is a step for the switch, one for each buffer, one for the write and
one for its end; a session that has locked a buffer takes its room in a
step of its own, so that a switch which does not take the buffer locks can
come in between. The database is ready and not read-only throughout; a
failed write aborts the process. The waits for a standby and the raft mode
are left out.
-/

namespace Cantian.Log

def logBufSlotCount : Nat := 8

/-- What does not change at run time: the number and the size of the buffers, the
size of a group without entries, and whether the log is in the object store
(`cm_dbs_is_enable_dbs`). -/
structure Config where
  bufCount : Nat
  bufSize : Nat
  groupHead : Nat
  dbs : Bool
  bufCount_pos : 0 < bufCount

/-- A redo group. `lfn` is `session->curr_lfn` at the moment the group gets its
place; the log does not store it. -/
structure Group where
  session : Nat
  size : Nat
  lsn : Nat
  lfn : Nat
deriving DecidableEq, Repr

/-- `log_buffer_t`. A slot that is 1 is shown with the group that is being copied. -/
structure Buffer where
  lock : Option Nat := none
  slots : List (Option Group) := List.replicate logBufSlotCount none
  groups : List Group := []
  writePos : Nat := 0
  lsn : Nat := 0
deriving DecidableEq, Repr

/-- `value == LOG_BUF_SLOT_FULL`. -/
def Buffer.slotsFull (b : Buffer) : Bool := b.slots.all Option.isSome

/-- `value == 0`. -/
def Buffer.slotsClear (b : Buffer) : Bool := b.slots.all Option.isNone

/-- The section of `log_write` under the buffer lock; the lock is released. -/
def Buffer.reserve (b : Buffer) (g : Group) : Buffer :=
  { lock := none
    slots := b.slots.set (b.slots.findIdx Option.isNone) (some g)
    groups := b.groups ++ [g]
    writePos := b.writePos + g.size
    lsn := if g.lsn > b.lsn then g.lsn else b.lsn }

/-- `log_assemble_buffer`; `buf->lsn` is only reset when it is the greatest so far. -/
def Buffer.assembled (b : Buffer) (maxLsn : Nat) : Buffer :=
  { b with groups := [], writePos := 0, lsn := if b.lsn > maxLsn then 0 else b.lsn }

structure Batch where
  lfn : Nat
  lsn : Nat
  groups : List Group
deriving DecidableEq, Repr

/-- `log_flush` after the switch: the buffers that are not `handled`, and what is in
`logwr_buf`; then the batch that is on disk. -/
inductive FlushStage where
  | assembling (todo : List Nat) (parts : List Group) (maxLsn : Nat)
  | written (b : Batch)
deriving DecidableEq, Repr

/-- The holder of `flush_lock`; `caller` is the session that called `log_flush`, or
`none` for a background thread. -/
structure Flush where
  caller : Option Nat
  stage : FlushStage
deriving DecidableEq, Repr

/-- The part of `log_context_t` that writers and flushes use. `fid` is `!wid`.
`disk` are the batches on disk, `copied` the groups whose copy is done. -/
structure Area where
  bufs : Nat → Bool → Buffer
  wid : Bool
  bufLfn : Bool → Nat
  lsn : Nat
  lfn : Nat
  flushedLfn : Nat
  flushedLsn : Nat
  flush : Option Flush
  disk : List Batch
  copied : List Group

/-- `session->log_progress`. -/
inductive Progress where
  | pending
  | waiting
  | completed
deriving DecidableEq, Repr

/-- Where a session is. The stages from `entering` on are inside `log_commit`; from
`electing` to `flushed` the session holds `commit_lock`. -/
inductive Stage where
  | idle
  /-- In the loop of `log_write`. -/
  | writing (size : Nat)
  /-- Holds the lock of its buffer in the given set. -/
  | locked (size : Nat) (set : Bool)
  /-- Found too little room; about to call `log_flush`. -/
  | noSpace (size : Nat)
  | makingSpace (size : Nat)
  /-- In `log_copy`. -/
  | copying (set : Bool) (slot : Nat) (g : Group)
  /-- `curr_lfn` is not yet flushed. -/
  | entering
  /-- In the loop of `log_commit_try_lock`. -/
  | waiting
  | electing
  /-- Has taken the queue; about to call `log_flush`. -/
  | leading (batch : List Nat)
  | flushing (batch : List Nat)
  | flushed (batch : List Nat)
  /-- In `log_set_commit_progress`, with the sessions that are left. -/
  | completing (batch : List Nat)
  /-- `log_commit` has returned. -/
  | committed
deriving DecidableEq, Repr

/-- `written` are the groups of all atomic operations of the session. -/
structure Session where
  stage : Stage := .idle
  currLfn : Nat := 0
  progress : Progress := .completed
  written : List Group := []
deriving DecidableEq, Repr

structure Ctx extends Area where
  sessions : Nat → Session
  txQueue : List Nat
  commitLock : Option Nat

/-- After start-up: `buf_lfn` follows from the last lfn of the recovered log. -/
structure Ctx.Fresh (x : Ctx) : Prop where
  bufs : ∀ i set, x.bufs i set = {}
  wid : x.wid = false
  bufLfn₀ : x.bufLfn false = x.lfn + 1
  bufLfn₁ : x.bufLfn true = x.lfn + 2
  flushedLfn : x.flushedLfn = 0
  flush : x.flush = none
  disk : x.disk = []
  copied : x.copied = []
  sessions : ∀ s, x.sessions s = {}
  txQueue : x.txQueue = []
  commitLock : x.commitLock = none

/-- `session->id % ctx->buf_count`. -/
def Config.bufId (c : Config) (s : Nat) : Nat := s % c.bufCount

def Area.setBuf (a : Area) (i : Nat) (set : Bool) (b : Buffer) : Area :=
  { a with bufs := fun j t => if j = i ∧ t = set then b else a.bufs j t }

def Ctx.setSession (x : Ctx) (s : Nat) (v : Session) : Ctx :=
  { x with sessions := Function.update x.sessions s v }

def Ctx.setStage (x : Ctx) (s : Nat) (st : Stage) : Ctx :=
  x.setSession s { x.sessions s with stage := st }

/-! ## Writing a group -/

/-- `log_atomic_op_end` reaches `log_write`. A group without entries is not written;
it takes an LSN when a page has changed. -/
def atomicOpEnd (c : Config) (x : Ctx) (s size : Nat) (changed : Bool) : Option Ctx :=
  match (x.sessions s).stage with
  | .idle | .committed =>
    if size ≤ c.groupHead then
      some { x.setStage s .idle with lsn := if changed then x.lsn + 1 else x.lsn }
    else
      some (x.setStage s (.writing size))
  | _ => none

/-- The turn of `log_write_try_lock` that succeeds: the lock is free, not all slots are
taken, and `wid` has not changed. -/
def logWriteTryLock (c : Config) (x : Ctx) (s : Nat) : Option Ctx :=
  match (x.sessions s).stage with
  | .writing size =>
    let b := x.bufs (c.bufId s) x.wid
    if b.lock = none ∧ b.slotsFull = false then
      some ({ x with toArea := x.setBuf (c.bufId s) x.wid { b with lock := some s } }.setSession s
        { x.sessions s with stage := .locked size x.wid, currLfn := x.bufLfn x.wid })
    else none
  | _ => none

/-- The group that session `s` writes next. -/
def Ctx.nextGroup (x : Ctx) (s size : Nat) : Group :=
  { session := s, size := size, lsn := x.lsn + 1, lfn := (x.sessions s).currLfn }

/-- `log_write` after the lock: it takes the room, or unlocks and flushes if there is too little. -/
def logWrite (c : Config) (x : Ctx) (s : Nat) : Option Ctx :=
  match (x.sessions s).stage with
  | .locked size set =>
    let b := x.bufs (c.bufId s) set
    if size ≤ c.bufSize - b.writePos then
      let g := x.nextGroup s size
      some ({ x with
        toArea := { x.setBuf (c.bufId s) set (b.reserve g) with lsn := x.lsn + 1 } }.setSession s
          { x.sessions s with
            stage := .copying set (b.slots.findIdx Option.isNone) g
            written := (x.sessions s).written ++ [g] })
    else
      some ({ x with
        toArea := x.setBuf (c.bufId s) set { b with lock := none } }.setStage s (.noSpace size))
  | _ => none

/-- `log_copy` is done: `buf->slots[cur_slot] = 0`. -/
def logCopy (c : Config) (x : Ctx) (s : Nat) : Option Ctx :=
  match (x.sessions s).stage with
  | .copying set slot g =>
    let b := x.bufs (c.bufId s) set
    some ({ x with
      toArea := { x.setBuf (c.bufId s) set { b with slots := b.slots.set slot none } with
        copied := g :: x.copied } }.setStage s .idle)
  | _ => none

/-! ## Flushing -/

/-- `log_need_flush`. -/
def Area.needFlush (c : Config) (a : Area) : Bool :=
  (List.range c.bufCount).any fun i =>
    !(a.bufs i a.wid).slotsClear || (a.bufs i a.wid).writePos != 0

/-- The stage of a caller of `log_flush` during the flush. -/
def Stage.callFlush : Stage → Option Stage
  | .leading batch => some (.flushing batch)
  | .noSpace size => some (.makingSpace size)
  | _ => none

/-- The stage of a caller when `log_flush` returns. -/
def Stage.returnFlush : Stage → Stage
  | .flushing batch => .flushed batch
  | .makingSpace size => .writing size
  | st => st

/-- The session that calls `log_flush` goes to stage `st`; a background thread has none. -/
def Ctx.setCaller (x : Ctx) (caller : Option Nat) (st : Stage → Stage) : Ctx :=
  match caller with
  | none => x
  | some s => x.setStage s (st (x.sessions s).stage)

/-- `log_switch_buffer` can take the buffer locks that it needs. -/
def Area.canSwitch (c : Config) (a : Area) : Bool :=
  !c.dbs || (List.range c.bufCount).all fun i => (a.bufs i a.wid).lock.isNone

/-- `log_flush` up to the switch. -/
def Area.switchBuffer (c : Config) (a : Area) (caller : Option Nat) : Area :=
  { a with
    bufLfn := Function.update a.bufLfn (!a.wid) (a.lfn + 2)
    wid := !a.wid
    flush := some ⟨caller, .assembling (List.range c.bufCount) [] 0⟩ }

/-- `log_flush` takes `flush_lock`; without anything to flush it returns. -/
def logFlush (c : Config) (x : Ctx) (caller : Option Nat) : Option Ctx :=
  let calling : Option Ctx := match caller with
    | none => some x
    | some s => ((x.sessions s).stage.callFlush).map (x.setStage s)
  if x.flush = none then
    calling.bind fun y =>
      if x.needFlush c then
        if x.canSwitch c then some { y with toArea := x.switchBuffer c caller } else none
      else some (y.setCaller caller Stage.returnFlush)
  else none

/-- `log_assemble_batch` handles buffer `i`: no slot is taken and the lock is free. -/
def logAssembleBuffer (x : Ctx) (i : Nat) : Option Ctx :=
  match x.flush with
  | some ⟨caller, .assembling todo parts maxLsn⟩ =>
    let b := x.bufs i (!x.wid)
    if i ∈ todo ∧ b.slotsClear = true ∧ b.lock = none then
      if 0 < b.writePos then
        some { x with toArea := { x.setBuf i (!x.wid) (b.assembled maxLsn) with
          flush := some ⟨caller,
            .assembling (todo.erase i) (parts ++ b.groups) (max b.lsn maxLsn)⟩ } }
      else
        some { x with flush := some ⟨caller, .assembling (todo.erase i) parts maxLsn⟩ }
    else none
  | _ => none

/-- All buffers are handled: the batch gets the next lfn, `log_flush_to_disk`. -/
def logFlushToDisk (x : Ctx) : Option Ctx :=
  match x.flush with
  | some ⟨caller, .assembling [] parts maxLsn⟩ =>
    let b : Batch := { lfn := x.lfn + 1, lsn := maxLsn, groups := parts }
    some { x with
      lfn := x.lfn + 1
      disk := x.disk ++ [b]
      flush := some ⟨caller, .written b⟩ }
  | _ => none

/-- The end of `log_flush`; `none` also where it panics. -/
def logFlushEnd (c : Config) (x : Ctx) : Option Ctx :=
  match x.flush with
  | some ⟨caller, .written b⟩ =>
    if x.flushedLsn < b.lsn ∨ c.dbs = false then
      some ({ x with
        flushedLfn := b.lfn
        flushedLsn := b.lsn
        flush := none }.setCaller caller Stage.returnFlush)
    else none
  | _ => none

/-! ## Committing -/

/-- `log_commit` up to the queue. -/
def logCommit (x : Ctx) (s : Nat) : Option Ctx :=
  match (x.sessions s).stage with
  | .idle | .committed =>
    if (x.sessions s).currLfn ≤ x.flushedLfn then
      some (x.setStage s .committed)
    else
      some (x.setStage s .entering)
  | _ => none

def logCommitEnque (x : Ctx) (s : Nat) : Option Ctx :=
  match (x.sessions s).stage with
  | .entering =>
    some { x.setSession s { x.sessions s with stage := .waiting, progress := .pending } with
      txQueue := x.txQueue ++ [s] }
  | _ => none

/-- The turn of `log_commit_try_lock` that ends the loop. -/
def logCommitTryLock (x : Ctx) (s : Nat) : Option Ctx :=
  match (x.sessions s).stage, (x.sessions s).progress with
  | .waiting, .completed => some (x.setStage s .committed)
  | .waiting, .pending =>
    if x.commitLock = none then
      some { x.setStage s .electing with commitLock := some s }
    else none
  | _, _ => none

/-- `log_set_commit_progress`. -/
def setCommitProgress (sessions : Nat → Session) (batch : List Nat) (p : Progress) :
    Nat → Session :=
  fun y => if y ∈ batch then { sessions y with progress := p } else sessions y

/-- The leader takes the queue. -/
def takeQueue (x : Ctx) (s : Nat) : Option Ctx :=
  match (x.sessions s).stage with
  | .electing =>
    some ({ x with
      sessions := setCommitProgress x.sessions x.txQueue .waiting
      txQueue := [] }.setStage s (.leading x.txQueue))
  | _ => none

def unlockCommit (x : Ctx) (s : Nat) : Option Ctx :=
  match (x.sessions s).stage with
  | .flushed batch => some { x.setStage s (.completing batch) with commitLock := none }
  | _ => none

/-- The leader completes the next session of its batch, or returns. -/
def completeNext (x : Ctx) (s : Nat) : Option Ctx :=
  match (x.sessions s).stage with
  | .completing (y :: batch) =>
    some ({ x with
      sessions := setCommitProgress x.sessions [y] .completed }.setStage s (.completing batch))
  | .completing [] => some (x.setStage s .committed)
  | _ => none

inductive Action where
  | atomicOpEnd (s size : Nat) (changed : Bool)
  | writeTryLock (s : Nat)
  | write (s : Nat)
  | copy (s : Nat)
  | flush (caller : Option Nat)
  | assemble (i : Nat)
  | flushToDisk
  | flushEnd
  | commit (s : Nat)
  | commitEnque (s : Nat)
  | commitTryLock (s : Nat)
  | takeQueue (s : Nat)
  | unlockCommit (s : Nat)
  | completeNext (s : Nat)
deriving DecidableEq, Repr

def logStep (c : Config) (x : Ctx) : Action → Option Ctx
  | .atomicOpEnd s size changed => atomicOpEnd c x s size changed
  | .writeTryLock s => logWriteTryLock c x s
  | .write s => logWrite c x s
  | .copy s => logCopy c x s
  | .flush caller => logFlush c x caller
  | .assemble i => logAssembleBuffer x i
  | .flushToDisk => logFlushToDisk x
  | .flushEnd => logFlushEnd c x
  | .commit s => logCommit x s
  | .commitEnque s => logCommitEnque x s
  | .commitTryLock s => logCommitTryLock x s
  | .takeQueue s => takeQueue x s
  | .unlockCommit s => unlockCommit x s
  | .completeNext s => completeNext x s

end Cantian.Log
