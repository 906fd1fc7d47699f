import Cantian.Log.Commit

/-!
# Checkpoints and the recovery point

Atomic operations change pages in the buffer. A changed page is read-only to
other operations and to the checkpoint until the operation has put its dirty
pages in the checkpoint queue (`ckpt_enque_page`), has written its redo
group (`log_write`), and has set the LSN of the pages (`log_set_page_lsn`).
A page in the queue carries the truncate point of the moment it was put
there. A checkpoint round copies pages and takes them from the queue,
flushes the redo, writes the copies, and moves the recovery point.

The log is the one of `Cantian.Log`. A point of the log is the lfn of the
last batch before it. A page is shown as the list of changes that it
reflects. The node runs as a ready primary that is not read-only, without
copies of its pages on other nodes. A crash can come after any step; the
control file and the disk are then as they are in that state.
-/

namespace Cantian.Ckpt.LogPoint

open Function

/-- The change that the `index`-th redo group of a session makes to a page. -/
structure Change where
  session : Nat
  index : Nat
deriving DecidableEq, Repr

/-- `buf_ctrl_t`. `readonly` is `is_readonly`, with the session whose operation set it. -/
structure Ctrl where
  image : List Change := []
  isDirty : Bool := false
  inCkpt : Bool := false
  isMarked : Bool := false
  readonly : Option Nat := none
  truncPoint : Nat := 0
deriving DecidableEq, Repr

/-- The atomic operation of a session; `size` is the size of its redo group. -/
inductive Op where
  | none
  | running (size : Nat) (dirtyPages changedPages : List Nat)
  /-- `ckpt_enque_page` is done. -/
  | enqueued (size : Nat) (changedPages : List Nat)
  /-- In `log_write`, then in `log_set_page_lsn` with the pages that are left. -/
  | logging (changedPages : List Nat)
deriving DecidableEq, Repr

/-- The checkpoint thread. `items` are the copied pages that are not yet on disk. -/
inductive Round where
  | idle
  | preparing (items : List (Nat × List Change))
  /-- About to call `log_flush`. -/
  | prepared (items : List (Nat × List Change))
  | flushing (items : List (Nat × List Change))
  | writing (items : List (Nat × List Change))
  /-- `ckpt_perform` has returned. -/
  | performed
  /-- `ckpt_update_log_point` has read `curr_point` and `queue.count`. -/
  | counted (empty : Bool) (lastPoint : Nat)
deriving DecidableEq, Repr

def Round.items : Round → List (Nat × List Change)
  | .preparing l | .prepared l | .flushing l | .writing l => l
  | _ => []

/-- `history` are all changes of a page, in order; no step reads it. -/
structure Sys where
  log : Log.Ctx
  ctrl : Nat → Ctrl
  disk : Nat → List Change
  history : Nat → List Change
  op : Nat → Op
  /-- `queue` of the checkpoint context, first page first. -/
  queue : List Nat
  /-- `queue.trunc_point`. -/
  truncPoint : Nat
  /-- `curr_point` of the log. -/
  currPoint : Nat
  lrpPoint : Nat
  /-- `rcy_point` in memory, and as it was last saved. -/
  rcyPoint : Nat
  savedPoint : Nat
  round : Round

structure Config where
  log : Log.Config
  /-- `DB_IS_CLUSTER`. -/
  cluster : Bool
  /-- `RCY_IGNORE_CORRUPTED_LOG`. -/
  ignoreCorrupted : Bool

/-- After start-up with all recovered pages on disk. -/
structure Sys.Fresh (z : Sys) : Prop where
  log : z.log.Fresh
  ctrl : ∀ p, z.ctrl p = {}
  disk : ∀ p, z.disk p = []
  history : ∀ p, z.history p = []
  op : ∀ s, z.op s = .none
  queue : z.queue = []
  truncPoint : z.truncPoint = z.log.lfn
  currPoint : z.currPoint = z.log.lfn
  lrpPoint : z.lrpPoint ≤ z.log.lfn
  rcyPoint : z.rcyPoint ≤ z.log.lfn
  savedPoint : z.savedPoint ≤ z.log.lfn
  round : z.round = .idle

/-- The redo group of a change, once `log_write` has placed it. -/
def Sys.groupOf (z : Sys) (ch : Change) : Option Log.Group :=
  (z.log.sessions ch.session).written[ch.index]?

def Sys.setCtrl (z : Sys) (p : Nat) (b : Ctrl) : Sys :=
  { z with ctrl := update z.ctrl p b }

def Sys.setOp (z : Sys) (s : Nat) (o : Op) : Sys :=
  { z with op := update z.op s o }

/-! ## Atomic operations -/

def atomicOpBegin (z : Sys) (s size : Nat) : Option Sys :=
  match z.op s, (z.log.sessions s).stage with
  | .none, .idle | .none, .committed => some (z.setOp s (.running size [] []))
  | _, _ => none

/-- A page is changed between `buf_enter_page` and `buf_leave_page`. The first change
that an operation with redo makes to the page is recorded. -/
def leavePage (c : Config) (z : Sys) (s p : Nat) : Option Sys :=
  match z.op s with
  | .running size dirty changed =>
    let b := z.ctrl p
    if b.readonly = none then
      let new : List Change :=
        if c.log.groupHead < size then [⟨s, (z.log.sessions s).written.length⟩] else []
      some { z with
        ctrl := update z.ctrl p
          { b with image := b.image ++ new, isDirty := true, readonly := some s }
        history := update z.history p (z.history p ++ new)
        op := update z.op s
          (.running size (if b.isDirty then dirty else dirty ++ [p]) (changed ++ [p])) }
    else if b.readonly = some s then some z
    else none
  | _ => none

/-- `none` also where `ckpt_enque_page` panics. -/
def ckptEnquePage (z : Sys) (s : Nat) : Option Sys :=
  match z.op s with
  | .running size dirty changed =>
    if ∀ p ∈ dirty, (z.ctrl p).inCkpt = false then
      some { z with
        queue := z.queue ++ dirty
        ctrl := fun p => if p ∈ dirty then
          { z.ctrl p with truncPoint := z.truncPoint, inCkpt := true } else z.ctrl p
        op := update z.op s (.enqueued size changed) }
    else none
  | _ => none

/-- `log_atomic_op_end` calls `log_write`. -/
def logWrite (c : Config) (z : Sys) (s : Nat) : Option Sys :=
  match z.op s with
  | .enqueued size changed =>
    (Log.atomicOpEnd c.log z.log s size !changed.isEmpty).map fun x =>
      { z with log := x, op := update z.op s (.logging changed) }
  | _ => none

/-- `log_set_page_lsn` takes its next page; after the last one the operation ends. -/
def logSetPageLsn (z : Sys) (s : Nat) : Option Sys :=
  if (z.log.sessions s).stage = .idle then
    match z.op s with
    | .logging (p :: rest) =>
      some { z with
        ctrl := update z.ctrl p { z.ctrl p with readonly := none }
        op := update z.op s (.logging rest) }
    | .logging [] => some (z.setOp s .none)
    | _ => none
  else none

/-! ## The log -/

/-- `log_flush` with a point: it moves up to `curr_point`. -/
def raisePoint (point currPoint : Nat) : Nat :=
  if point < currPoint then currPoint else point

/-- The checkpoint goes on after its own flush. -/
def Round.flushed : Round → Round
  | .flushing items => .writing items
  | r => r

/-- The end of a flush moves `curr_point` and the truncate point. -/
def flushEnd (c : Config) (z : Sys) : Option Sys :=
  (Log.logFlushEnd c.log z.log).map fun x =>
    { z with
      log := x
      currPoint := x.flushedLfn
      truncPoint := x.flushedLfn
      lrpPoint := match z.round with
        | .flushing _ => raisePoint z.lrpPoint x.flushedLfn
        | _ => z.lrpPoint
      round := z.round.flushed }

/-- A step of the log that is not part of an atomic operation's end. Commits are between
operations. -/
def logMove (c : Config) (z : Sys) : Log.Action → Option Sys
  | .atomicOpEnd _ _ _ => none
  | .flushEnd => flushEnd c z
  | .commit s =>
    if z.op s = .none then (Log.logStep c.log z.log (.commit s)).map fun x => { z with log := x }
    else none
  | a => (Log.logStep c.log z.log a).map fun x => { z with log := x }

/-! ## Checkpoints -/

/-- `ckpt_copy_item`, under the latch of the page. -/
def ckptCopyItem (z : Sys) (p : Nat) : Option Sys :=
  match z.round with
  | .preparing items =>
    let b := z.ctrl p
    if b.readonly = none ∧ b.isMarked = false then
      some { z with
        round := .preparing (items ++ [(p, b.image)])
        queue := if b.inCkpt then z.queue.erase p else z.queue
        ctrl := update z.ctrl p
          { b with inCkpt := false, isMarked := true, isDirty := false } }
    else none
  | _ => none

/-- `ckpt_flush_prepare` calls `log_flush`. -/
def ckptFlushPrepare (c : Config) (z : Sys) : Option Sys :=
  match z.round with
  | .prepared items =>
    (Log.logFlush c.log z.log none).map fun x =>
      if z.log.needFlush c.log then { z with log := x, round := .flushing items }
      else { z with
        log := x
        lrpPoint := raisePoint z.lrpPoint z.currPoint
        round := .writing items }
  | _ => none

/-- `ckpt_flush_pages` writes the `i`-th of the copies that are left. -/
def ckptFlushPage (z : Sys) (i : Nat) : Option Sys :=
  match z.round with
  | .writing items =>
    items[i]?.map fun item =>
      { z with
        disk := update z.disk item.1 item.2
        ctrl := update z.ctrl item.1 { z.ctrl item.1 with isMarked := false }
        round := .writing (items.eraseIdx i) }
  | _ => none

/-- `ckpt_update_log_point` after it has read the count of the queue; the first page is
read under the lock of the queue. -/
def ckptUpdateLogPoint (c : Config) (z : Sys) : Option Sys :=
  match z.round with
  | .counted false _ =>
    z.queue.head?.map fun p =>
      let point := (z.ctrl p).truncPoint
      { z with
        rcyPoint := point
        lrpPoint := if c.cluster ∧ z.lrpPoint < point then point else z.lrpPoint
        round := .idle }
  | .counted true lastPoint =>
    some { z with
      rcyPoint :=
        if c.ignoreCorrupted ∧ lastPoint < z.lrpPoint then lastPoint
        else if z.rcyPoint ≤ z.lrpPoint then z.lrpPoint else z.rcyPoint
      round := .idle }
  | _ => none

inductive Action where
  | atomicOpBegin (s size : Nat)
  | leavePage (s p : Nat)
  | enquePage (s : Nat)
  | logWrite (s : Nat)
  | setPageLsn (s : Nat)
  | log (a : Log.Action)
  | startRound
  | copyItem (p : Nat)
  | endPrepare
  /-- Nothing was copied, and `ckpt_perform` returns without a flush. -/
  | skipFlush
  | flushPrepare
  | flushPage (i : Nat)
  | endPerform
  /-- The point is not moved: pages are only cleaned, or its update is disabled. -/
  | endRound
  | readCount
  | updateLogPoint
  | saveCtrl
  /-- A page that is clean is evicted and read again. -/
  | reload (p : Nat)
deriving DecidableEq, Repr

def sysStep (c : Config) (z : Sys) : Action → Option Sys
  | .atomicOpBegin s size => atomicOpBegin z s size
  | .leavePage s p => leavePage c z s p
  | .enquePage s => ckptEnquePage z s
  | .logWrite s => logWrite c z s
  | .setPageLsn s => logSetPageLsn z s
  | .log a => logMove c z a
  | .startRound => if z.round = .idle then some { z with round := .preparing [] } else none
  | .copyItem p => ckptCopyItem z p
  | .endPrepare =>
    match z.round with
    | .preparing items => some { z with round := .prepared items }
    | _ => none
  | .skipFlush =>
    match z.round with
    | .preparing [] => some { z with round := .performed }
    | _ => none
  | .flushPrepare => ckptFlushPrepare c z
  | .flushPage i => ckptFlushPage z i
  | .endPerform =>
    match z.round with
    | .writing [] => some { z with round := .performed }
    | _ => none
  | .endRound => if z.round = .performed then some { z with round := .idle } else none
  | .readCount =>
    if z.round = .performed then
      some { z with round := .counted z.queue.isEmpty z.currPoint }
    else none
  | .updateLogPoint => ckptUpdateLogPoint c z
  | .saveCtrl => some { z with savedPoint := z.rcyPoint }
  | .reload p =>
    let b := z.ctrl p
    if b.isDirty = false ∧ b.isMarked = false ∧ b.readonly = none then
      some (z.setCtrl p { b with image := z.disk p })
    else none

end Cantian.Ckpt.LogPoint
