import Cantian.Lib.Transition
import Cantian.Lib.Merge

/-!
# Parallel replay on a standby

The nodes of the primary take commit scns and LSNs from clocks of their own,
which messages between them raise, and flush batches of redo groups to their
logs. The standby loads the batches of each log in order, takes the batch
with the least LSN among those that it has loaded, and replays the groups of
several batches at once. When the last group of a batch is replayed,
`dtc_update_standby_cluster_scn` may raise the scn at which the standby
reads.

A transaction takes its commit scn (`tx_inc_scn`) before the group with its
end record gets an LSN (`log_atomic_op_end`). Transactions that get their
scn from a global coordinator are left out.
-/

namespace Cantian.Standby

/-- A redo group; `scns` are the scns of its `RD_TX_END` and `RD_XA_PHASE1` entries. -/
structure Group where
  node : Nat
  lsn : Nat
  scns : List Nat
deriving DecidableEq, Repr

structure Batch where
  lsn : Nat
  groups : List Group
deriving DecidableEq, Repr

def Batch.scns (b : Batch) : List Nat := b.groups.flatMap Group.scns

/-- The greatest number of a list, 0 if it is empty. -/
def maxOf (l : List Nat) : Nat := l.foldl max 0

/-- A node of the primary, and what the standby has read of its log. -/
structure Node where
  lsn : Nat
  scn : Nat
  /-- Commit scns whose end record is not yet in a group. -/
  ending : List Nat
  /-- Groups that are not yet flushed. -/
  opened : List Group
  /-- Flushed batches that the standby has not loaded. -/
  unread : List Batch
  /-- Loaded batches that are not yet taken. -/
  ready : List Batch
deriving DecidableEq, Repr

/-- A slot of `g_replay_paral_mgr`. `left` are the groups that `group_num` counts. -/
structure Slot where
  batch : Batch
  left : List Group
  batchScn : Nat
  free : Bool
deriving DecidableEq, Repr

/-- The primary and the standby. The last three fields are history: the batches taken, and
the groups in the logs and those replayed. -/
structure Sys where
  nodes : List Node
  slots : List Slot
  scn : Nat
  taken : List Batch
  logged : List Group
  replayed : List Group
deriving DecidableEq, Repr

/-! ## The primary -/

/-- `tx_inc_scn`: the clock moves on, at least by one. -/
def txIncScn (n : Node) (scn : Nat) : Option Node :=
  if n.scn < scn then some { n with scn := scn, ending := n.ending ++ [scn] } else none

/-- `log_atomic_op_end`: a group gets the next LSN. -/
def logGroup (n : Node) (i : Nat) (scns : List Nat) : Node :=
  { n with lsn := n.lsn + 1, opened := n.opened ++ [⟨i, n.lsn + 1, scns⟩] }

/-- The end record of a transaction. -/
def txEnd (n : Node) (i k : Nat) : Option Node :=
  (n.ending[k]?).map fun scn => { logGroup n i [scn] with ending := n.ending.eraseIdx k }

/-- `dtc_update_lsn` and `dtc_update_scn` with the clocks of a message. -/
def receive (n : Node) (lsn scn : Nat) : Node :=
  { n with lsn := max n.lsn lsn, scn := max n.scn scn }

/-- The batch of the groups with the given LSNs. -/
def assemble (n : Node) (lsns : List Nat) : Batch :=
  let groups := n.opened.filter fun g => lsns.contains g.lsn
  ⟨maxOf (groups.map Group.lsn), groups⟩

def flush (n : Node) (lsns : List Nat) : Node :=
  { n with
    opened := n.opened.filter fun g => !lsns.contains g.lsn
    unread := n.unread ++ [assemble n lsns] }

/-! ## The standby -/

/-- The next batch of a log is loaded. -/
def load (n : Node) : Option Node :=
  match n.unread with
  | [] => none
  | b :: rest => some { n with unread := rest, ready := n.ready ++ [b] }

/-- `is_min_batch_lsn`: `none` if a batch with a smaller LSN is in progress, else the greatest
scn in the slots and whether any batch is in progress. -/
def isMinBatchLsn (batchLsn : Nat) : List Slot → Nat → Bool → Option (Nat × Bool)
  | [], batchScn, hasBatch => some (batchScn, hasBatch)
  | x :: slots, batchScn, hasBatch =>
    let scn := max batchScn x.batchScn
    if x.left.isEmpty then isMinBatchLsn batchLsn slots scn hasBatch
    else if batchLsn > x.batch.lsn then none
    else isMinBatchLsn batchLsn slots scn true

/-- The scn that `dtc_update_standby_cluster_scn` sets when the batch of a slot is replayed. -/
def dtcUpdateStandbyClusterScn (slots : List Slot) (x : Slot) (scn : Nat) : Nat :=
  match isMinBatchLsn x.batch.lsn slots 0 false with
  | none => scn
  | some (maxScn, hasBatch) =>
    let batchScn := if hasBatch then x.batchScn else maxScn
    if batchScn > scn then batchScn else scn

/-- The slot after `dtc_rcy_paral_replay_batch` has handed out the groups of a batch. -/
def slotOf (b : Batch) : Slot := ⟨b, b.groups, maxOf b.scns, false⟩

/-- The batch that is taken next and the log it is from. -/
def nextBatch (s : Sys) : Option (Nat × Batch) :=
  Lib.leastHead Batch.lsn (s.nodes.map Node.ready)

/-- The logs without the next batch of one of them. -/
def dropReady (nodes : List Node) (i : Nat) : List Node :=
  nodes.modify i fun n => { n with ready := n.ready.tail }

/-! ## Steps -/

inductive Action where
  | txScn (i scn : Nat)
  | txEnd (i k : Nat)
  /-- A group without the end of a transaction. -/
  | write (i : Nat)
  /-- A message from `j` to `i` with the LSN or the scn of `j` or both. -/
  | message (j i : Nat) (withLsn withScn : Bool)
  | flush (i : Nat) (lsns : List Nat)
  | load (i : Nat)
  /-- The standby takes the next batch to a free slot. -/
  | take (idx : Nat)
  /-- A group of a slot is replayed. -/
  | replay (idx k : Nat)
  /-- The last group of a slot was replayed. -/
  | publish (idx : Nat)
deriving DecidableEq, Repr

/-- A change of one node. -/
def withNode (s : Sys) (i : Nat) (f : Node → Option Node) : Option Sys :=
  match s.nodes[i]? with
  | none => none
  | some n => (f n).map fun m => { s with nodes := s.nodes.set i m }

def rplStep (s : Sys) : Action → Option Sys
  | .txScn i scn => withNode s i fun n => txIncScn n scn
  | .txEnd i k => withNode s i fun n => txEnd n i k
  | .write i => withNode s i fun n => some (logGroup n i [])
  | .message j i withLsn withScn =>
    match s.nodes[j]? with
    | none => none
    | some m => withNode s i fun n =>
        some (receive n (if withLsn then m.lsn else 0) (if withScn then m.scn else 0))
  | .flush i lsns =>
    match s.nodes[i]? with
    | none => none
    | some n =>
      some { s with
        nodes := s.nodes.set i (flush n lsns)
        logged := s.logged ++ (assemble n lsns).groups }
  | .load i => withNode s i load
  | .take idx =>
    match s.slots[idx]?, nextBatch s with
    | some x, some (i, b) =>
      if x.free then
        some { s with
          nodes := dropReady s.nodes i
          slots := s.slots.set idx (slotOf b)
          taken := s.taken ++ [b] }
      else none
    | _, _ => none
  | .replay idx k =>
    match s.slots[idx]? with
    | none => none
    | some x =>
      match x.left[k]? with
      | none => none
      | some g =>
        some { s with
          slots := s.slots.set idx { x with left := x.left.eraseIdx k }
          replayed := s.replayed ++ [g] }
  | .publish idx =>
    match s.slots[idx]? with
    | none => none
    | some x =>
      if x.free || !x.left.isEmpty then none
      else
        some { s with
          scn := dtcUpdateStandbyClusterScn s.slots x s.scn
          slots := s.slots.set idx { x with free := true } }

/-- Everything is empty. -/
structure Sys.Fresh (s : Sys) : Prop where
  nodes : ∀ n ∈ s.nodes, n.ending = [] ∧ n.opened = [] ∧ n.unread = [] ∧ n.ready = []
  slots : ∀ x ∈ s.slots, x = ⟨⟨0, []⟩, [], 0, true⟩
  logged : s.logged = []

/-- Whenever the standby raises its scn, every transaction with at most that scn whose end
record is in the logs has been replayed. -/
def RaisesConsistently (s : Sys) : Prop :=
  ∀ idx t, rplStep s (.publish idx) = some t → s.scn < t.scn →
    ∀ g ∈ s.logged, ∀ scn ∈ g.scns, scn ≤ t.scn → g ∈ s.replayed

end Cantian.Standby
