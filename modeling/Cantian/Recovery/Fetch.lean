import Cantian.Lib.Ring
import Cantian.Recovery.Coherent

/-!
# Fetching batches from several logs

Recovery reads the log of every crashed node through a small ring of read
buffers. A reader thread fills them; `dtc_update_batch` moves to the next
buffer of a node when the current one holds no further whole batch, and
waits for the reader there. `dtc_rcy_fetch_log_batch` looks at the next
batch of every node and takes the one with the smallest LSN. The groups of
a batch are then replayed in the order of `log_fetch_group`.

The modelled recovery is that of a primary whose logs do not change any
more. A fetch is one step, enabled when the buffers it waits for are
filled; the reader fills them in steps of its own.
-/

namespace Cantian.Recovery

/-- One read buffer. The batches are the whole ones behind `read_pos`; a batch cut by
the end of the buffer is read again into the next one. `readSize` is `none`
for `CT_INVALID_ID32` and otherwise counts what was read; the code only asks
whether it is zero. -/
structure ReadBuf where
  ready : Bool
  readSize : Option Nat
  batches : List LogBatch
  notFinished : Bool
deriving DecidableEq, Repr

/-- `dtc_rcy_node_t` with its log point: `rcyLfn` is the lfn of the last batch taken,
`unread` the log behind the point the reader has come to. -/
structure RcyNode where
  bufs : Nat → ReadBuf
  readIndex : Nat
  writeIndex : Nat
  recoverDone : Bool
  rcyLfn : Nat
  unread : List LogBatch

def RcyNode.setBuf (node : RcyNode) (i : Nat) (b : ReadBuf) : RcyNode :=
  { node with bufs := fun j => if j = i then b else node.bufs j }

/-- `reset_read_buffer` for a node whose log is to be recovered from its start. -/
def RcyNode.start (firstLfn : Nat) (log : List LogBatch) : RcyNode where
  bufs _ := ⟨false, none, [], true⟩
  readIndex := 0
  writeIndex := 0
  recoverDone := false
  rcyLfn := firstLfn
  unread := log

section
variable (bufSize : Nat)

/-- One round of `dtc_rcy_read_node_log_proc` for a node: unless its buffer is still
to be consumed, the next `count + 1` whole batches are read into it. At the end
of the log the round notes that nothing was read, and `more` is what
`dtc_rcy_next_file` reports. `none` when the round changes nothing. -/
def readNodeLog (count : Nat) (more : Bool) (node : RcyNode) : Option RcyNode :=
  let buf := node.bufs node.writeIndex
  if buf.ready || node.recoverDone then none
  else if node.unread.isEmpty then
    if buf.readSize = some 0 then none
    else some (node.setBuf node.writeIndex ⟨false, some 0, [], more⟩)
  else
    let chunk := node.unread.take (count + 1)
    some { node.setBuf node.writeIndex ⟨true, some chunk.length, chunk, true⟩ with
      writeIndex := (node.writeIndex + 1) % bufSize
      unread := node.unread.drop (count + 1) }

def checkNodeReadEnd (node : RcyNode) : RcyNode :=
  if !(node.bufs node.readIndex).notFinished || (node.bufs node.readIndex).readSize == some 0 then
    { node with recoverDone := true }
  else node

/-- A buffer is given back to the reader. -/
def releaseBuf (node : RcyNode) : RcyNode :=
  node.setBuf node.readIndex
    { node.bufs node.readIndex with ready := false, readSize := none }

/-- `dtc_update_batch`; `none` while it waits for the reader. -/
def dtcUpdateBatch (node : RcyNode) : Option RcyNode :=
  match (node.bufs node.readIndex).readSize with
  | none => none
  | some 0 => some (releaseBuf (checkNodeReadEnd node))
  | some _ =>
    if (node.bufs node.readIndex).batches.isEmpty then
      let node := { releaseBuf node with readIndex := (node.readIndex + 1) % bufSize }
      if (node.bufs node.readIndex).readSize.isNone then none
      else some (checkNodeReadEnd node)
    else some node

/-- What the fetch loop makes of one node. -/
inductive Verdict where
  | skip
  | offer (b : LogBatch)
  | error
  | abort
deriving DecidableEq, Repr

/-- One round of the loop of `dtc_rcy_fetch_log_batch`. `strict` says that a gap in the
lfns aborts the process. -/
def visitNode (strict : Bool) (node : RcyNode) : Option (RcyNode × Verdict) :=
  if node.recoverDone then some (node, .skip)
  else
    (dtcUpdateBatch bufSize node).map fun node =>
      let buf := node.bufs node.readIndex
      if node.recoverDone then (node, .skip)
      else if !buf.ready then (node, .skip)
      else
        match buf.batches with
        | [] => (node, .skip)
        | b :: _ =>
          if !b.valid then ({ node with recoverDone := true }, .skip)
          else if b.lfn ≠ node.rcyLfn + 1 then
            if strict then (node, .abort) else ({ node with recoverDone := true }, .skip)
          else if !b.checksumOk then (node, .error)
          else (node, .offer b)

/-- The result of a fetch: a failure, or the nodes after it and the batch chosen with
the index of its node. -/
inductive Fetched where
  | failed
  | ok (nodes : List RcyNode) (best : Option (Nat × LogBatch))

def Fetched.cons (node : RcyNode) : Fetched → Fetched
  | .failed => .failed
  | .ok nodes best => .ok (node :: nodes) best

/-- `curr_batch_lsn` for the batch chosen so far. -/
def currBatchLsn : Option (Nat × LogBatch) → Nat
  | none => ctInvalidId64
  | some (_, b) => b.lsn

/-- The loop of `dtc_rcy_fetch_log_batch` over the nodes. -/
def fetchLoop (strict : Bool) : List RcyNode → Nat → Option (Nat × LogBatch) → Option Fetched
  | [], _, best => some (.ok [] best)
  | node :: nodes, i, best =>
    match visitNode bufSize strict node with
    | none => none
    | some (_, .error) => some .failed
    | some (_, .abort) => some .failed
    | some (node, .skip) => (fetchLoop strict nodes (i + 1) best).map (Fetched.cons node)
    | some (node, .offer b) =>
      (fetchLoop strict nodes (i + 1)
        (if b.lsn < currBatchLsn best then some (i, b) else best)).map (Fetched.cons node)

/-- The log point moves over the batch that was fetched. -/
def takeBatch (b : LogBatch) (node : RcyNode) : RcyNode :=
  { node.setBuf node.readIndex
      { node.bufs node.readIndex with batches := (node.bufs node.readIndex).batches.tail } with
    rcyLfn := b.lfn }

end

/-- How far the recovery has come. -/
inductive RcyStatus where
  | running
  | finished
  | failed
deriving DecidableEq, Repr

/-- The recovery of several nodes and the batches it has fetched. -/
structure RcyState where
  nodes : List RcyNode
  fetched : List LogBatch
  status : RcyStatus

/-- `dtc_rcy_fetch_log_batch`. The recovery is over when it returns no batch. -/
def dtcRcyFetchLogBatch (bufSize : Nat) (strict : Bool) (s : RcyState) : Option RcyState :=
  (fetchLoop bufSize strict s.nodes 0 none).map fun
    | .failed => { s with status := .failed }
    | .ok nodes none => { s with nodes := nodes, status := .finished }
    | .ok nodes (some (i, b)) =>
      { s with nodes := nodes.modify i (takeBatch b), fetched := s.fetched ++ [b] }

/-- A round of the reader for one node, or a fetch. -/
inductive RcyAction where
  | read (i count : Nat) (more : Bool)
  | fetch

def rcyStep (bufSize : Nat) (strict : Bool) (s : RcyState) : RcyAction → Option RcyState
  | .read i count more =>
    match s.nodes[i]? with
    | none => none
    | some node => (readNodeLog bufSize count more node).map fun node =>
      { s with nodes := s.nodes.set i node }
  | .fetch => if s.status = .running then dtcRcyFetchLogBatch bufSize strict s else none

/-! ## Groups of a batch -/

/-- `rcy_init_log_cursor`; `none` when it panics. -/
def rcyInitLogCursor (b : LogBatch) : Option (List (List LogGroup)) :=
  if 0 < b.parts.length ∧ b.parts.length ≤ ctMaxLogBuffers then some b.parts else none

/-- `log_fetch_group`: the cursor holds what is left of every part. -/
def logFetchGroup (cursor : List (List LogGroup)) : Option (LogGroup × List (List LogGroup)) :=
  Lib.takeLeast LogGroup.lsn cursor

/-- The groups fetched until `log_fetch_group` returns no group. -/
def fetchGroups : Nat → List (List LogGroup) → List LogGroup
  | 0, _ => []
  | fuel + 1, cursor =>
    match logFetchGroup cursor with
    | none => []
    | some (g, cursor) => g :: fetchGroups fuel cursor

/-- `rcy_replay_batch`: the groups in the order of their replay. -/
def rcyReplayBatch (b : LogBatch) : Option (List LogGroup) :=
  (rcyInitLogCursor b).map fun cursor => fetchGroups (b.groups.length + 1) cursor

lemma fetchGroups_merges (fuel : Nat) (qs cursor : List (List LogGroup)) (out : List LogGroup)
    (h : Lib.Merges LogGroup.lsn qs out cursor) (hfuel : cursor.flatten.length < fuel) :
    ∃ qs', qs'.flatten = [] ∧
      Lib.Merges LogGroup.lsn qs (out ++ fetchGroups fuel cursor) qs' := by
  induction fuel generalizing cursor out with
  | zero => omega
  | succ fuel ih =>
    unfold fetchGroups
    cases hget : logFetchGroup cursor with
    | none => exact ⟨cursor, Lib.takeLeast_none hget, by simpa using h⟩
    | some p =>
      obtain ⟨g, cursor'⟩ := p
      have ht := Lib.takeLeast_takes hget
      have hlen := ht.perm.length_eq
      simp only [List.length_cons] at hlen
      obtain ⟨qs', hempty, hrun⟩ := ih cursor' (out ++ [g]) (h.snoc ht) (by omega)
      refine ⟨qs', hempty, ?_⟩
      simpa using hrun

/-- The replay of a batch is the merge of its parts: every group once. -/
lemma rcyReplayBatch_spec {b} (hpos : b.parts ≠ []) (hlen : b.parts.length ≤ ctMaxLogBuffers) :
    ∃ gs, rcyReplayBatch b = some gs ∧ gs.Perm b.groups ∧
      ((∀ q ∈ b.parts, LsnSorted q) → gs.Pairwise fun g g' => g.lsn ≤ g'.lsn) := by
  have hpos : 0 < b.parts.length := List.length_pos_iff.mpr hpos
  obtain ⟨qs', hempty, hrun⟩ := fetchGroups_merges (b.groups.length + 1) b.parts b.parts []
    .nil (Nat.lt_succ_self _)
  refine ⟨_, by simp [rcyReplayBatch, rcyInitLogCursor, hpos, hlen]; rfl, ?_, ?_⟩
  · have hperm := hrun.perm
    rw [hempty, List.append_nil] at hperm
    exact hperm.symm
  · intro hsorted
    apply (hrun.sorted _).1
    intro q hq
    exact (hsorted q hq).imp Nat.le_of_lt

end Cantian.Recovery
