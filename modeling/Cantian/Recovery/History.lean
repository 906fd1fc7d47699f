import Cantian.Lib.Transition
import Cantian.Lib.Merge

/-!
# How the nodes of a cluster write their redo logs

Every node has an LSN counter, two sets of log buffers and a log of flushed
batches. `log_write` gives a redo group its LSN and its place in a buffer
under the lock of that buffer. `log_flush` switches to the other set of
buffers and then writes the batch assembled from the first set; a session
that had locked a buffer before the switch still adds its group to that
set. A page is modified by one node at a time; it moves to another node
only after the batch with its last modification is flushed and the LSN
counter of the other node has been raised to that of the first.
-/

namespace Cantian.Recovery

open List

def ctInvalidId64 : Nat := 18446744073709551615

def ctMaxLogBuffers : Nat := 16

/-- A redo group: the node that wrote it, its LSN and the pages it touches. -/
structure LogGroup where
  node : Nat
  lsn : Nat
  pages : List Nat
deriving DecidableEq, Repr

/-- A batch of the log. `lsn` is the largest group LSN; `valid` is the result of
`dtc_rcy_validate_batch` and `checksumOk` that of `rcy_verify_checksum`. -/
structure LogBatch where
  node : Nat
  lfn : Nat
  lsn : Nat
  parts : List (List LogGroup)
  valid : Bool
  checksumOk : Bool
deriving DecidableEq, Repr

def LogBatch.groups (b : LogBatch) : List LogGroup := b.parts.flatten

/-- What one node has written. -/
structure Writer where
  /-- `kernel->lsn`. -/
  lsn : Nat
  /-- The lfn of the log before its first batch. -/
  firstLfn : Nat
  /-- The buffers of the current write index. -/
  opened : List (List LogGroup)
  /-- The buffers of the other index while a flush assembles them. -/
  closing : Option (List (List LogGroup))
  /-- The batches on disk. -/
  log : List LogBatch

/-- The nodes of the cluster, and for every page the node that may modify it. -/
structure Cluster where
  writer : Nat → Writer
  owner : Nat → Nat

def Cluster.setWriter (c : Cluster) (n : Nat) (w : Writer) : Cluster :=
  { c with writer := fun m => if m = n then w else c.writer m }

@[simp] lemma Cluster.setWriter_self (c : Cluster) (n : Nat) (w : Writer) :
    (c.setWriter n w).writer n = w := if_pos rfl

lemma Cluster.setWriter_ne (c : Cluster) {n m} (w : Writer) (h : m ≠ n) :
    (c.setWriter n w).writer m = c.writer m := if_neg h

/-- Append a group to one buffer. -/
def appendAt (bufs : List (List LogGroup)) (part : Nat) (g : LogGroup) : List (List LogGroup) :=
  bufs.modify part fun groups => groups ++ [g]

/-- Some group touches the page. -/
def anyTouches (groups : List LogGroup) (p : Nat) : Bool := groups.any fun g => g.pages.contains p

/-- The largest LSN among groups, as `log_assemble_buffer` collects it. -/
def maxLsn (groups : List LogGroup) : Nat := groups.foldl (fun m g => max m g.lsn) 0

/-- The groups not yet flushed. -/
def Writer.buffered (w : Writer) : List LogGroup :=
  (w.closing.getD []).flatten ++ w.opened.flatten

/-- What the nodes do. -/
inductive WriteAction where
  /-- `log_write` on a node: a group for the given pages goes to a buffer; `late`
  means that the buffer was locked before the switch of a running flush. -/
  | write (n : Nat) (late : Bool) (part : Nat) (pages : List Nat)
  /-- `log_switch_buffer`. -/
  | switch (n : Nat)
  /-- The batch of the closed buffers reaches the disk; `parts` are the non-empty
  buffers in the order in which they were assembled. -/
  | flush (n : Nat) (parts : List (List LogGroup))
  /-- A message raises the LSN counter. -/
  | raise (n lsn : Nat)
  /-- The page goes to another node. -/
  | transfer (p n : Nat)

/-- The batch that a flush writes. -/
def Writer.assemble (w : Writer) (n : Nat) (parts : List (List LogGroup)) : LogBatch where
  node := n
  lfn := w.firstLfn + w.log.length + 1
  lsn := maxLsn parts.flatten
  parts := parts
  valid := true
  checksumOk := true

/-- One step of a node that modifies pages it owns. -/
def writeStep (c : Cluster) : WriteAction → Option Cluster
  | .write n late part pages =>
    let w := c.writer n
    let g : LogGroup := ⟨n, w.lsn + 1, pages⟩
    if pages.all (fun p => c.owner p == n) && decide (part < w.opened.length) &&
        decide (w.lsn + 1 < ctInvalidId64) then
      if late then
        -- the pages of the group were latched since before the switch
        match w.closing with
        | none => none
        | some bufs =>
          if part < bufs.length ∧ pages.all (fun p => !anyTouches w.opened.flatten p) then
            some (c.setWriter n { w with lsn := w.lsn + 1, closing := some (appendAt bufs part g) })
          else none
      else
        some (c.setWriter n { w with lsn := w.lsn + 1, opened := appendAt w.opened part g })
    else none
  | .switch n =>
    let w := c.writer n
    if w.closing.isNone && w.opened.any (fun groups => !groups.isEmpty) then
      some (c.setWriter n { w with
        closing := some w.opened, opened := w.opened.map fun _ => [] })
    else none
  | .flush n parts =>
    let w := c.writer n
    match w.closing with
    | none => none
    | some bufs =>
      let b := w.assemble n parts
      -- the batch LSN of a node's log increases
      if parts.isPerm (bufs.filter fun groups => !groups.isEmpty) && !parts.isEmpty &&
          w.log.all (fun b' => decide (b'.lsn < b.lsn)) then
        some (c.setWriter n { w with closing := none, log := w.log ++ [b] })
      else none
  | .raise n lsn =>
    let w := c.writer n
    some (c.setWriter n { w with lsn := max w.lsn lsn })
  | .transfer p n =>
    let a := c.owner p
    if !anyTouches (c.writer a).buffered p && decide ((c.writer a).lsn ≤ (c.writer n).lsn) then
      some { c with owner := fun q => if q = p then n else c.owner q }
    else none

/-- Nothing has been written: `bufCount` empty buffers on every node. -/
def Cluster.Start (bufCount : Nat) (c : Cluster) : Prop :=
  ∀ n, (c.writer n).opened = List.replicate bufCount [] ∧ (c.writer n).closing = none ∧
    (c.writer n).log = []

/-! ## Groups in buffers -/

variable {bufs : List (List LogGroup)} {part : Nat}

lemma appendAt_perm (h : part < bufs.length) (g : LogGroup) :
    (appendAt bufs part g).flatten.Perm (g :: bufs.flatten) := by
  have hsplit : bufs = bufs.take part ++ bufs[part] :: bufs.drop (part + 1) := by
    rw [← drop_eq_getElem_cons h, take_append_drop]
  unfold appendAt
  rw [modify_eq_take_cons_drop h]
  conv_rhs => rw [hsplit]
  simp only [flatten_append, flatten_cons, append_assoc, cons_append, nil_append]
  rw [← append_assoc, ← append_assoc]
  exact perm_middle

lemma mem_appendAt (h : part < bufs.length) (g x : LogGroup) :
    x ∈ (appendAt bufs part g).flatten ↔ x = g ∨ x ∈ bufs.flatten := by
  rw [(appendAt_perm h g).mem_iff, mem_cons]

lemma length_appendAt (bufs : List (List LogGroup)) (part : Nat) (g : LogGroup) :
    (appendAt bufs part g).length = bufs.length := List.length_modify ..

/-- A buffer after an append is a buffer from before or that with the group. -/
lemma mem_appendAt_part {g q} (hq : q ∈ appendAt bufs part g) :
    q ∈ bufs ∨ ∃ q' ∈ bufs, q = q' ++ [g] := by
  obtain ⟨j, hj⟩ := mem_iff_getElem?.mp hq
  unfold appendAt at hj
  rw [getElem?_modify] at hj
  obtain ⟨q', hq', heq⟩ := Option.map_eq_some_iff.mp hj
  split at heq
  · exact .inr ⟨q', mem_of_getElem? hq', heq.symm⟩
  · exact .inl (heq ▸ mem_of_getElem? hq')

variable {groups : List LogGroup}

lemma le_foldl_max (groups : List LogGroup) (m : Nat) :
    m ≤ groups.foldl (fun m g => max m g.lsn) m ∧
      ∀ g ∈ groups, g.lsn ≤ groups.foldl (fun m g => max m g.lsn) m := by
  induction groups generalizing m with
  | nil => exact ⟨Nat.le_refl m, fun g hg => absurd hg not_mem_nil⟩
  | cons x groups ih =>
    obtain ⟨hm, hall⟩ := ih (max m x.lsn)
    refine ⟨Nat.le_trans (Nat.le_max_left _ _) hm, fun g hg => ?_⟩
    obtain rfl | hg := mem_cons.mp hg
    · exact Nat.le_trans (Nat.le_max_right _ _) hm
    · exact hall g hg

lemma le_maxLsn {g} (hg : g ∈ groups) :
    g.lsn ≤ maxLsn groups := (le_foldl_max groups 0).2 g hg

lemma maxLsn_le {k} (h : ∀ g ∈ groups, g.lsn ≤ k) : maxLsn groups ≤ k := by
  have hgen : ∀ (l : List LogGroup) (m : Nat), m ≤ k → (∀ g ∈ l, g.lsn ≤ k) →
      l.foldl (fun m g => max m g.lsn) m ≤ k := by
    intro l
    induction l with
    | nil => exact fun m hm _ => hm
    | cons x l ih =>
      intro m hm hl
      apply ih
      · exact Nat.max_le.mpr ⟨hm, hl x mem_cons_self⟩
      · exact fun g hg => hl g (mem_cons_of_mem x hg)
  exact hgen groups 0 (Nat.zero_le k) h

end Cantian.Recovery
