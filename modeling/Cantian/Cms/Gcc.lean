import Mathlib.Data.List.Basic
import Cantian.Lib.Transition

/-!
# The cluster configuration on the shared disk

The disk holds the number of the valid copy of the configuration in one block,
and two copies. `cms_gcc_write_disk` reads the number, writes the other copy
block by block without the disk lock, and then writes the number of that copy
under the lock. `cms_gcc_read_disk` reads the number under the lock, gives the
lock back, takes it again, and reads the copy.

A step reads or writes one block. Writes do not overlap each other; any number of
readers run. A node that crashes drops its calls and its lock; a write whose node
crashes, or whose call fails, stays as far as it has come.
-/

namespace Cantian.Cms.Gcc

open Function

/-- `blocks` is the size of `cms_gcc_t` in blocks. `magicOk` reads `CMS_GCC_HEAD_MAGIC`
from the head block. -/
structure Config (α : Type) where
  nodes : Nat
  blocks : Nat
  magicOk : α → Bool

/-- A `cms_gcc_write_disk` call after the number was read. The blocks before `pos`
are written. -/
structure Writer (α : Type) where
  node : Nat
  gcc : List α
  gccId : Nat
  pos : Nat
deriving DecidableEq, Repr

/-- A `cms_gcc_read_disk` call. -/
inductive Reader (α : Type) where
  | idle
  /-- `cms_get_valid_gcc_id` has returned. -/
  | gotId (gccId : Nat)
  /-- The lock is held, and the blocks of `gcc` are read. -/
  | reading (gccId : Nat) (gcc : List α)
  /-- The call has returned, with what it read if it was a success. -/
  | done (gcc : Option (List α))
deriving DecidableEq, Repr

/-- `completed` and `started` are the configurations written so far, the newest first and
the initial one last; `validWrite` is the place in `started` of the write that the number on disk
stands for. No step reads them. -/
structure Sys (α : Type) where
  gccId : Nat
  copy : Nat → List α
  lock : Option Nat
  writer : Option (Writer α)
  reader : Nat → Reader α
  completed : List (List α)
  started : List (List α)
  validWrite : Nat

variable {α : Type}

structure Sys.Fresh (c : Config α) (s : Sys α) : Prop where
  gccId : s.gccId = 0 ∨ s.gccId = 1
  length : ∀ i, (s.copy i).length = c.blocks
  lock : s.lock = none
  writer : s.writer = none
  reader : ∀ n, s.reader n = .idle
  completed : s.completed = [s.copy s.gccId]
  started : s.started = [s.copy s.gccId]
  validWrite : s.validWrite = 0

/-- `cms_get_valid_gcc_id`. -/
def getValidGccId (s : Sys α) : Option Nat :=
  if s.lock = none then
    if s.gccId ≠ 0 ∧ s.gccId ≠ 1 then none else some s.gccId
  else none

/-- The copy that `CMS_GCC_WRITE_OFFSET` selects. -/
def writeId (gccId : Nat) : Nat := if gccId = 1 then 0 else 1

inductive Action (α : Type) where
  | startWrite (node : Nat) (gcc : List α)
  | writeBlock
  | setValid
  | readId (node : Nat)
  | lockCopy (node : Nat)
  | readBlock (node : Nat)
  | finishRead (node : Nat)
  | crash (node : Nat)
deriving DecidableEq, Repr

def startWrite (c : Config α) (s : Sys α) (node : Nat) (gcc : List α) : Option (Sys α) :=
  match s.writer, getValidGccId s with
  | none, some gccId =>
    if gcc.length = c.blocks then
      some { s with
        writer := some ⟨node, gcc, gccId, 0⟩
        started := gcc :: s.started
        validWrite := s.validWrite + 1 }
    else none
  | _, _ => none

def writeBlock (s : Sys α) : Option (Sys α) :=
  match s.writer with
  | some w =>
    match w.gcc[w.pos]? with
    | some block => some { s with
        copy := update s.copy (writeId w.gccId)
          ((s.copy (writeId w.gccId)).set w.pos block)
        writer := some { w with pos := w.pos + 1 } }
    | none => none
  | none => none

/-- `cms_set_valid_gcc_id`, which ends the write. -/
def setValid (c : Config α) (s : Sys α) : Option (Sys α) :=
  match s.writer with
  | some w =>
    if w.pos = c.blocks ∧ s.lock = none then
      some { s with
        gccId := if w.gccId = 0 then 1 else 0
        writer := none
        completed := w.gcc :: s.completed
        validWrite := 0 }
    else none
  | none => none

def readId (c : Config α) (s : Sys α) (node : Nat) : Option (Sys α) :=
  match s.reader node, getValidGccId s with
  | .idle, some gccId | .done _, some gccId =>
    if node < c.nodes then
      some { s with reader := update s.reader node (.gotId gccId) }
    else none
  | _, _ => none

def lockCopy (s : Sys α) (node : Nat) : Option (Sys α) :=
  match s.reader node with
  | .gotId gccId =>
    if s.lock = none then
      some { s with
        lock := some node
        reader := update s.reader node (.reading gccId []) }
    else none
  | _ => none

def readBlock (s : Sys α) (node : Nat) : Option (Sys α) :=
  match s.reader node with
  | .reading gccId gcc =>
    match (s.copy gccId)[gcc.length]? with
    | some block => some { s with
        reader := update s.reader node (.reading gccId (gcc ++ [block])) }
    | none => none
  | _ => none

def finishRead (c : Config α) (s : Sys α) (node : Nat) : Option (Sys α) :=
  match s.reader node with
  | .reading _ gcc =>
    if gcc.length = c.blocks then
      some { s with
        lock := none
        reader := update s.reader node
          (.done (if gcc.head?.any c.magicOk then some gcc else none)) }
    else none
  | _ => none

def crash (s : Sys α) (node : Nat) : Option (Sys α) :=
  some { s with
    lock := if s.lock = some node then none else s.lock
    writer := if s.writer.any (fun w => w.node == node) then none else s.writer
    reader := update s.reader node .idle }

def gccStep (c : Config α) (s : Sys α) : Action α → Option (Sys α)
  | .startWrite node gcc => startWrite c s node gcc
  | .writeBlock => writeBlock s
  | .setValid => setValid c s
  | .readId node => readId c s node
  | .lockCopy node => lockCopy s node
  | .readBlock node => readBlock s node
  | .finishRead node => finishRead c s node
  | .crash node => crash s node

end Cantian.Cms.Gcc
