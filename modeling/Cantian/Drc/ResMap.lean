import Cantian.Lib.DList
import Cantian.Lib.HashChain

/-!
# The pool, the hash map and the partition lists of the directory

The items of a pool (`drc_res_pool_t`) are lock or page resources. A free
item is in the chain of the free ones, a used one in the chain of its bucket
(`drc_res_map_t`); both use the first word of the item. A used item is also
in the doubly linked list of its partition (`res_parts`).

The functions are those of `dtc_drc_util.c`, over any type of keys and any
type for what else a resource has.
-/

namespace Cantian.Drc

open Lib Function

/-- A resource: `drc_buf_res_t` or `drc_master_res_t`. Lock resources have no
`is_used`, and nobody reads it of them. -/
structure Resource (κ π : Type*) where
  key : κ
  info : π
  isUsed : Bool
  idx : Nat
  partId : Nat
  node : Node

/-- A resource of zero bytes. -/
instance {κ π : Type*} [Inhabited κ] [Inhabited π] : Inhabited (Resource κ π) :=
  ⟨⟨default, default, false, 0, 0, ⟨some 0, some 0, 0⟩⟩⟩

/-- `drc_global_res_t`: the pool, the buckets and the partitions. -/
structure ResMap (κ π : Type*) where
  itemNum : Nat
  usedNum : Nat
  pool : ItemPool (Resource κ π)
  bucket : Nat → Bucket
  part : Nat → DList
  /-- The bucket of a key. -/
  hash : κ → Nat
  /-- The partition of a key. -/
  partOf : κ → Nat
  /-- The resource that was added for a key and not removed. No call reads
  it. -/
  live : κ → Option Nat

namespace ResMap

variable {κ π : Type*}

def res (s : ResMap κ π) (i : Nat) : Resource κ π := (s.pool.cell i).val

def nodes (s : ResMap κ π) (i : Nat) : Node := (s.res i).node

/-- `drc_res_map_init` and `drc_res_pool_init`. -/
def drcResMapInit [Inhabited κ] [Inhabited π] (itemNum : Nat) (hash partOf : κ → Nat) :
    ResMap κ π where
  itemNum := itemNum
  usedNum := 0
  pool := ⟨fun i => ⟨if i + 1 < itemNum then some (i + 1) else none, default⟩, some 0⟩
  bucket _ := ⟨0, some 0⟩
  part _ := .empty
  hash := hash
  partOf := partOf
  live _ := none

/-! ## The pool -/

def drcResPoolAllocItem (s : ResMap κ π) : Option (Nat × ResMap κ π) :=
  s.pool.alloc.map fun r => (r.1, { s with pool := r.2, usedNum := s.usedNum + 1 })

def drcResPoolFreeItem (s : ResMap κ π) (i : Nat) : ResMap κ π :=
  { s with pool := s.pool.free i, usedNum := s.usedNum - 1 }

/-- The loop of `drc_res_pool_alloc_batch_item`. -/
def allocLoop : Nat → ResMap κ π → List Nat × ResMap κ π
  | 0, s => ([], s)
  | n + 1, s =>
    match s.drcResPoolAllocItem with
    | none => ([], s)
    | some (i, s') => (i :: (allocLoop n s').1, (allocLoop n s').2)

/-- `drc_res_pool_alloc_batch_item`; the sum of the two counts is a 32-bit
number. -/
def drcResPoolAllocBatchItem (s : ResMap κ π) (num : Nat) : Option (List Nat) × ResMap κ π :=
  if s.itemNum < num ∨ s.itemNum < (s.usedNum + num) % 4294967296 then (none, s)
  else if s.pool.freeList = none then (none, s)
  else (some (allocLoop num s).1, (allocLoop num s).2)

/-- The loop of `drc_res_pool_free_batch_item`. -/
def freeLoop : List Nat → ResMap κ π → ResMap κ π
  | [], s => s
  | i :: ids, s => if s.itemNum < i then s else freeLoop ids (s.drcResPoolFreeItem i)

def drcResPoolFreeBatchItem (s : ResMap κ π) (ids : List Nat) : ResMap κ π :=
  if s.usedNum < ids.length then s else freeLoop ids s

/-! ## The map -/

section
variable [DecidableEq κ]

/-- `res_cmp_func`. -/
def isSameRes (k : κ) (r : Resource κ π) : Bool := decide (r.key = k)

def drcResMapAdd (s : ResMap κ π) (b i : Nat) : ResMap κ π :=
  let r := s.pool.chainAdd (s.bucket b) i
  { s with
    pool := r.1
    bucket := update s.bucket b r.2
    live := update s.live (s.res i).key (some i) }

def drcResMapLookup (s : ResMap κ π) (k : κ) : Option Nat :=
  s.pool.chainFind (isSameRes k) (s.bucket (s.hash k))

def drcResMapRemove (s : ResMap κ π) (k : κ) : ResMap κ π :=
  let r := s.pool.chainRemove (isSameRes k) (s.bucket (s.hash k))
  { s with
    pool := r.1
    bucket := update s.bucket (s.hash k) r.2
    live := update s.live k none }

end

/-! ## The partition lists -/

/-- The items with other nodes. -/
def setNodes (s : ResMap κ π) (node : Nat → Node) : ResMap κ π :=
  { s with
    pool := { s.pool with
      cell := fun i =>
        { s.pool.cell i with val := { (s.pool.cell i).val with node := node i } } } }

/-- `drc_add_list_node` on the list of a partition. -/
def drcAddListNode (s : ResMap κ π) (q i : Nat) : ResMap κ π :=
  let r := DList.addNode s.nodes (s.part q) i
  { s.setNodes r.1 with part := update s.part q r.2 }

/-- `drc_delete_list_node` on the list of a partition. -/
def drcDeleteListNode (s : ResMap κ π) (q i : Nat) : ResMap κ π :=
  let r := DList.deleteNode s.nodes (s.part q) i
  { s.setNodes r.1 with part := update s.part q r.2 }

/-! ## A resource as a whole -/

/-- The new resource before it is put anywhere. -/
def initRes (s : ResMap κ π) (i : Nat) (k : κ) (v : π) : ResMap κ π :=
  { s with
    pool := s.pool.setCell i ⟨none, ⟨k, v, true, i, s.partOf k, { s.nodes i with idx := i }⟩⟩ }

/-- A new resource goes into the map and the list of its partition. -/
def addRes [DecidableEq κ] (s : ResMap κ π) (i : Nat) (k : κ) (v : π) : ResMap κ π :=
  ((s.initRes i k v).drcResMapAdd (s.hash k) i).drcAddListNode (s.partOf k) i

/-- The `memset_s` of a resource that is no longer used. -/
def clearRes [Inhabited κ] [Inhabited π] (s : ResMap κ π) (i : Nat) : ResMap κ π :=
  { s with pool := s.pool.setCell i ⟨some 0, default⟩ }

def drcCleanPageOwnerInternal [DecidableEq κ] [Inhabited κ] [Inhabited π] (s : ResMap κ π)
    (i : Nat) : ResMap κ π :=
  let r := s.res i
  ((s.drcResMapRemove r.key).drcDeleteListNode r.partId i).clearRes i

/-- `drc_release_lock_res` for a lock that nobody holds or asks for. -/
def drcReleaseLockRes [Inhabited κ] [Inhabited π] (s : ResMap κ π) (i : Nat) : ResMap κ π :=
  let r := s.res i
  ((s.drcDeleteListNode r.partId i).clearRes i).drcResPoolFreeItem r.idx

/-- The end of `drc_release_page_owner`. -/
def releasePageRes [DecidableEq κ] [Inhabited κ] [Inhabited π] (s : ResMap κ π) (k : κ)
    (i : Nat) : ResMap κ π :=
  let r := s.res i
  (((s.drcDeleteListNode r.partId i).drcResMapRemove k).clearRes i).drcResPoolFreeItem r.idx

/-- A resource changes otherwise. -/
def setInfo (s : ResMap κ π) (i : Nat) (v : π) : ResMap κ π :=
  { s with pool := s.pool.setCell i { s.pool.cell i with val := { s.res i with info := v } } }

/-- The number of items that a search for their key finds. -/
def reachableNum [DecidableEq κ] (s : ResMap κ π) : Nat :=
  ((List.range s.itemNum).filter fun i =>
    decide (s.drcResMapLookup (s.res i).key = some i)).length

/-- What the directory has for a key. -/
def view [DecidableEq κ] (s : ResMap κ π) (k : κ) : Option π :=
  (s.drcResMapLookup k).map fun i => (s.res i).info

end ResMap

end Cantian.Drc
