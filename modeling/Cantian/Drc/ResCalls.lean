import Cantian.Drc.ResWhole

/-!
# The calls on the resources of the directory

The calls of `dtc_drc.c` that create, look up, release, recycle and migrate
lock or page resources. A call runs as a whole; what it decides from the
contents of a resource, and how it changes them, is an argument.

A block of migrated pages whose record disagrees with a page that the
directory has makes the call return at once. The items of the records that
are left stay allocated and are in no list.
-/

namespace Cantian.Drc

open Lib

/-- The records of a migration message: the key of a record, what
`drc_init_buf_res` or `dtc_init_lock_res` makes of it in a memory with other
contents, and the comparison of `drc_check_migrate_buf_res_info`, for which
the old contents of the memory do not matter. -/
structure Wire (κ π ρ : Type*) where
  key : ρ → κ
  make : π → ρ → π
  same : π → ρ → Bool
  same_make : ∀ v v' r r', same (make v r) r' = same (make v' r) r'

namespace ResMap

variable {κ π ρ : Type*} [DecidableEq κ] [Inhabited κ] [Inhabited π]

/-- The loop of `drc_rcy_page_info_l`: a page that the directory has gets
other contents, another one takes the next item. A record has a page, its
contents when it is new, and the change of the contents otherwise. -/
def rcyLoop : List (κ × π × (π → π)) → List Nat → ResMap κ π → List Nat × ResMap κ π
  | [], ids, s => (ids, s)
  | (k, v, f) :: recs, ids, s =>
    match s.drcResMapLookup k with
    | some j => rcyLoop recs ids (s.setInfo j (f (s.res j).info))
    | none =>
      match ids with
      | [] => ([], s)
      | i :: ids => rcyLoop recs ids (s.addRes i k v)

def drcRcyPageInfoL (recs : List (κ × π × (π → π))) (s : ResMap κ π) : ResMap κ π :=
  match s.drcResPoolAllocBatchItem recs.length with
  | (none, s) => s
  | (some ids, s) =>
    let r := rcyLoop recs ids s
    if r.1.length ≠ 0 then r.2.drcResPoolFreeBatchItem r.1 else r.2

def drcMigrateBufResL (W : Wire κ π ρ) : List ρ → List Nat → ResMap κ π → Bool × ResMap κ π
  | r :: recs, i :: ids, s =>
    match s.drcResMapLookup (W.key r) with
    | some j =>
      if W.same (s.res j).info r then drcMigrateBufResL W recs ids (s.drcResPoolFreeItem i)
      else (false, s)
    | none => drcMigrateBufResL W recs ids (s.addRes i (W.key r) (W.make (s.res i).info r))
  | _, _, s => (true, s)

/-- `drc_process_buf_master_blk`, after its checks of the header and with
memory for the item numbers when `accepted`. -/
def drcProcessBufMasterBlk (W : Wire κ π ρ) (accepted : Bool) (recs : List ρ) (s : ResMap κ π) :
    Bool × ResMap κ π :=
  if !accepted then (false, s)
  else if recs.length = 0 then (true, s)
  else
    match s.drcResPoolAllocBatchItem recs.length with
    | (none, s) => (false, s)
    | (some ids, s) => drcMigrateBufResL W recs ids s

def drcMigrateLockResL (W : Wire κ π ρ) : List ρ → List Nat → ResMap κ π → ResMap κ π
  | r :: recs, i :: ids, s =>
    match s.drcResMapLookup (W.key r) with
    | some _ => drcMigrateLockResL W recs ids (s.drcResPoolFreeItem i)
    | none => drcMigrateLockResL W recs ids (s.addRes i (W.key r) (W.make (s.res i).info r))
  | _, _, s => s

def drcProcessLockMasterBlk (W : Wire κ π ρ) (accepted : Bool) (recs : List ρ) (s : ResMap κ π) :
    ResMap κ π :=
  if !accepted then s
  else
    match s.drcResPoolAllocBatchItem recs.length with
    | (none, s) => s
    | (some ids, s) => drcMigrateLockResL W recs ids s

/-- The loop of `drc_free_buf_res_by_part` and `drc_free_lock_res_by_part`. -/
def freePartLoop : Nat → Option Nat → ResMap κ π → List Nat × ResMap κ π
  | 0, _, s => ([], s)
  | _ + 1, none, s => ([], s)
  | n + 1, some i, s =>
    let r := freePartLoop n (s.nodes i).next ((s.drcResMapRemove (s.res i).key).clearRes i)
    (i :: r.1, r.2)

/-- `drc_free_buf_res_by_part` and `drc_free_lock_res_by_part`. -/
def drcFreeResByPart (q : Nat) (s : ResMap κ π) : ResMap κ π :=
  if (s.part q).count = 0 then s
  else
    let r := freePartLoop (s.part q).count (s.part q).first s
    let s' := r.2.drcResPoolFreeBatchItem r.1
    { s' with part := Function.update s'.part q .empty }

/-- The loop of `drc_clean_page_owner_by_part`: `f` is what a failed instance
leaves of the contents, and a page that is still `busy` stays. -/
def cleanPartLoop (f : π → π) (busy : π → Bool) :
    Nat → Option Nat → ResMap κ π → List Nat × ResMap κ π
  | 0, _, s => ([], s)
  | _ + 1, none, s => ([], s)
  | n + 1, some i, s =>
    let next := (s.nodes i).next
    let s' := s.setInfo i (f (s.res i).info)
    if busy (s'.res i).info then cleanPartLoop f busy n next s'
    else
      let r := cleanPartLoop f busy n next (s'.drcCleanPageOwnerInternal i)
      ((s'.res i).idx :: r.1, r.2)

/-- `drc_clean_page_owner_by_part`; a remaster that fails ends the loop after
`limit` pages. -/
def drcCleanPageOwnerByPart (q : Nat) (f : π → π) (busy : π → Bool) (limit : Nat)
    (s : ResMap κ π) : ResMap κ π :=
  let r := cleanPartLoop f busy (min limit (s.part q).count) (s.part q).first s
  r.2.drcResPoolFreeBatchItem r.1

end ResMap

/-- The calls. -/
inductive ResCall (κ π ρ : Type*) where
  /-- A call that only looks a resource up. -/
  | lookup (k : κ)
  /-- A call that looks a resource up and changes its contents. -/
  | update (k : κ) (f : π → π)
  /-- `drc_request_lock_owner`, `drc_rcy_lock_res_info`: a lock that is not
  found is created by `drc_create_lock_res`. -/
  | createLock (k : κ) (v : π)
  /-- `drc_recovery_lockinfo`: the lock is created without a search. -/
  | recoverLock (k : κ) (v : π)
  /-- `drc_release_lock_owner`, `drc_recycle_dls_master`: what is left of the
  contents, and whether somebody holds the lock or asks for it. -/
  | releaseLock (k : κ) (f : π → π) (busy : π → Bool)
  /-- `drc_request_page_owner`; when there is no free item, the page of the
  item `victim` is recycled. -/
  | createPage (k : κ) (v : π) (victim : Option Nat)
  /-- `drc_request_page_owner` that finds a reform after it has put the new page
  into the map. -/
  | createPageStopped (k : κ) (v : π)
  /-- `drc_release_page_owner`. -/
  | releasePage (k : κ) (busy : π → Bool)
  /-- `drc_buf_res_recycle`. -/
  | recyclePage (k : κ) (busy : π → Bool)
  /-- `drc_recycle_items` at one position of the pool. -/
  | recycleItem (i : Nat) (busy : π → Bool)
  | rebuildPages (recs : List (κ × π × (π → π)))
  | migratePages (accepted : Bool) (recs : List ρ)
  | migrateLocks (accepted : Bool) (recs : List ρ)
  | freePart (q : Nat)
  | cleanPart (q : Nat) (f : π → π) (busy : π → Bool) (limit : Nat)

section
variable {κ π ρ : Type*} [DecidableEq κ] [Inhabited κ] [Inhabited π]

open ResMap

/-- What a call leaves. -/
def resCall (W : Wire κ π ρ) (s : ResMap κ π) : ResCall κ π ρ → ResMap κ π
  | .lookup _ => s
  | .update k f =>
    match s.drcResMapLookup k with
    | none => s
    | some i => s.setInfo i (f (s.res i).info)
  | .createLock k v =>
    match s.drcResMapLookup k with
    | some _ => s
    | none =>
      match s.drcResPoolAllocItem with
      | none => s
      | some (i, s') => s'.addRes i k v
  | .recoverLock k v =>
    match s.drcResPoolAllocItem with
    | none => s
    | some (i, s') => s'.addRes i k v
  | .releaseLock k f busy =>
    match s.drcResMapLookup k with
    | none => s
    | some i =>
      let s' := s.setInfo i (f (s.res i).info)
      if busy (f (s.res i).info) then s' else (s'.drcResMapRemove k).drcReleaseLockRes i
  | .createPage k v victim =>
    match s.drcResMapLookup k with
    | some _ => s
    | none =>
      match s.drcResPoolAllocItem, victim with
      | some (i, s'), _ => s'.addRes i k v
      | none, none => s
      | none, some i =>
        if i < s.itemNum ∧ (s.res i).isUsed then
          (s.drcCleanPageOwnerInternal i).addRes (s.res i).idx k v
        else s
  | .createPageStopped k v =>
    match s.drcResMapLookup k with
    | some _ => s
    | none =>
      match s.drcResPoolAllocItem with
      | none => s
      | some (i, s') =>
        ((((s'.initRes i k v).drcResMapAdd (s'.hash k) i).drcResMapRemove k).clearRes
          i).drcResPoolFreeItem i
  | .releasePage k busy =>
    match s.drcResMapLookup k with
    | none => s
    | some i => if busy (s.res i).info then s else s.releasePageRes k i
  | .recyclePage k busy =>
    match s.drcResMapLookup k with
    | none => s
    | some i =>
      if busy (s.res i).info then s
      else (s.drcCleanPageOwnerInternal i).drcResPoolFreeItem (s.res i).idx
  | .recycleItem i busy =>
    if i < s.itemNum ∧ (s.res i).isUsed ∧ ¬ busy (s.res i).info then
      (s.drcCleanPageOwnerInternal i).drcResPoolFreeItem (s.res i).idx
    else s
  | .rebuildPages recs => drcRcyPageInfoL recs s
  | .migratePages accepted recs => (drcProcessBufMasterBlk W accepted recs s).2
  | .migrateLocks accepted recs => drcProcessLockMasterBlk W accepted recs s
  | .freePart q => drcFreeResByPart q s
  | .cleanPart q f busy limit => drcCleanPageOwnerByPart q f busy limit s

/-- One step of the directory. -/
def resStep (W : Wire κ π ρ) (s : ResMap κ π) (c : ResCall κ π ρ) : Option (ResMap κ π) :=
  some (resCall W s c)

end

end Cantian.Drc
