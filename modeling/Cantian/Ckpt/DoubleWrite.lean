import Cantian.Lib.Transition

/-!
# Checkpoint rounds with double write

A checkpoint round copies dirty pages into a group, writes the group to the
double-write district of the node and syncs it, saves the bounds of the
written range in the control file, writes the pages to their datafiles, and
saves the advanced start bound. A crash may cut the write that is going on;
`ckpt_recover_partial_write_node` then repairs the datafiles from the
district before anything else is done with them.

Pages are those of a clustered database, in which `ckpt_prepare_pages` does
not accept compressed page groups. Saving the control file is taken to
happen or not to happen.
-/

namespace Cantian.Ckpt

def doubleWritePages : Nat := 8 * 1024

def ctMaxCkptGroupSize : Nat := 8192

def dwDistrictBegin (nodeId : Nat) : Nat := 4 + nodeId * doubleWritePages

def dwDistrictEnd (nodeId : Nat) : Nat := dwDistrictBegin nodeId + doubleWritePages

structure PageId where
  file : Nat
  page : Nat
deriving DecidableEq, Repr

/-- A page image: what its head and tail say and the rest as `body`. `verified` is
the result of `page_verify_checksum`, and `punch` marks `PAGE_TYPE_PUNCH_PAGE`. -/
structure Image where
  id : PageId
  lsn : Nat
  body : Nat
  headPcn : Nat
  tailPcn : Nat
  checksum : Nat
  verified : Bool
  punch : Bool
deriving DecidableEq, Repr

def checkPagePcn (img : Image) : Bool := img.headPcn == img.tailPcn

/-- The test of `ckpt_recover_one` for an undamaged page. -/
def sound (img : Image) : Bool := checkPagePcn img && img.checksum != 0 && img.verified

/-- What a punched hole reads as. -/
def hole : Image := ⟨⟨0, 0⟩, 0, 0, 0, 0, 0, true, false⟩

lemma sound_hole : sound hole = false := rfl

/-- The files: the pages of the datafiles, the double-write district by page number,
and the bounds in the control file. -/
structure Store where
  disk : PageId → Image
  district : Nat → Image
  dwStart : Nat
  dwEnd : Nat

/-! ## Recovery -/

/-- `ckpt_recover_one`: the page that the datafile holds afterwards, `none` if it
panics. -/
def ckptRecoverOne (page orgPage : Image) (forceRecover : Bool) : Option Image :=
  if !forceRecover && sound orgPage && decide (orgPage.lsn ≥ page.lsn) then some orgPage
  else if !forceRecover && sound orgPage && !sound page then some orgPage
  else if !checkPagePcn page then none
  else if !(page.checksum == 0 || page.verified) then none
  else some page

/-- The pages that recovery passes over: those of the first file of the node's swap
space, and those in datafiles that are offline, by themselves or with their
space (`ckpt_recover_pages`, `ckpt_recover_page`). -/
def recoverSkips (swapFileHead : Nat) (offline : Nat → Bool) (p : PageId) : Bool :=
  p.file == swapFileHead || offline p.file

section
variable (nodeId : Nat) (skipped : PageId → Bool)

/-- The loop of `ckpt_recover_pages`. -/
def recoverLoop : List Image → (PageId → Image) → Option (PageId → Image)
  | [], disk => some disk
  | page :: pages, disk =>
    if skipped page.id then recoverLoop pages disk
    else
      match ckptRecoverOne page (disk page.id) false with
      | none => none
      | some img => recoverLoop pages fun p => if p = page.id then img else disk p

def ckptReadDoublewritePages (st : Store) : Option (List Image) :=
  if st.dwStart < dwDistrictBegin nodeId then none
  else if st.dwEnd > dwDistrictEnd nodeId then none
  else some ((List.range (st.dwEnd - st.dwStart)).map fun i => st.district (st.dwStart + i))

def ckptRecoverPages (st : Store) (group : List Image) : Option Store :=
  (recoverLoop skipped group st.disk).map fun disk =>
    { st with disk := disk, dwStart := st.dwEnd }

/-- `ckpt_recover_partial_write_node`; `none` if it panics. -/
def ckptRecoverPartialWriteNode (st : Store) : Option Store :=
  if st.dwStart = st.dwEnd then some st
  else
    match ckptReadDoublewritePages nodeId st with
    | none => none
    | some group => ckptRecoverPages skipped st group

end

/-! ## Rounds and crashes -/

/-- Where a round stands. -/
inductive Stage where
  /-- Between two rounds. -/
  | idle
  /-- Pages are copied; the group is being written to the district. -/
  | copied
  /-- The district is synced; the control file is being saved. -/
  | doubled
  /-- The bounds are saved; the pages are being written. -/
  | saved
  /-- The pages are written. -/
  | flushed
  /-- The start bound is advanced; the control file is being saved. -/
  | advanced
  /-- The process has crashed. -/
  | down
deriving DecidableEq, Repr

/-- A node: its files, the checkpoint context and its control record in memory, and
as history the datafiles before the current or interrupted round and the
copies taken in it. -/
structure Node where
  store : Store
  stage : Stage
  group : List Image
  dwCkptStart : Nat
  dwCkptEnd : Nat
  nodeDwStart : Nat
  nodeDwEnd : Nat
  before : PageId → Image
  copies : List Image

/-- What a crash makes of a page that was being written: it still has the old image,
or it has the new one, or it is torn. -/
inductive Fate where
  | kept
  | written
  | torn (img : { img : Image // sound img = false })

def Fate.apply : Fate → (old new : Image) → Image
  | .kept, old, _ => old
  | .written, _, new => new
  | .torn img, _, _ => img.val

/-- What the writer leaves for a page: the copy, or a hole for a punch page. -/
def written (img : Image) : Image := if img.punch then hole else img

/-- The image in the group for a page. -/
def groupPage (group : List Image) (p : PageId) : Option Image := group.find? fun img => img.id == p

/-- The datafiles after the group has been written. -/
def ckptFlushPages (group : List Image) (disk : PageId → Image) (p : PageId) : Image :=
  match groupPage group p with
  | none => disk p
  | some img => written img

/-- `ckpt_double_write`: `none` if it panics. -/
def ckptDoubleWrite (nodeId : Nat) (n : Node) : Option Node :=
  let start :=
    if n.dwCkptStart + n.group.length > dwDistrictEnd nodeId then dwDistrictBegin nodeId
    else n.dwCkptStart
  let stop := start + n.group.length
  if start < dwDistrictBegin nodeId then none
  else if stop > dwDistrictEnd nodeId then none
  else
    some { n with
      store := { n.store with
        district := fun i => if start ≤ i then (n.group[i - start]?).getD (n.store.district i)
          else n.store.district i }
      dwCkptStart := start
      dwCkptEnd := stop
      nodeDwStart := start
      nodeDwEnd := stop
      stage := .doubled }

def dtcSaveCtrl (n : Node) : Store :=
  { n.store with dwStart := n.nodeDwStart, dwEnd := n.nodeDwEnd }

/-- What happens on a node. The arguments of a crash say what becomes of the write
that it cuts: of each page, of each page of the district, and of the saving
of the control file. Recovery finds the datafiles `offline` offline; it may
crash itself (`recoverCut`). -/
inductive CkptAction where
  | copy (pages : List Image)
  | doubleWrite
  | save
  | flush
  | advance
  | saveEnd
  | crash (fate : PageId → Fate) (slots : Nat → Option Image) (ctrlSaved : Bool)
  | recover (offline : Nat → Bool)
  | recoverCut (offline : Nat → Bool) (fate : PageId → Fate)

/-- The pages that `ckpt_prepare_pages` may copy: at most a group, each once, with
valid checksums, and not older than what the datafile holds. -/
def copyable (disk : PageId → Image) (pages : List Image) : Bool :=
  !pages.isEmpty && decide (pages.length ≤ ctMaxCkptGroupSize) &&
    decide (pages.map Image.id).Nodup && pages.all fun img =>
      sound img && (!sound (disk img.id) || decide ((disk img.id).lsn ≤ img.lsn))

/-- The files after a crash. -/
def crashStore (n : Node) (fate : PageId → Fate) (slots : Nat → Option Image)
    (ctrlSaved : Bool) : Store :=
  match n.stage with
  | .copied =>
    -- any page of the district may be damaged while the group is written to it
    { n.store with district := fun i => (slots i).getD (n.store.district i) }
  | .saved =>
    { n.store with
      disk := fun p =>
        match groupPage n.group p with
        | none => n.store.disk p
        | some img => (fate p).apply (n.store.disk p) (written img) }
  | .doubled => if ctrlSaved then dtcSaveCtrl n else n.store
  | .advanced => if ctrlSaved then dtcSaveCtrl n else n.store
  | _ => n.store

/-- The crash comes when the last saving of the round is done. -/
def roundOver (n : Node) (ctrlSaved : Bool) : Bool :=
  n.stage == .idle || (n.stage == .advanced && ctrlSaved)

def ckptStep (nodeId swapFileHead : Nat) (n : Node) : CkptAction → Option Node
  | .copy pages =>
    if n.stage = .idle ∧ copyable n.store.disk pages then
      some { n with stage := .copied, group := pages, before := n.store.disk, copies := pages }
    else none
  | .doubleWrite => if n.stage = .copied then ckptDoubleWrite nodeId n else none
  | .save =>
    if n.stage = .doubled then some { n with store := dtcSaveCtrl n, stage := .saved } else none
  | .flush =>
    if n.stage = .saved then
      some { n with
        store := { n.store with disk := ckptFlushPages n.group n.store.disk }, stage := .flushed }
    else none
  | .advance =>
    if n.stage = .flushed then
      some { n with
        group := [], dwCkptStart := n.dwCkptEnd, nodeDwStart := n.dwCkptEnd, stage := .advanced }
    else none
  | .saveEnd =>
    if n.stage = .advanced then some { n with store := dtcSaveCtrl n, stage := .idle } else none
  | .crash fate slots ctrlSaved =>
    if n.stage = .down then none
    else
      let store := crashStore n fate slots ctrlSaved
      if roundOver n ctrlSaved then
        some { n with store := store, stage := .down, before := store.disk, copies := [] }
      else some { n with store := store, stage := .down }
  | .recover offline =>
    if n.stage = .down then
      (ckptRecoverPartialWriteNode nodeId (recoverSkips swapFileHead offline)
        n.store).map fun store =>
        { n with
          store := store, stage := .idle, group := []
          dwCkptStart := store.dwStart, dwCkptEnd := store.dwStart
          nodeDwStart := store.dwStart, nodeDwEnd := store.dwEnd }
    else none
  | .recoverCut offline fate =>
    -- the crash of the recovery itself may tear a page that it was writing
    if n.stage = .down then
      (ckptRecoverPartialWriteNode nodeId (recoverSkips swapFileHead offline)
        n.store).map fun store =>
        { n with
          store := { n.store with
            disk := fun p =>
              if store.disk p = n.store.disk p then n.store.disk p
              else (fate p).apply (n.store.disk p) (store.disk p) } }
    else none

/-- A node after the creation of the database. -/
structure Node.Fresh (nodeId : Nat) (n : Node) : Prop where
  stage : n.stage = .idle
  ctrlStart : n.store.dwStart = dwDistrictBegin nodeId
  ctrlEnd : n.store.dwEnd = dwDistrictBegin nodeId
  ckptStart : n.dwCkptStart = dwDistrictBegin nodeId
  ckptEnd : n.dwCkptEnd = dwDistrictBegin nodeId
  nodeStart : n.nodeDwStart = dwDistrictBegin nodeId
  nodeEnd : n.nodeDwEnd = dwDistrictBegin nodeId

end Cantian.Ckpt
