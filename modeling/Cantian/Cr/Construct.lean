import Cantian.Xact.TxnInfo

/-!
# Construction of a consistent read page

A reader copies a heap page (`pcr_heap_scan.c`) or an index leaf
(`pcr_btree_scan.c`) and rolls the copy back to its query scn: round by round
it looks for an ITL the query must not see and reverts that ITL from its undo
list. With XA consistency on, a transaction prepared before the query scn may
have to be seen, so the reader is to wait for it. The leaf records the
transaction in `cursor->wxid` and stops; the heap records it in `session->wxid`
only and goes on to roll it back.

In a cluster the leaf is sent to the instance that the ITL belongs to
(`dtc_btree.c`, `dtc_dcs.c`), which rolls back its own ITLs, sends the page on
to the next owner, and at the end answers the reader.

The rows of the page and the revert of one change are parameters. Messages are
not lost; an unanswered request is sent again with the same page.
-/

namespace Cantian.Cr

open List
open Xact (TxnInfo)

/-! ## Transactions -/

/-- `xid_t`. -/
structure Xid where
  segId : Nat
  slot : Nat
  xnum : Nat
deriving DecidableEq

/-- What the construction reads of the kernel and of `g_dtc`. -/
structure Kernel where
  undo : Nat → Xact.Undo
  inProgress : Xid → Bool
  currScn : Nat
  isXaConsistency : Bool
  isCluster : Bool
  /-- The instance of the reader. -/
  id : Nat
  /-- `xid_get_inst_id`. -/
  instId : Xid → Nat
  nodeCount : Nat
  enableRmoCr : Nat → Bool

/-- `tx_get_info` at the instance of the transaction. -/
def txGetInfo (k : Kernel) (isScan : Bool) (xid : Xid) : TxnInfo :=
  Xact.txGetInfo (k.undo xid.segId) isScan (k.inProgress xid) k.currScn xid.slot xid.xnum

/-! ## The page -/

/-- `undo_row_t`: the row that gave the ITL to this transaction, with the
previous owner, or a change of the page. -/
inductive UndoType (δ : Type)
  | itl (xid : Xid) (scn : Nat) (isOwscn : Bool)
  | change (data : δ)

structure UndoRow (δ : Type) where
  xid : Xid
  ssn : Nat
  /-- The page is in the buffer of the instance of the transaction. -/
  cached : Bool
  type : UndoType δ

/-- `pcr_itl_t`. `undo` is the list the pair `undo_page`, `undo_slot` leads to;
it ends where the undo is not there any more. -/
structure PcrItl (δ : Type) where
  xid : Xid
  ssn : Nat
  scn : Nat
  fsc : Nat
  isOwscn : Bool
  isActive : Bool
  isHist : Bool
  isFast : Bool
  undo : List (UndoRow δ)

/-- `cr_cursor_t`, the part that the construction only reads. -/
structure CrCursor where
  xid : Xid
  ssn : Nat
  queryScn : Nat

/-- The rows of a page with its free size. -/
structure Body (β : Type) where
  rows : β
  freeSize : Nat

/-- The CR page, and what the construction writes in the cursor (`wxid`,
`cleanout`) and in the session. -/
structure CrPage (β δ : Type) where
  itls : List (PcrItl δ)
  body : Body β
  scn : Nat
  wxid : Option Xid
  cleanout : Bool
  sessionWxid : Option Xid

inductive PageKind
  | heap
  | leaf
deriving DecidableEq

variable {β δ : Type}

def txGetPcrItlInfo (k : Kernel) (isScan : Bool) (itl : PcrItl δ) : TxnInfo :=
  if itl.isActive then
    if !itl.isHist then txGetInfo k isScan itl.xid
    else ⟨.xactBegin, k.currScn, false⟩
  else
    ⟨.xactEnd, itl.scn, itl.isOwscn⟩

/-! ## The search for an invisible ITL -/

/-- How one turn of the loop over the ITLs ends. -/
inductive Turn (β δ : Type)
  | next (p : CrPage β δ) (itl : Option Nat)
  | stop (p : CrPage β δ) (itl : Option Nat)
  | error

/-- The status and scn that make a reader wait. -/
def prepared (info : TxnInfo) (cur : CrCursor) : Bool :=
  (info.status = .xactPhase1 ∨ info.status = .xactPhase2) ∧ info.scn < cur.queryScn

/-- The first part of the `XACT_END` branch. Only the heap gives the reserved
space back and cleans out an ITL that was committed fast. -/
def cleanoutItl (kind : PageKind) (p : CrPage β δ) (i : Nat) (item : PcrItl δ)
    (info : TxnInfo) : CrPage β δ :=
  if item.isActive then
    { p with
      cleanout := true
      body := if kind = .heap then { p.body with freeSize := p.body.freeSize + item.fsc }
        else p.body
      itls := p.itls.set i
        { item with isActive := false, scn := info.scn, isOwscn := info.isOwscn } }
  else if kind = .heap ∧ item.isFast then { p with cleanout := true }
  else p

/-- The ITL of the larger scn, the earlier one of equals. -/
def recentItl (p : CrPage β δ) (itl : Option Nat) (i : Nat) (scn : Nat) : Option Nat :=
  match itl.bind (p.itls[·]?) with
  | none => some i
  | some best => if best.scn < scn then some i else itl

def fetchTurn (kind : PageKind) (k : Kernel) (cur : CrCursor) (p : CrPage β δ)
    (itl : Option Nat) (i : Nat) (item : PcrItl δ) : Turn β δ :=
  let info := txGetPcrItlInfo k true item
  if kind = .leaf ∧ k.nodeCount ≤ k.instId item.xid then .error
  else if info.status = .xactEnd then
    let p := cleanoutItl kind p i item info
    if info.scn ≤ cur.queryScn then .next p itl
    else if info.isOwscn then .error
    else .next p (recentItl p itl i info.scn)
  else if item.xid = cur.xid then
    if item.ssn < cur.ssn then .next p itl else .stop p (some i)
  else if k.isXaConsistency ∧ prepared info cur then
    match kind with
    | .heap => .stop { p with sessionWxid := some item.xid } (some i)
    | .leaf => .stop { p with sessionWxid := some item.xid, wxid := some item.xid } itl
  else .stop p (some i)

def fetchLoop (kind : PageKind) (k : Kernel) (cur : CrCursor) :
    Nat → Nat → CrPage β δ → Option Nat → Option (CrPage β δ × Option Nat)
  | 0, _, p, itl => some (if itl = none then { p with scn := cur.queryScn } else p, itl)
  | todo + 1, i, p, itl =>
    match p.itls[i]? with
    | none => none
    | some item =>
      match fetchTurn kind k cur p itl i item with
      | .next p itl => fetchLoop kind k cur todo (i + 1) p itl
      | .stop p itl => some (p, itl)
      | .error => none

/-- `pcrh_fetch_invisible_itl` and `pcrb_get_invisible_itl`; `none` is
`CT_ERROR`. -/
def fetchInvisibleItl (kind : PageKind) (k : Kernel) (cur : CrCursor) (p : CrPage β δ) :
    Option (CrPage β δ × Option Nat) :=
  fetchLoop kind k cur p.itls.length 0 p none

/-! ## The rollback of one ITL -/

/-- The loop over the undo list; the last result is whether another instance
than the reader's (`isRemote`) stops at an undo page that it would have to read
from disk. -/
def undoLoop (revert : δ → Body β → Option (Body β)) (cur : CrCursor) (isRemote : Bool) :
    List (UndoRow δ) → PcrItl δ → Body β → Option (PcrItl δ × Body β × Bool)
  | [], _, _ => none
  | row :: undo, itl, body =>
    if isRemote && !row.cached then some ({ itl with undo := row :: undo }, body, true)
    else if itl.xid ≠ row.xid then none
    else if row.xid = cur.xid ∧ row.ssn < cur.ssn then
      some ({ itl with ssn := row.ssn, undo := row :: undo }, body, false)
    else
      match row.type with
      | .itl xid scn isOwscn =>
        some ({ itl with xid, scn, isOwscn, undo, isActive := false }, body, false)
      | .change data =>
        match revert data body with
        | none => none
        | some body => undoLoop revert cur isRemote undo { itl with ssn := row.ssn, undo } body

/-- `pcrh_reorganize_with_ud_list` and `pcrb_reorganize_with_undo_list`; the
last result is `local_cr`. -/
def reorganizeWithUndoList (kind : PageKind) (revert : δ → Body β → Option (Body β))
    (cur : CrCursor) (isRemote : Bool) (p : CrPage β δ) (i : Nat) :
    Option (CrPage β δ × Bool) :=
  match p.itls[i]? with
  | none => none
  | some item =>
    let body := if kind = .heap ∧ item.isActive then
        { p.body with freeSize := p.body.freeSize + item.fsc } else p.body
    let itl := { item with
      isActive := true
      isHist := true
      fsc := if kind = .heap then 0 else item.fsc }
    match undoLoop revert cur isRemote item.undo itl body with
    | none => none
    | some (itl, body, localCr) => some ({ p with itls := p.itls.set i itl, body }, localCr)

/-! ## The construction -/

/-- Where the page is worked on: at the reader, or at another instance for it,
with `local_cr` of the cursor there. -/
inductive Place
  | reader (localCr : Bool)
  | remote (inst : Nat) (localCr : Bool)
deriving DecidableEq

/-- How a round ends: with an error, with what the reader gets, or with the
page and the reader's own copy of it at the place that goes on. -/
inductive Round (β δ : Type)
  | error
  | done (p : CrPage β δ)
  | goto (place : Place) (sent p : CrPage β δ)

/-- A round at the reader, `dtc_btree_construct_cr_page`. The other two loops,
`pcrh_construct_cr_page_interface` and that of `pcrb_construct_cr_page`, do the
same with `local_cr` set. -/
def readerRound (kind : PageKind) (revert : δ → Body β → Option (Body β)) (k : Kernel)
    (cur : CrCursor) (localCr : Bool) (p : CrPage β δ) : Round β δ :=
  match fetchInvisibleItl kind k cur p with
  | none => .error
  | some (p, none) => .done p
  | some (p, some i) =>
    if p.wxid ≠ none then .done p
    else
      match p.itls[i]? with
      | none => .error
      | some item =>
        if k.instId item.xid = k.id ∨ localCr then
          match reorganizeWithUndoList kind revert cur false p i with
          | none => .error
          | some (p, _) => .goto (.reader localCr) p p
        else .goto (.remote (k.instId item.xid) false) p p

/-- A round of `dcs_btree_construct_cr_page` on the page that `sent` was sent
as. The first answer is the page itself, the second one the transaction to wait
for (`dcs_send_pcr_ack`, `dcs_send_txn_wait`); otherwise the request goes on to
the next instance or comes back to the reader (`dcs_send_pcr_request`). -/
def remoteRound (kind : PageKind) (revert : δ → Body β → Option (Body β)) (k : Kernel)
    (cur : CrCursor) (inst : Nat) (localCr : Bool) (sent p : CrPage β δ) : Round β δ :=
  match fetchInvisibleItl kind k cur p with
  | none => .error
  | some (p, none) => .done { p with wxid := sent.wxid, sessionWxid := sent.sessionWxid }
  | some (p, some i) =>
    if p.wxid ≠ none then .done { sent with wxid := p.wxid }
    else
      match p.itls[i]? with
      | none => .error
      | some item =>
        let owner := k.instId item.xid
        if owner = inst ∧ !localCr then
          match reorganizeWithUndoList kind revert cur true p i with
          | none => .error
          | some (p, localCr) => .goto (.remote inst localCr) sent p
        else
          let localCr := k.enableRmoCr inst || localCr
          if localCr ∨ owner = k.id then .goto (.reader localCr) p p
          else .goto (.remote owner false) sent p

def round (kind : PageKind) (revert : δ → Body β → Option (Body β)) (k : Kernel)
    (cur : CrCursor) : Place → CrPage β δ → CrPage β δ → Round β δ
  | .reader localCr, _, p => readerRound kind revert k cur localCr p
  | .remote inst localCr, sent, p => remoteRound kind revert k cur inst localCr sent p

/-- The rounds of the construction: out of fuel, `CT_ERROR`, or the page. -/
def constructLoop (kind : PageKind) (revert : δ → Body β → Option (Body β)) (k : Kernel)
    (cur : CrCursor) : Nat → Place → CrPage β δ → CrPage β δ → Option (Option (CrPage β δ))
  | 0, _, _, _ => none
  | fuel + 1, place, sent, p =>
    match round kind revert k cur place sent p with
    | .error => some none
    | .done p => some (some p)
    | .goto place sent p => constructLoop kind revert k cur fuel place sent p

/-- The undo rows an ITL can still revert, with the ITL itself. -/
def rounds : List (PcrItl δ) → Nat
  | [] => 0
  | itl :: itls => 2 * itl.undo.length + 1 + rounds itls

variable (kind : PageKind) (revert : δ → Body β → Option (Body β)) (k : Kernel) (cur : CrCursor)
  (localCr : Bool) (itls : List (PcrItl δ)) (body : Body β) (scn : Nat) (sessionWxid : Option Xid)

/-- The construction, with the cursor as `pcrh_initialize_cr_cursor` and
`pcrb_init_cr_cursor` leave it. -/
def constructCrPage : Option (Option (CrPage β δ)) :=
  let p := { itls, body, scn, wxid := none, cleanout := false, sessionWxid }
  constructLoop kind revert k cur (5 * rounds itls + 5) (.reader localCr) p p

def pcrhConstructCrPageInterface : Option (Option (CrPage β δ)) :=
  constructCrPage .heap revert k cur true itls body scn sessionWxid

def dtcBtreeConstructCrPage : Option (Option (CrPage β δ)) :=
  constructCrPage .leaf revert k cur (k.enableRmoCr k.id) itls body scn sessionWxid

def pcrbConstructCrPage : Option (Option (CrPage β δ)) :=
  if k.isCluster then dtcBtreeConstructCrPage revert k cur itls body scn sessionWxid
  else constructCrPage .leaf revert k cur true itls body scn sessionWxid

end Cantian.Cr
