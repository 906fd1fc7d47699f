import Cantian.Dcs.Drc
import Cantian.Lib.LinkedPool

/-!
# The directory entry of a page with its convert queue

The calls of `dtc_drc.c` on the entry of one page, with the queue of waiting
requests as the source keeps it: items of the lock item pool, linked by item
numbers, next to the chain of the free items (`dtc_drc_util.c`). The items
of all other entries are in `other`.

A call runs as a whole. What it finds outside the directory (the state of
the reform, the answers of the instances that have to drop their copies, the
local buffer) is an argument of the call. A call that stops the process in
`knl_panic` has no result. A request is answered by the functions of
`Dcs.Drc` where they read nothing of the entry.
-/

namespace Cantian.Drc

open Lib Dcs

/-- `drc_res_action_e`, without the action that is set nowhere. -/
inductive ResAction where
  | invalid
  | pending
  | share
  | exclusive
deriving DecidableEq, Repr

/-- `drc_buf_res_t`; an invalid instance id is `none`. The requests, the queue
of the waiting ones and the pending action have the types `ρ`, `θ` and `α`. -/
structure BufResOf (ρ θ α : Type) where
  claimedOwner : Option InstId
  mode : LockMode
  readonlyCopies : Finset InstId
  edpMap : Finset InstId
  latestEdp : Option InstId
  latestEdpLsn : Nat
  lsn : Nat
  pending : α
  converting : Option ρ
  convertQ : θ
deriving DecidableEq

/-- The entry of a page, with the items of its queue in the pool. -/
abbrev BufRes := BufResOf DrcReqInfo LinkedQueue ResAction

/-- `ctx->lock_item_pool`. -/
abbrev LockItemPool := ItemPool DrcReqInfo

/-- A memory of zeros. -/
def zeroReqInfo : DrcReqInfo := ⟨0, 0, 0, .null, .null, 0⟩

def drcResPoolInit (itemNum : Nat) : LockItemPool where
  cell i := ⟨if i + 1 < itemNum then some (i + 1) else none, zeroReqInfo⟩
  freeList := some 0

/-- What a call returns, and the pool and the entry that it leaves behind. -/
structure Res (β : Type) where
  ret : β
  pool : LockItemPool
  entry : Option BufRes

/-! ## Requests -/

/-- `drc_req_owner_result_type`. -/
inductive OwnerResultType where
  | invalid
  | granted
  | alreadyOwner
  | converting
  | waiting
deriving DecidableEq, Repr

/-- `drc_req_owner_result_t`. -/
structure OwnerResult where
  type : OwnerResultType
  action : ResAction
  isRetry : Bool
  currOwner : Option InstId
  readonlyCopies : Finset InstId
  reqMode : LockMode
deriving DecidableEq

def OwnerResult.init (req : DrcReqInfo) : OwnerResult :=
  ⟨.invalid, .invalid, false, none, ∅, req.reqMode⟩

/-- What a request finds outside the directory. -/
structure ReqEnv where
  /-- The page is not readable, or the request is of an older reform. -/
  stopped : Bool
  /-- There is no memory for a new entry. -/
  noBufRes : Bool
  /-- The recovery is done. -/
  recovered : Bool
  /-- All the read-only copies were dropped. -/
  invalidated : Bool
deriving DecidableEq, Repr

def drcCheckNewReq (e : BufRes) (cvt req : DrcReqInfo) : Bool :=
  !(e.claimedOwner == some cvt.instId && (e.mode == .share && cvt.reqMode == .exclusive)
      && e.claimedOwner != some req.instId && decide (req.instId ∈ e.readonlyCopies))
  && !(e.claimedOwner == some req.instId && req.instId != cvt.instId)

/-- `drc_search_item_by_reqid`. A chain of the pool is not longer than the
pool. -/
def drcSearchItemByReqid (itemNum : Nat) (p : LockItemPool) (q : LinkedQueue) (req : DrcReqInfo) :
    Option Nat :=
  p.search (drcIsRetryRequest · req) itemNum q.first

inductive WaitResult where
  | panic
  | error
  /-- The request is now the converting one, with the mode that it got. -/
  | converting (e : BufRes) (req : DrcReqInfo) (isRetry : Bool)
  | waiting (p : LockItemPool) (e : BufRes)

/-- The end of `drc_keep_requester_wait`: the request goes to the queue. -/
def enqueueRequest (p : LockItemPool) (e : BufRes) (req : DrcReqInfo) : WaitResult :=
  match p.alloc with
  | none => .error
  | some (i, p') =>
    .waiting (p'.enqueue e.convertQ i req).1 { e with convertQ := (p'.enqueue e.convertQ i req).2 }

def drcKeepRequesterWait (itemNum : Nat) (p : LockItemPool) (e : BufRes) (req : DrcReqInfo)
    (isTry : Bool) : WaitResult :=
  match e.converting with
  | none =>
    if isTry && e.claimedOwner != some req.instId then .waiting p e
    else if e.convertQ.count ≠ 0 then .panic
    else .converting { e with converting := some req } req false
  | some cvt =>
    if isTry then .waiting p e
    else if !drcCheckNewReq e cvt req then .error
    else if drcIsRetryRequest cvt req then
      if cvt.rsn ≤ req.rsn then
        let req' := { req with reqMode := cvt.reqMode.max req.reqMode }
        .converting { e with converting := some req' } req' true
      else .error
    else if 0 < e.convertQ.count then
      match drcSearchItemByReqid itemNum p e.convertQ req with
      | some i =>
        if (p.cell i).val.lsn ≠ req.lsn then .error
        else .waiting (p.setCell i { p.cell i with val := req }) e
      | none => enqueueRequest p e req
    else enqueueRequest p e req

def drcSelectOneInstanceFromReadonlyCopy (copies : Finset InstId) : Option InstId :=
  (List.finRange 64).find? (· ∈ copies)

/-- `drc_clean_buf_res`, for an entry without an owner. -/
def drcCleanBufRes (e : BufRes) : Option BufRes :=
  if e.readonlyCopies ≠ ∅ then
    if e.mode ≠ .share then none
    else
      let owner := drcSelectOneInstanceFromReadonlyCopy e.readonlyCopies
      some
        { e with
          claimedOwner := owner
          pending := .share
          readonlyCopies := owner.elim e.readonlyCopies e.readonlyCopies.erase }
  else if e.edpMap ≠ ∅ then
    if e.latestEdp = none ∨ e.mode = .share then none
    else some { e with claimedOwner := e.latestEdp, pending := .exclusive }
  else some e

/-- The copies that have to be dropped for an exclusive request. -/
def copiesToInvalidate (e : BufRes) (i : InstId) : Finset InstId :=
  e.claimedOwner.elim (e.readonlyCopies.erase i) (e.readonlyCopies.erase i).erase

/-- The entry after `dcs_invalidate_readonly_copy`, if it is called. -/
def afterInvalidate (e : BufRes) (req : DrcReqInfo) (invalidated : Bool) : BufRes :=
  if copiesToInvalidate e req.instId ≠ ∅ ∧ req.reqMode = .exclusive ∧ invalidated = true then
    { e with readonlyCopies := ∅ }
  else e

/-- The result of a request that is converted. -/
def convertResult (e : BufRes) (req : DrcReqInfo) (isRetry : Bool) : OwnerResult where
  type := if e.claimedOwner = some req.instId then .alreadyOwner else .converting
  action := e.pending
  isRetry := isRetry
  currOwner := e.claimedOwner
  readonlyCopies := copiesToInvalidate e req.instId
  reqMode := req.reqMode

/-- `drc_request_page_owner` for a page that has an owner. -/
def drcRequestOwnedPage (itemNum : Nat) (p : LockItemPool) (e : BufRes) (req : DrcReqInfo)
    (isTry : Bool) (env : ReqEnv) : Option (Res (Bool × OwnerResult)) :=
  match drcKeepRequesterWait itemNum p e req isTry with
  | .panic => none
  | .error => some ⟨(false, .init req), p, some e⟩
  | .waiting p' e' =>
    some ⟨(true, { OwnerResult.init req with type := .waiting, currOwner := e.claimedOwner }),
      p', some e'⟩
  | .converting e' req' isRetry =>
    let result := convertResult e' req' isRetry
    if isTry && result.type == .converting then none
    else
      let ok := decide (result.readonlyCopies = ∅) || req'.reqMode != .exclusive || env.invalidated
      some ⟨(ok, result), p, some (afterInvalidate e' req' env.invalidated)⟩

/-- The entry made for the first request of a page that nobody has. -/
def newBufRes (req : DrcReqInfo) : BufRes where
  claimedOwner := some req.instId
  mode := req.reqMode
  readonlyCopies := ∅
  edpMap := ∅
  latestEdp := none
  latestEdpLsn := 0
  lsn := 0
  pending := .invalid
  converting := none
  convertQ := .empty

def drcRequestPageOwner (itemNum : Nat) (p : LockItemPool) (entry : Option BufRes)
    (req : DrcReqInfo) (isTry : Bool) (env : ReqEnv) : Option (Res (Bool × OwnerResult)) :=
  let granted := { OwnerResult.init req with type := .granted, currOwner := some req.instId }
  if env.stopped then some ⟨(false, .init req), p, entry⟩
  else
    match entry with
    | none =>
      if env.noBufRes then some ⟨(false, .init req), p, none⟩
      else some ⟨(true, granted), p, some (newBufRes req)⟩
    | some e =>
      if e.pending = .pending then some ⟨(false, .init req), p, some e⟩
      else if e.claimedOwner ≠ none then drcRequestOwnedPage itemNum p e req isTry env
      else if !env.recovered then some ⟨(false, .init req), p, some e⟩
      else
        match drcCleanBufRes e with
        | none => none
        | some e' =>
          if e'.claimedOwner ≠ none then drcRequestOwnedPage itemNum p e' req isTry env
          else
            some ⟨(true, granted), p,
              some { e' with claimedOwner := some req.instId, mode := req.reqMode }⟩

/-! ## Claims -/

def drcClaimInfoIsInvalid (c : ClaimInfo) (e : BufRes) : Bool :=
  (if c.mode = .share then e.claimedOwner.isNone
    else c.hasEdp && !(c.mode == .exclusive && c.lsn != 0))
  || decide (0 < c.lsn ∧ c.lsn < e.lsn)

/-- The owner that a claim records in an entry. -/
def recordOwner (e : BufRes) (c : ClaimInfo) : BufRes :=
  if c.mode = .share then
    { e with mode := .share, readonlyCopies := insert c.newId e.readonlyCopies }
  else
    let edpMap := e.edpMap.erase c.newId
    { e with
      claimedOwner := some c.newId
      mode := c.mode
      readonlyCopies := ∅
      edpMap := if c.hasEdp then e.claimedOwner.elim edpMap (insert · edpMap) else edpMap
      latestEdp := if c.hasEdp then e.claimedOwner else e.latestEdp
      latestEdpLsn := if c.hasEdp then c.lsn else e.latestEdpLsn }

/-- `drc_claim_new_page_owner`, in a release build. -/
def drcClaimNewPageOwner (e : BufRes) (cvt : DrcReqInfo) (c : ClaimInfo) : Option BufRes :=
  if cvt.reqMode ≠ c.mode ∨ e.pending = .pending then none
  else
    let e := { e with pending := .invalid }
    if c.mode ≤ e.mode ∧ e.claimedOwner = some c.newId then some e
    else if c.mode = .share ∧ e.claimedOwner = none then none
    else if c.mode ≠ .share ∧ c.hasEdp ∧ ¬(c.mode = .exclusive ∧ c.lsn ≠ 0) then none
    else if 0 < c.lsn then
      if c.lsn < e.lsn then none else some { recordOwner e c with lsn := c.lsn }
    else some (recordOwner e c)

/-- The loop of `drc_convert_next_request`, which takes at most `count`
items from the queue. -/
def convertLoop (timeout now : Nat) : Nat → LockItemPool → BufRes → Option (LockItemPool × BufRes)
  | 0, p, e => some (p, { e with converting := none })
  | count + 1, p, e =>
    match e.convertQ.first with
    | none => none
    | some i =>
      let req := (p.cell i).val
      let e' := { e with converting := some req, convertQ := p.unlink e.convertQ i }
      if req.rsn + timeout ≤ now then convertLoop timeout now count (p.free i) e'
      else some (p.free i, e')

/-- `drc_check_first_req_in_convert_queue`: the item that was taken out. -/
def drcCheckFirstReqInConvertQueue (p : LockItemPool) (e : BufRes) : BufRes × Option Nat :=
  match e.converting, e.convertQ.first with
  | some cvt, some i =>
    if e.convertQ.count ≠ 0 ∧ drcCheckNewReq e cvt (p.cell i).val = false then
      ({ e with convertQ := p.unlink e.convertQ i }, some i)
    else (e, none)
  | _, _ => (e, none)

/-- `drc_convert_next_request`. The queue is empty when there is no next
request. -/
def drcConvertNextRequest (timeout now : Nat) (p : LockItemPool) (e : BufRes) :
    Option (LockItemPool × BufRes × Option Nat) :=
  (convertLoop timeout now e.convertQ.count p e).map fun (p', e') =>
    (p', drcCheckFirstReqInConvertQueue p' e')

/-- What `drc_claim_page_owner` tells its caller: the next converting
request, its owner and the copies to drop, and the request that gets an
error message. -/
structure CvtInfo where
  req : Option DrcReqInfo
  ownerId : Option InstId
  readonlyCopies : Finset InstId
  rejected : Option DrcReqInfo
deriving DecidableEq

def CvtInfo.none : CvtInfo := ⟨.none, .none, ∅, .none⟩

def drcClaimPageOwner (timeout now : Nat) (p : LockItemPool) (entry : Option BufRes)
    (c : ClaimInfo) (invalidated : Bool) : Option (Res CvtInfo) :=
  match entry with
  | none => some ⟨.none, p, none⟩
  | some e =>
    match e.converting with
    | none => some ⟨.none, p, some e⟩
    | some cvt =>
      if !drcIsSameClaimRequest cvt c || drcClaimInfoIsInvalid c e then some ⟨.none, p, some e⟩
      else
        match drcClaimNewPageOwner e cvt c with
        | none => none
        | some e₁ =>
          match drcConvertNextRequest timeout now p e₁ with
          | none => none
          | some (p₂, e₂, conflict) =>
            let copies := e₂.converting.elim ∅ fun req => copiesToInvalidate e₂ req.instId
            some
              { ret := ⟨e₂.converting, e₂.claimedOwner, copies,
                  conflict.map fun i => (p₂.cell i).val⟩
                pool := conflict.elim p₂ p₂.free
                entry := some
                  (e₂.converting.elim e₂ fun req => afterInvalidate e₂ req invalidated) }

/-! ## Release, cleaning of earlier dirty pages -/

/-- `drc_release_page_owner`: whether the page was released. -/
def drcReleasePageOwner (p : LockItemPool) (entry : Option BufRes) (oldId : InstId) :
    Option (Res Bool) :=
  match entry with
  | none => none
  | some e =>
    if e.claimedOwner ≠ some oldId then
      some ⟨e.converting.all fun cvt => cvt.instId != oldId, p, some e⟩
    else if e.converting ≠ none ∨ e.edpMap ≠ ∅ then some ⟨false, p, some e⟩
    else some ⟨true, p, none⟩

def drcCleanEdpInfo (p : LockItemPool) (entry : Option BufRes) (lsn : Nat) : Res Bool :=
  match entry with
  | none => ⟨false, p, none⟩
  | some e =>
    let e' :=
      if e.lsn ≤ lsn then { e with edpMap := ∅, latestEdp := none, latestEdpLsn := 0 } else e
    ⟨true, p, some e'⟩

/-! ## Cleaning after an instance died -/

/-- The loop of `drc_clean_convert_q`, with the requests of other instances
that get an error message. -/
def cleanLoop (instId : InstId) : Nat → LockItemPool → Option Nat → LockItemPool × List DrcReqInfo
  | count + 1, p, some i =>
    let (p', rejected) := cleanLoop instId count (p.free i) (p.cell i).next
    (p', if (p.cell i).val.instId ≠ instId then (p.cell i).val :: rejected else rejected)
  | _, p, _ => (p, [])

def drcCleanConvertQ (instId : InstId) (p : LockItemPool) (q : LinkedQueue) :
    LockItemPool × LinkedQueue × List DrcReqInfo :=
  if q.count = 0 then (p, q, [])
  else
    let (p', rejected) := cleanLoop instId q.count p q.first
    (p', .empty, rejected)

/-- `drc_revert_converting_page_abort_owner`; `ctrl` is the page in the local
buffer. -/
def drcRevertConvertingPageAbortOwner (self : InstId) (ctrl : Option BufCtrl) (e : BufRes) :
    BufRes :=
  match ctrl with
  | none => e
  | some c =>
    let e := { e with mode := c.lockMode }
    let e :=
      if c.lockMode = .null then
        { e with readonlyCopies := e.readonlyCopies.erase self, claimedOwner := none }
      else e
    if c.isEdp then
      { e with
        edpMap := insert self e.edpMap, latestEdp := some self, latestEdpLsn := c.page.lsn }
    else e

/-- `drc_revert_converting_page_non_abort_owner`, with the request that gets
an error message. -/
def drcRevertConvertingPageNonAbortOwner (ctrl : Option BufCtrl) (cvt : DrcReqInfo) (e : BufRes) :
    BufRes × List DrcReqInfo :=
  match ctrl with
  | none => ({ e with converting := none }, [])
  | some c =>
    match c.lockMode with
    | .null => ({ e with converting := none }, [cvt])
    | .share => ({ e with converting := none }, [])
    | .exclusive => ({ e with converting := none, claimedOwner := some cvt.instId }, [])

def drcCleanPageConverting (instId self : InstId) (ctrl : Option BufCtrl) (p : LockItemPool)
    (e : BufRes) : LockItemPool × BufRes × List DrcReqInfo :=
  match e.converting with
  | none => (p, e, [])
  | some cvt =>
    if cvt.instId = instId then
      if e.convertQ.count = 0 then
        (p, drcRevertConvertingPageAbortOwner self ctrl { e with converting := none }, [])
      else
        match e.convertQ.first with
        | none => (p, e, [])
        | some i =>
          let q := p.unlink e.convertQ i
          let e' :=
            { e with
              converting := some (p.cell i).val
              convertQ := if q.count = 0 then .empty else q }
          (p.free i, drcRevertConvertingPageAbortOwner self ctrl e', [])
    else (p, drcRevertConvertingPageNonAbortOwner ctrl cvt e)

/-- The end of `drc_clean_page_owner_by_part`: what is left of the entry
without the instance. -/
def cleanInst (instId : InstId) (e : BufRes) : Option BufRes :=
  let e :=
    { e with
      edpMap := e.edpMap.erase instId
      readonlyCopies := e.readonlyCopies.erase instId
      latestEdp := if e.latestEdp = some instId then none else e.latestEdp
      latestEdpLsn := if e.latestEdp = some instId then 0 else e.latestEdpLsn }
  if e.claimedOwner ≠ none ∧ e.claimedOwner ≠ some instId then some e
  else if e.readonlyCopies ≠ ∅ ∨ e.edpMap ≠ ∅ then
    some { e with claimedOwner := none, pending := .invalid }
  else none

/-- `drc_clean_page_owner_by_part` for one entry of the part, with the
requests that get an error message. -/
def drcCleanPageOwner (instId self : InstId) (ctrl : Option BufCtrl) (p : LockItemPool)
    (e : BufRes) : Res (List DrcReqInfo) :=
  let (p₁, q, rejected) := drcCleanConvertQ instId p e.convertQ
  let (p₂, e₂, rejected') := drcCleanPageConverting instId self ctrl p₁ { e with convertQ := q }
  ⟨rejected ++ rejected', p₂, cleanInst instId e₂⟩

/-! ## Sequences of calls -/

structure Config where
  /-- The size of the lock item pool. -/
  itemNum : Nat
  /-- `DCS_WAIT_MSG_TIMEOUT`. -/
  timeout : Nat
  /-- `DRC_SELF_INST_ID`. -/
  self : InstId

structure Sys where
  pool : LockItemPool
  entry : Option BufRes
  other : List Nat

structure Sys.Fresh (cfg : Config) (s : Sys) : Prop where
  itemNum : 0 < cfg.itemNum
  pool : s.pool = drcResPoolInit cfg.itemNum
  entry : s.entry = none
  other : s.other = []

inductive Call where
  | request (req : DrcReqInfo) (isTry : Bool) (env : ReqEnv)
  | claim (c : ClaimInfo) (now : Nat) (invalidated : Bool)
  | release (oldId : InstId)
  | cleanEdp (lsn : Nat)
  | clean (instId : InstId) (ctrl : Option BufCtrl)
  /-- Another entry takes an item, writes to one of its items or returns one. -/
  | otherAlloc
  | otherWrite (i : Nat) (c : Cell DrcReqInfo)
  | otherFree (i : Nat)

def Sys.after {β : Type} (s : Sys) (r : Res β) : Sys :=
  { s with pool := r.pool, entry := r.entry }

def step (cfg : Config) (s : Sys) : Call → Option Sys
  | .request req isTry env =>
    (drcRequestPageOwner cfg.itemNum s.pool s.entry req isTry env).map s.after
  | .claim c now invalidated =>
    (drcClaimPageOwner cfg.timeout now s.pool s.entry c invalidated).map s.after
  | .release oldId => (drcReleasePageOwner s.pool s.entry oldId).map s.after
  | .cleanEdp lsn => some (s.after (drcCleanEdpInfo s.pool s.entry lsn))
  | .clean instId ctrl =>
    match s.entry with
    | none => some s
    | some e => some (s.after (drcCleanPageOwner instId cfg.self ctrl s.pool e))
  | .otherAlloc =>
    s.pool.alloc.map fun (i, p) => { s with pool := p, other := i :: s.other }
  | .otherWrite i c => if i ∈ s.other then some { s with pool := s.pool.setCell i c } else none
  | .otherFree i =>
    if i ∈ s.other then some { s with pool := s.pool.free i, other := s.other.erase i } else none

end Cantian.Drc
