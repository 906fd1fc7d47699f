import Cantian.Dcs.Types
import Cantian.Lib.Bitmap
import Cantian.Lib.Transition

/-!
# The lock entry of the master

For every lock a master keeps an entry (`drc_master_res_t`): who has the lock
in which mode, the request that is converted at the moment, and the requests
that wait. The functions below are those of the lock directory, each under the
bucket lock, so one call is one step. A result `none` is a `knl_panic`. Whether
a call is turned away because of a reform and whether the pools have an item
left are arguments of the calls.

A request that has to wait polls the entry after it was put into the queue
(`drcPollLockOwner` is one such look).
-/

namespace Cantian.Dls

open Cantian.Lib

/-- `CT_MAX_INSTANCES` instances. -/
abbrev Inst := Dcs.InstId

/-- `drc_lock_mode_e`. -/
inductive Mode where
  | null
  | share
  | exclusive
deriving DecidableEq, Repr

/-- The fields of `drc_req_info_t` that identify a request or are read here. -/
structure ReqInfo where
  instId : Inst
  instSid : Nat
  rsn : Nat
  reqMode : Mode
deriving DecidableEq, Repr

/-- `converting` without a request is an invalid `inst_id` in the source. -/
structure Entry where
  mode : Mode
  grantedMap : BitVec 64
  converting : Option ReqInfo
  convertQ : List ReqInfo
deriving DecidableEq, Repr

/-- `g_mode_compatible_matrix`. -/
def modeCompatible : Mode → Mode → Bool
  | .null, _ => true
  | .share, .exclusive => false
  | .share, _ => true
  | .exclusive, .null => true
  | .exclusive, _ => false

def drcCreateLockRes : Entry where
  mode := .null
  grantedMap := 0
  converting := none
  convertQ := []

/-- What a request call returns: `status`, and on success `is_granted` with `old_owner_map`. A
queued request has not returned yet. -/
inductive Reply where
  | error
  | granted (oldOwnerMap : BitVec 64)
  | notGranted (oldOwnerMap : BitVec 64)
  | queued
deriving DecidableEq, Repr

/-- Grant the request at once or tell who has to give the lock up first. -/
def grantReply (e : Entry) (req : ReqInfo) : Reply :=
  if modeCompatible req.reqMode e.mode then .granted 0 else .notGranted e.grantedMap

/-- What a request call meets besides the entry: a reform that turns it away, and empty pools. -/
structure Env where
  reforming : Bool
  resPoolEmpty : Bool
  itemPoolEmpty : Bool
deriving DecidableEq, Repr

def Env.quiet : Env := ⟨false, false, false⟩

/-- `drc_request_lock_owner` up to the point where it waits. -/
def drcRequestLockOwner (env : Env) (res : Option Entry) (req : ReqInfo) :
    Option (Option Entry × Reply) :=
  if env.reforming then some (res, .error)
  else
    match res with
    | none =>
      if env.resPoolEmpty then none
      else some (some { drcCreateLockRes with converting := some req }, .granted 0)
    | some e =>
      match e.converting with
      | none =>
        if e.convertQ = [] then
          some (some { e with converting := some req }, grantReply e req)
        else none
      | some _ =>
        if Bitmap.hasBit e.grantedMap req.instId then some (res, .error)
        else if env.itemPoolEmpty then some (res, .error)
        else some (some { e with convertQ := e.convertQ ++ [req] }, .queued)

/-- One look of a waiting request at the entry. -/
def drcPollLockOwner (e : Entry) (req : ReqInfo) : Option Reply :=
  match e.converting with
  | none => none
  | some c => some (if req.instId = c.instId then grantReply e req else .queued)

/-- `drc_try_request_lock_owner`; `remaster_status` and the reform check turn it away alike. -/
def drcTryRequestLockOwner (env : Env) (res : Option Entry) (req : ReqInfo) :
    Option (Option Entry × Reply) :=
  if env.reforming then some (res, .error)
  else
    match res with
    | none =>
      if env.resPoolEmpty then some (none, .error)
      else some (some { drcCreateLockRes with converting := some req }, .granted 0)
    | some e =>
      match e.converting with
      | none =>
        if e.convertQ = [] then
          some (some { e with converting := some req },
            if modeCompatible req.reqMode e.mode then .granted e.grantedMap
            else .notGranted e.grantedMap)
        else none
      | some _ => some (res, .error)

def drcConvertLockOwner (e : Entry) : Entry :=
  match e.convertQ with
  | [] => { e with converting := none }
  | req :: q => { e with converting := some req, convertQ := q }

/-- `drc_cancel_lock_owner_request`, with whether it was a success. -/
def drcCancelLockOwnerRequest (res : Option Entry) (inst : Inst) : Option Entry × Bool :=
  match res with
  | none => (none, false)
  | some e =>
    if e.converting.map ReqInfo.instId = some inst then (some (drcConvertLockOwner e), true)
    else (res, true)

/-- The owners that stay when the lock is claimed. -/
def claimMap (e : Entry) (mode : Mode) : BitVec 64 :=
  if mode = .exclusive then 0 else e.grantedMap

/-- `drc_claim_lock_owner`, with whether it was a success. -/
def drcClaimLockOwner (isTable reforming : Bool) (res : Option Entry) (newId : Inst) (mode : Mode) :
    Option (Option Entry × Bool) :=
  if reforming then some (res, false)
  else
    match res with
    | none => none
    | some e =>
      match e.converting with
      | none => none
      | some c =>
        if newId = c.instId ∧ mode = c.reqMode then
          if Bitmap.hasBit (claimMap e mode) newId && !isTable then none
          else
            let map := Bitmap.setBit (claimMap e mode) newId
            some (some (drcConvertLockOwner { e with grantedMap := map, mode := c.reqMode }), true)
        else none

/-- Clear the bit of an instance; without owners there is no mode. -/
def clearGranted (e : Entry) (inst : Inst) : Entry :=
  let map := Bitmap.clearBit e.grantedMap inst
  { e with grantedMap := map, mode := if map = 0 then .null else e.mode }

/-- `drc_release_lock_owner`, with whether it was a success. -/
def drcReleaseLockOwner (res : Option Entry) (oldId : Inst) : Option Entry × Bool :=
  match res with
  | none => (none, false)
  | some e =>
    if Bitmap.hasBit e.grantedMap oldId then
      let e := clearGranted e oldId
      if e.grantedMap ≠ 0 || e.converting.isSome then (some e, true) else (none, true)
    else (res, false)

/-- `drc_recycle_dls_master`, with whether it was a success. -/
def drcRecycleDlsMaster (reforming : Bool) (res : Option Entry) (inst : Inst) :
    Option Entry × Bool :=
  if reforming then (res, false)
  else
    match res with
    | none => (none, true)
    | some e =>
      let e := { e with grantedMap := Bitmap.clearBit e.grantedMap inst }
      if e.converting.isNone && e.grantedMap = 0 then (none, true) else (some e, true)

def dlsClearGrantedMapForInst (res : Option Entry) (inst : Inst) : Option Entry :=
  res.map fun e => clearGranted e inst

/-! ## Sequences of calls -/

inductive Call where
  | request (env : Env) (req : ReqInfo)
  | tryRequest (env : Env) (req : ReqInfo)
  | claim (reforming : Bool) (newId : Inst) (mode : Mode)
  | cancel (inst : Inst)
  | release (oldId : Inst)
  | recycle (reforming : Bool) (inst : Inst)
  | clear (inst : Inst)
deriving DecidableEq, Repr

/-- What a call makes of the entry, if there is one; `none` is a panic. -/
def callStep (isTable : Bool) (res : Option Entry) : Call → Option (Option Entry)
  | .request env req => (drcRequestLockOwner env res req).map Prod.fst
  | .tryRequest env req => (drcTryRequestLockOwner env res req).map Prod.fst
  | .claim reforming newId mode => (drcClaimLockOwner isTable reforming res newId mode).map Prod.fst
  | .cancel inst => some (drcCancelLockOwnerRequest res inst).1
  | .release oldId => some (drcReleaseLockOwner res oldId).1
  | .recycle reforming inst => some (drcRecycleDlsMaster reforming res inst).1
  | .clear inst => some (dlsClearGrantedMapForInst res inst)

/-- No entry, or one that was just created. -/
def FreshEntry (res : Option Entry) : Prop := res = none ∨ res = some drcCreateLockRes

end Cantian.Dls
