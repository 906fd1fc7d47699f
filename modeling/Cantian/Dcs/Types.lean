import Mathlib.Data.Fintype.Basic

/-!
# Page protocol — data

The records of `dtc_drc.h`, `dtc_dcs.h` and `knl_buffer.h` that the page
protocol reads and writes, for one page: the directory entry `buf_res` at
the page's master, the buffer ctrl of every instance, and the messages in
flight. Everything an action of another page can do to this page goes
through an instance's two clocks, so one page is enough.

`rsn` stands for two fields of the source, the serial number of a request
and its `req_time`: both are drawn from the sender's clock, serial numbers
are only compared for equality and times only for order.
-/

namespace Cantian.Dcs

/-- Instance ids, `0 .. CT_MAX_INSTANCES - 1`. -/
abbrev InstId := Fin 64

/-- Makes numerals instance ids. -/
instance instNeZeroMaxInstances : @NeZero Nat Zero.ofOfNat0 64 := ⟨Nat.succ_ne_zero 63⟩

/-- `drc_lock_mode_e`. -/
inductive LockMode where
  | null
  | share
  | exclusive
  deriving DecidableEq, Repr

namespace LockMode

/-- The numeric value of the enumeration, `DRC_LOCK_NULL = 0`. -/
def rank : LockMode → Nat
  | null => 0
  | share => 1
  | exclusive => 2

instance : LE LockMode := ⟨fun a b => a.rank ≤ b.rank⟩
instance : LT LockMode := ⟨fun a b => a.rank < b.rank⟩
instance (a b : LockMode) : Decidable (a ≤ b) := inferInstanceAs (Decidable (a.rank ≤ b.rank))
instance (a b : LockMode) : Decidable (a < b) := inferInstanceAs (Decidable (a.rank < b.rank))

/-- `MAX` on lock modes. -/
def max (a b : LockMode) : LockMode := if a ≤ b then b else a

variable {a b : LockMode}

lemma le_def : a ≤ b ↔ a.rank ≤ b.rank := Iff.rfl

lemma lt_def : a < b ↔ a.rank < b.rank := Iff.rfl

lemma le_refl (a : LockMode) : a ≤ a := Nat.le_refl _

lemma le_trans {c} (h1 : a ≤ b) (h2 : b ≤ c) : a ≤ c := Nat.le_trans h1 h2

lemma null_le (a : LockMode) : null ≤ a := Nat.zero_le _

lemma le_exclusive (a : LockMode) : a ≤ exclusive := by
  cases a <;> simp [le_def, rank]

lemma eq_null_of_not_share_le (h : ¬ share ≤ a) : a = null := by
  cases a <;> simp_all [le_def, rank]

lemma le_null : a ≤ null ↔ a = null := by
  cases a <;> simp [le_def, rank]

lemma eq_exclusive_of_le (h : exclusive ≤ a) : a = exclusive := by
  cases a <;> simp_all [le_def, rank]

lemma le_max_left (a b : LockMode) : a ≤ a.max b := by
  cases a <;> cases b <;> decide

lemma le_max_right (a b : LockMode) : b ≤ a.max b := by
  cases a <;> cases b <;> decide

lemma le_share_iff : a ≤ share ↔ a ≠ exclusive := by
  cases a <;> simp [le_def, rank]

lemma not_exclusive_lt (a : LockMode) : ¬ exclusive < a := by
  cases a <;> simp [lt_def, rank]

end LockMode

/-- `BUF_NEED_LOAD`, `BUF_IS_LOADED`, `BUF_LOAD_FAILED`. -/
inductive LoadStatus where
  | needLoad
  | isLoaded
  | loadFailed
  deriving DecidableEq, Repr

/-- Page content: the LSN in the page head, and `ver`, which stands for
the bytes: every modification writes a version that never existed before. -/
structure Page where
  lsn : Nat
  ver : Nat
  deriving DecidableEq, Repr

/-- The fields of `buf_ctrl_t` the protocol uses. -/
structure BufCtrl where
  lockMode : LockMode
  loadStatus : LoadStatus
  isDirty : Bool
  isRemoteDirty : Bool
  isEdp : Bool
  page : Page
  deriving DecidableEq, Repr

namespace BufCtrl

/-- A ctrl just allocated by `buf_alloc_ctrl`. -/
def fresh : BufCtrl :=
  { lockMode := .null, loadStatus := .needLoad, isDirty := false, isRemoteDirty := false,
    isEdp := false, page := ⟨0, 0⟩ }

/-- `DCS_BUF_CTRL_IS_OWNER`. -/
def isOwner (c : BufCtrl) : Bool := c.lockMode != .null && !c.isEdp

/-- `BUF_IN_USE_IS_RECYCLABLE`. -/
def recyclable (c : BufCtrl) : Bool := !c.isDirty && !c.isRemoteDirty && !c.isEdp

/-- `dtc_get_ctrl_latest_lsn`. -/
def latestLsn (c : BufCtrl) : Nat := if c.loadStatus = .isLoaded then c.page.lsn else 0

end BufCtrl

/-- `drc_req_info_t`: a request for the page. -/
structure DrcReqInfo where
  instId : InstId
  instSid : Nat
  rsn : Nat
  reqMode : LockMode
  currMode : LockMode
  lsn : Nat
  deriving DecidableEq, Repr

/-- `claim_info_t`. `rsn` is not in the source record: it remembers which
request the claim answers, and no function below reads it. -/
structure ClaimInfo where
  newId : InstId
  instSid : Nat
  mode : LockMode
  hasEdp : Bool
  lsn : Nat
  rsn : Nat
  deriving DecidableEq, Repr

/-- `drc_buf_res_t`, the directory entry of the page at its master.
`converting = none` is `converting.req_info.inst_id == CT_INVALID_ID8`;
`cvtTime` is `converting.req_info.req_time`, which survives that.
`pending` is `pending == DRC_RES_PENDING_ACTION`. -/
structure DrcBufRes where
  claimedOwner : InstId
  mode : LockMode
  readonlyCopies : Finset InstId
  edpMap : Finset InstId
  pending : Bool
  lsn : Nat
  converting : Option DrcReqInfo
  cvtTime : Nat
  convertQ : List DrcReqInfo
  deriving DecidableEq

/-- `MES_CMD_PAGE_READY`: the owner's answer (`msg_ask_page_ack_t`). -/
structure PageReady where
  dst : InstId
  instSid : Nat
  rsn : Nat
  mode : LockMode
  needLoad : Bool
  readonly2X : Bool
  dirty : Bool
  remoteDirty : Bool
  page : Page
  lsn : Nat
  scn : Nat
  deriving DecidableEq, Repr

/-- Messages in flight. -/
inductive Msg where
  /-- `MES_CMD_ASK_MASTER`, or one page of `MES_CMD_TRY_ASK_MASTER` (`isTry`). -/
  | askMaster (req : DrcReqInfo) (isTry : Bool)
  /-- `MES_CMD_MASTER_ACK_NEED_LOAD` with the master's clocks, or a granted
  result in the batch ack, which carries none. -/
  | ackNeedLoad (dst : InstId) (instSid rsn : Nat) (sync : Option (Nat × Nat))
  /-- `MES_CMD_MASTER_ACK_ALREADY_OWNER`, or that result in the batch ack. -/
  | ackAlreadyOwner (dst : InstId) (instSid rsn : Nat) (reqMode : LockMode) (isTry : Bool)
  /-- `MES_CMD_ERROR_MSG`, or any other result in the batch ack. -/
  | errorMsg (dst : InstId) (instSid rsn : Nat)
  /-- `MES_CMD_ASK_OWNER`, sent by the master to the claimed owner. -/
  | askOwner (owner : InstId) (req : DrcReqInfo) (isRetry : Bool)
  | pageReady (m : PageReady)
  /-- `MES_CMD_CLAIM_OWNER_REQ`, or one page of `MES_CMD_CLAIM_OWNER_REQ_BATCH`. -/
  | claim (info : ClaimInfo) (batch : Bool)
  /-- `MES_CMD_INVLDT_REQ` of a broadcast that the master has sent again. -/
  | invldReq (dst : InstId)
  /-- `MES_CMD_INVLDT_REQ` with `MES_FLAG_OWNER` whose sender gave up waiting. -/
  | invldOwnerReq (dst : InstId)
  /-- `MES_CMD_RECYCLE_OWNER_REQ`: `src` evicted the page at `time`. -/
  | recycleOwner (src : InstId) (time lsn scn : Nat)
  deriving DecidableEq, Repr

/-- A request is identified by its instance and serial number. -/
def DrcReqInfo.key (r : DrcReqInfo) : InstId × Nat := (r.instId, r.rsn)

/-- The request a claim answers. -/
def ClaimInfo.key (c : ClaimInfo) : InstId × Nat := (c.newId, c.rsn)

/-- The request a message belongs to. -/
def Msg.key : Msg → Option (InstId × Nat)
  | .askMaster r _ | .askOwner _ r _ => some r.key
  | .ackNeedLoad i _ n _ | .ackAlreadyOwner i _ n _ _ | .errorMsg i _ n => some (i, n)
  | .pageReady m => some (m.dst, m.rsn)
  | .claim c _ => some c.key
  | .invldReq _ | .invldOwnerReq _ | .recycleOwner .. => none

/-- A request the instance waits for, holding the page latch. -/
structure PendReq where
  req : DrcReqInfo
  isTry : Bool
  deriving DecidableEq, Repr

/-- One instance: its ctrl for the page (`none`: not in the buffer), the
request it waits for, and its current SCN and LSN. -/
structure Node where
  ctrl : Option BufCtrl
  pend : Option PendReq
  scn : Nat
  lsn : Nat

namespace Node

/-- The lock mode of the ctrl, `DRC_LOCK_NULL` when there is none. -/
def lockMode (n : Node) : LockMode :=
  match n.ctrl with
  | some c => c.lockMode
  | none => .null

/-- Does the instance hold an earlier-dirty-page copy? -/
def isEdp (n : Node) : Bool :=
  match n.ctrl with
  | some c => c.isEdp
  | none => false

end Node

/-- A master thread inside `dcs_invalidate_readonly_copy` for request
`req`: `waiting` are the copies that have not answered, `failed` says that
one answered with an error. The thread fixed the message `reply` that it
sends at its end before it released the bucket lock. `fromClaim` tells its
two callers apart. -/
structure InvldTask where
  req : DrcReqInfo
  reply : Msg
  fromClaim : Bool
  waiting : Finset InstId
  failed : Bool
  deriving DecidableEq

/-- The recycling of the entry while it is marked
`DRC_RES_PENDING_ACTION`: read-only copies first, then the owner. `check`
is the `readonly_copies` that `drc_recycle_items` compares at its end;
`drc_buf_res_recycle` has no such check. -/
structure RecycleTask where
  check : Option (Finset InstId)
  waiting : Finset InstId
  ownerDone : Bool
  failed : Bool
  deriving DecidableEq

/-- The protocol state for one page. `ver` is the version written last. -/
structure State where
  dir : Option DrcBufRes
  node : InstId → Node
  net : List Msg
  tasks : List InvldTask
  recycling : Option RecycleTask
  now : Nat
  disk : Page
  ver : Nat

namespace State

/-- Replace the record of one instance. -/
def setNode (s : State) (i : InstId) (n : Node) : State :=
  { s with node := Function.update s.node i n }

/-- Put messages into the network. -/
def send (s : State) (ms : List Msg) : State := { s with net := s.net ++ ms }

/-- The lock mode instance `i` holds. -/
def mode (s : State) (i : InstId) : LockMode := (s.node i).lockMode

end State

end Cantian.Dcs
