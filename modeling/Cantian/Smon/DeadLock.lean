import Cantian.Dcs.Types
import Cantian.Lib.Transition

/-!
# Deadlock check between the nodes

`dtc_smon_detect_dead_lock_in_cluster` (`dtc_smon.c`). From a local session
the check follows the waits of the sessions of all nodes and collects them
in `dlockshot` until it comes to a session that it has been at. Then it
looks for a local session on the cycle, goes round the cycle from there and
compares every wait with what it collected.

A session waits for a transaction (`wxid`) of a resource manager of its node
(`wrmid`), and the resource manager belongs to a session. Sessions keep
their resource manager during a check and no node joins or leaves; waits and
transactions change in any way between two steps of the check, and a step
reads one session or one transaction. `sightings` remembers what the check
has read; no step reads it. The second call that only logs the sessions is
left out.
-/

namespace Cantian.Smon

open Lib

abbrev Inst := Dcs.InstId

/-- A node and a session number of it. -/
abbrev Session := Inst × Nat

/-- `xid_t`; `inst` and `slot` are its `xmap`. -/
structure Xid where
  inst : Inst
  slot : Nat
  xnum : Nat
deriving DecidableEq, Repr

/-- `knl_session_status_t`. -/
inductive SessionStatus where
  | inactive
  | suspension
  | active
deriving DecidableEq, Repr

/-- The fields of `knl_session_t` that the check reads. -/
structure Sess where
  status : SessionStatus
  currLsn : Nat
  wxid : Option Xid
  wrmid : Option Nat
deriving DecidableEq, Repr

/-- `txn_snapshot_t`; `isEnd` is the status `XACT_END`. -/
structure TxnSnapshot where
  rmid : Option Nat
  xnum : Nat
  isEnd : Bool
deriving DecidableEq, Repr

structure World where
  sess : Session → Sess
  /-- By the `xmap` of the transaction. -/
  txn : Inst → Nat → TxnSnapshot

/-- The node of the check and the resource managers. -/
structure Config where
  self : Inst
  /-- `knl_get_rm_sid`. -/
  rmSid : Inst → Nat → Option Nat
  /-- `rmid` of the local sessions. -/
  rmid : Nat → Nat
  own : ∀ sid, rmSid self (rmid sid) = some sid

/-- `dtc_dlock`. -/
structure Dlock where
  currLsn : Nat
  wxid : Option Xid
  wsid : Option Nat
  wrmid : Option Nat
deriving DecidableEq, Repr

/-- An entry of `dlockshot` at the start: all bits are set. -/
def Dlock.invalid : Dlock := ⟨18446744073709551615, none, none, none⟩

/-- The session that is waited for. -/
def Dlock.target (d : Dlock) : Option Session :=
  match d.wxid, d.wsid with
  | some x, some sid => some (x.inst, sid)
  | _, _ => none

/-- `dtc_smon_get_rm_sid` for the transaction that a session waits for. -/
def getRmSid (cfg : Config) (wxid : Option Xid) (wrmid : Option Nat) : Option Nat :=
  match wxid, wrmid with
  | some x, some r => cfg.rmSid x.inst r
  | _, _ => none

/-- The wait of a session. -/
def World.dlock (cfg : Config) (w : World) (v : Session) : Dlock :=
  let se := w.sess v
  ⟨se.currLsn, se.wxid, getRmSid cfg se.wxid se.wrmid, se.wrmid⟩

/-- The wait of the session of a resource manager. -/
def rmDlock (cfg : Config) (w : World) (inst : Inst) (rmid : Option Nat) : Dlock :=
  match rmid.bind (cfg.rmSid inst) with
  | none => .invalid
  | some sid => w.dlock cfg (inst, sid)

/-- How the messages of a read end: the request to the node of the session
or the one for the number of the session that is waited for may fail. -/
inductive Answer where
  | ok
  | noSid
  | lost
deriving DecidableEq, Repr

/-- There is such a message. -/
def Answer.possible (cfg : Config) (inst : Inst) (d : Dlock) : Answer → Bool
  | .ok => true
  | .noSid => d.wxid.any fun x => x.inst != inst
  | .lost => inst != cfg.self

/-- `dtc_smon_get_txn_dlock`. -/
def getTxnDlock (cfg : Config) (w : World) (inst : Inst) (rmid : Option Nat) : Answer → Option Dlock
  | .ok => some (rmDlock cfg w inst rmid)
  | .noSid => some { rmDlock cfg w inst rmid with wsid := none }
  | .lost => none

/-- Where the check is. -/
inductive Pc where
  | start (sid : Nat)
  /-- The head of the first loop; `none` is an invalid session number. -/
  | collect (v : Option Session) (rmid : Option Nat)
  /-- The loop of `dtc_smon_find_first_local_sid`, which was called for
  `entry`. -/
  | locate (entry v : Session)
  /-- A local session of the cycle was found. -/
  | candidate (sid : Nat)
  /-- The head of the second loop. -/
  | verify (begin : Nat) (v : Session) (rmid : Option Nat)
  /-- The wait of `v` was read again; now its transaction is read. -/
  | snapshot (begin : Nat) (v : Session) (wxid : Xid)
  /-- The check is over, with the session that is marked `dead_locked`. -/
  | done (deadLocked : Option Nat)
deriving DecidableEq, Repr

/-- A wait that the check has read, with the world at that time. -/
structure Sighting where
  world : World
  session : Session
  dlock : Dlock

structure Sys where
  world : World
  pc : Pc
  /-- `dlockshot`. -/
  shot : Session → Dlock
  /-- `wait_marks`. -/
  marks : Nat → Bool
  sightings : List Sighting

structure Sys.Fresh (s : Sys) : Prop where
  pc : ∃ sid, s.pc = .start sid
  shot : ∀ v, s.shot v = .invalid
  sightings : s.sightings = []

/-- The comparison of a wait with the one that was collected. -/
def sameWait (c d : Dlock) : Bool :=
  c.wsid == d.wsid && c.currLsn == d.currLsn && c.wrmid == d.wrmid &&
    c.wxid.map Xid.xnum == d.wxid.map Xid.xnum

/-- The transaction of a collected wait is still the same and is not over. -/
def sameTxn (c : Dlock) (t : TxnSnapshot) : Bool :=
  t.rmid == c.wrmid && some t.xnum == c.wxid.map Xid.xnum && !t.isEnd

def Sys.goto (s : Sys) (pc : Pc) : Sys := { s with pc := pc }

def Sys.unmark (s : Sys) (sid : Nat) : Sys :=
  { s with pc := .done none, marks := Function.update s.marks sid false }

def Sys.see (s : Sys) (v : Session) (d : Dlock) : Sys :=
  { s with sightings := s.sightings ++ [⟨s.world, v, d⟩] }

/-- The body of the first loop after the wait was read. -/
def Sys.record (cfg : Config) (s : Sys) (v : Session) (d : Dlock) : Sys :=
  { s.see v d with
    pc := .collect d.target d.wrmid
    shot := Function.update s.shot v d
    marks := if v.1 = cfg.self then Function.update s.marks v.2 true else s.marks }

/-- The body of the second loop up to the read of the transaction. -/
def Sys.compare (s : Sys) (begin : Nat) (v : Session) (d : Dlock) : Sys :=
  let s := s.see v d
  if d.wsid = none then s.goto (.done none)
  else if !sameWait (s.shot v) d then s.goto (.done none)
  else
    match d.wxid with
    | none => s.goto (.done none)
    | some x => s.goto (.snapshot begin v x)

/-- The rest of the body of the second loop. -/
def Sys.switchNext (s : Sys) (begin : Nat) (v : Session) (x : Xid) : Sys :=
  if !sameTxn (s.shot v) (s.world.txn x.inst x.slot) then s.goto (.done none)
  else
    match (s.shot v).target with
    | none => s.goto (.done none)
    | some u =>
      if u.2 = begin then s.goto (.done (some begin))
      else s.goto (.verify begin u (s.shot v).wrmid)

/-- One turn of the loop of `dtc_smon_find_first_local_sid`. -/
def Sys.locate (cfg : Config) (s : Sys) (entry v : Session) : Sys :=
  if (s.shot v).wsid = some entry.2 then s.goto (.done none)
  else
    match (s.shot v).target with
    | none => s.goto (.done none)
    | some u => if u.1 = cfg.self then s.goto (.candidate u.2) else s.goto (.locate entry u)

/-- The step of the check that reads the wait of a session. -/
def readWait (cfg : Config) (s : Sys) (v : Session) (rmid : Option Nat) (ans : Answer)
    (next : Dlock → Sys) : Option Sys :=
  if !ans.possible cfg v.1 (rmDlock cfg s.world v.1 rmid) then none
  else
    match getTxnDlock cfg s.world v.1 rmid ans with
    | none => some (s.goto (.done none))
    | some d => some (next d)

/-- One step of `dtc_smon_detect_dead_lock_in_cluster`. -/
def checkStep (cfg : Config) (s : Sys) (ans : Answer) : Option Sys :=
  match s.pc with
  | .start sid =>
    if (s.world.sess (cfg.self, sid)).status = .inactive then some (s.unmark sid)
    else some (s.goto (.collect (some (cfg.self, sid)) (some (cfg.rmid sid))))
  | .collect none _ => some (s.goto (.done none))
  | .collect (some v) rmid =>
    if (s.shot v).wsid = none then readWait cfg s v rmid ans (s.record cfg v)
    else if v.1 = cfg.self then some (s.goto (.candidate v.2))
    else some (s.goto (.locate v v))
  | .locate entry v => some (s.locate cfg entry v)
  | .candidate sid =>
    if (s.world.sess (cfg.self, sid)).status = .inactive then some (s.unmark sid)
    else some (s.goto (.verify sid (cfg.self, sid) (some (cfg.rmid sid))))
  | .verify begin v rmid => readWait cfg s v rmid ans (s.compare begin v)
  | .snapshot begin v x => some (s.switchNext begin v x)
  | .done _ => none

inductive Action where
  /-- Waits and transactions change. -/
  | change (w : World)
  | check (ans : Answer)

def step (cfg : Config) (s : Sys) : Action → Option Sys
  | .change w => some { s with world := w }
  | .check ans => checkStep cfg s ans

end Cantian.Smon
