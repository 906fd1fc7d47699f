import Mathlib.Data.List.Range
import Cantian.Lib.Transition

/-!
# Replies in a session's waiting room

A session numbers its requests with the `rsn` of its waiting room, sends one
and waits in `mes_recv`. The reply handler leaves a reply with the room's
number in `msg_buf` and unlocks the room's mutex, which the session locks as a
signal. Between the lock and the look at `msg_buf` another reply may come, and
so may one between a wait that has run out and `mes_protect_when_timeout`.

Reply buffers are numbered in the order in which they arrive. Whatever becomes
of one is recorded: it is handed to the session, with the number of the
session's latest request at that time, or it is released.
-/

namespace Cantian.Mes

open List Option Lib

structure Reply where
  buffer : Nat
  rsn : UInt32
deriving DecidableEq

inductive Fate
  | handed (latest : UInt32)
  | released
deriving DecidableEq

/-- Where the session is: outside `mes_recv`, before the lock of the mutex,
after a lock that has run out of time, or after one that succeeded. -/
inductive Phase
  | idle
  | waiting
  | expired
  | locked
deriving DecidableEq

structure Sys where
  rsn : UInt32
  msgBuf : Option Reply
  unlocked : Bool
  phase : Phase
  latest : UInt32
  /-- The requests whose reply has not come yet. -/
  sent : List UInt32
  /-- How many replies have come, now and when the latest request was made. -/
  arrived : Nat
  started : Nat
  /-- The replies that came before the last finished request was made. -/
  settled : Nat
  gone : List (Reply × Fate)

/-! ## The functions -/

/-- The mutex is left locked. -/
def mesInitSessionRoom (rsn : UInt32) : Sys :=
  ⟨rsn, none, false, .idle, 0, [], 0, 0, 0, []⟩

/-- The room's first number is random. -/
def Fresh (s : Sys) : Prop := ∃ rsn, s = mesInitSessionRoom rsn

def mesGetRsn (s : Sys) : Sys :=
  { s with
    rsn := s.rsn + 1, latest := s.rsn + 1, sent := (s.rsn + 1) :: s.sent,
    started := s.arrived, phase := .waiting }

def mesProcessMsgAck (s : Sys) (rsn : UInt32) : Sys :=
  let msg : Reply := ⟨s.arrived, rsn⟩
  let s := { s with arrived := s.arrived + 1, sent := s.sent.erase rsn }
  if s.rsn = rsn then { s with msgBuf := some msg, unlocked := true }
  else { s with gone := (msg, .released) :: s.gone }

def mesProtectWhenTimeout (s : Sys) : Sys :=
  let s := { s with rsn := s.rsn + 1 }
  if s.unlocked then
    { s with unlocked := false, gone := s.msgBuf.toList.map (·, .released) ++ s.gone }
  else s

def returned (s : Sys) : Sys := { s with phase := .idle, settled := s.started }

/-- What `mes_recv_impl` does with the reply it finds once it has the mutex. -/
def mesRecvAttach (s : Sys) (msg : Reply) : Sys :=
  if s.rsn ≠ msg.rsn then { s with phase := .waiting, gone := (msg, .released) :: s.gone }
  else returned { s with gone := (msg, .handed s.latest) :: s.gone }

inductive Action
  | request
  | ack (rsn : UInt32)
  | lock
  | lockFails
  | attach
  | timeout
  | connectionLost

/-- A lock that runs out before the timeout does is no step: the session waits
again. -/
def mesStep (s : Sys) : Action → Option Sys
  | .request => if s.phase = .idle then some (mesGetRsn s) else none
  | .ack rsn => if rsn ∈ s.sent then some (mesProcessMsgAck s rsn) else none
  | .lock =>
    if s.phase = .waiting ∧ s.unlocked = true then
      some { s with phase := .locked, unlocked := false }
    else none
  | .lockFails =>
    if s.phase = .waiting ∧ s.unlocked = false then some { s with phase := .expired } else none
  | .attach => if s.phase = .locked then s.msgBuf.map (mesRecvAttach s) else none
  | .timeout => if s.phase = .expired then some (returned (mesProtectWhenTimeout s)) else none
  | .connectionLost => if s.phase = .waiting then some (returned s) else none

/-! ## Where the buffers are -/

def occupied (s : Sys) : Bool := s.unlocked || s.phase == .locked

/-- The buffer in the room, unless the session is through with it. -/
def held (s : Sys) : List Nat :=
  if occupied s then s.msgBuf.toList.map Reply.buffer else []

def goneBuffers (s : Sys) : List Nat := s.gone.map (·.1.buffer)

/-- A reply is handed only to the request that it answers, no buffer is handed
or released twice, and a buffer that came before the last finished request was
made has not been left over. -/
def Accounted (s : Sys) : Prop :=
  (∀ msg rsn, (msg, .handed rsn) ∈ s.gone → msg.rsn = rsn) ∧ (goneBuffers s).Nodup ∧
    ∀ i < s.settled, i ∈ goneBuffers s

/-- No reply is put over another one, and the session does not leave a reply
from before its request in the room when it returns for a lost connection. -/
def roomClear (s : Sys) : Action → Bool
  | .ack rsn => decide (rsn ≠ s.rsn) || !occupied s
  | .connectionLost => (held s).all (s.started ≤ ·)
  | _ => true

structure RoomOk (s : Sys) : Prop where
  rsn : s.phase ≠ .idle → s.rsn = s.latest
  single : s.phase = .locked → s.unlocked = false
  matched : ∀ msg rsn, (msg, .handed rsn) ∈ s.gone → msg.rsn = rsn
  counted : (goneBuffers s ++ held s).Perm (range s.arrived)
  startedLe : s.started ≤ s.arrived
  settledLe : s.settled ≤ s.started
  recent : ∀ i ∈ held s, s.settled ≤ i

variable {s t : Sys}

lemma RoomOk.init (rsn : UInt32) : RoomOk (mesInitSessionRoom rsn) := by
  constructor <;> simp [mesInitSessionRoom, goneBuffers, held, occupied]

lemma RoomOk.ack (h : RoomOk s) {rsn} (hclear : roomClear s (.ack rsn) = true) :
    RoomOk (mesProcessMsgAck s rsn) := by
  have hcount := (h.counted.append_right [s.arrived]).trans (.of_eq range_succ.symm)
  unfold mesProcessMsgAck
  dsimp only
  split
  case isTrue heq =>
    have hfree : occupied s = false := by simpa [roomClear, heq] using hclear
    have hheld : held s = [] := by simp [held, hfree]
    rw [hheld, append_nil] at hcount
    have hphase : s.phase ≠ .locked := by simpa [occupied] using (Bool.or_eq_false_iff.mp hfree).2
    exact { h with
      single := fun hlocked => absurd hlocked hphase
      counted := hcount
      startedLe := Nat.le_succ_of_le h.startedLe
      recent := by simpa [held, occupied] using h.settledLe.trans h.startedLe }
  case isFalse =>
    exact { h with
      matched := by simpa using h.matched
      counted := .trans (@perm_append_comm _ [s.arrived] _) hcount
      startedLe := Nat.le_succ_of_le h.startedLe }

lemma RoomOk.returned (h : RoomOk s) (hphase : s.phase ≠ .locked)
    (hrecent : ∀ i ∈ held s, s.started ≤ i) : RoomOk (returned s) := by
  have hheld : held (Mes.returned s) = held s := by
    simp [held, occupied, Mes.returned, hphase]
  exact { h with
    rsn := nofun
    single := nofun
    counted := hheld ▸ h.counted
    settledLe := Nat.le_refl _
    recent := hheld ▸ hrecent }

lemma RoomOk.attach (h : RoomOk s) {msg} (hphase : s.phase = .locked) (hmsg : s.msgBuf = some msg) :
    RoomOk (mesRecvAttach s msg) := by
  have hheld : held s = [msg.buffer] := by simp [held, occupied, hphase, hmsg]
  have hcount := (@perm_append_comm _ [msg.buffer] _).trans (hheld ▸ h.counted)
  have hrsn : s.rsn = s.latest := h.rsn (by simp [hphase])
  have hempty : ∀ fate, held { s with phase := .waiting, gone := (msg, fate) :: s.gone } = [] := by
    simp [held, occupied, h.single hphase]
  have htaken : ∀ fate, (∀ rsn, .handed rsn = fate → msg.rsn = rsn) →
      RoomOk { s with phase := .waiting, gone := (msg, fate) :: s.gone } := fun fate hfate =>
    { h with
      rsn := fun _ => hrsn
      single := nofun
      matched := by
        rintro _ rsn (_ | ⟨_, hmem⟩)
        · exact hfate rsn rfl
        · exact h.matched _ rsn hmem
      counted := by simpa [hempty, goneBuffers] using hcount
      recent := by simp [hempty] }
  unfold mesRecvAttach
  split
  case isTrue => exact htaken .released nofun
  case isFalse heq =>
    refine (htaken (.handed s.latest) ?_).returned nofun (by simp [hempty])
    rintro rsn ⟨⟩
    exact (not_not.mp heq).symm.trans hrsn

lemma RoomOk.timeout (h : RoomOk s) (hphase : s.phase = .expired) :
    RoomOk (Mes.returned (mesProtectWhenTimeout s)) := by
  unfold mesProtectWhenTimeout
  dsimp only
  split
  case isTrue hfree =>
    have hheld : held s = s.msgBuf.toList.map Reply.buffer := by simp [held, occupied, hfree]
    have hcount := perm_append_comm.trans (hheld ▸ h.counted)
    exact { h with
      rsn := nofun
      single := nofun
      matched := by simpa [Mes.returned] using h.matched
      counted := by
        simpa [held, occupied, goneBuffers, Mes.returned, Function.comp_def] using hcount
      settledLe := Nat.le_refl _
      recent := by simp [held, occupied, Mes.returned] }
  case isFalse hfree =>
    have hheld : held s = [] := by simp [held, occupied, hfree, hphase]
    exact { h.returned (by simp [hphase]) (by simp [hheld]) with rsn := nofun }

lemma RoomOk.step {a} (h : RoomOk s) (hclear : roomClear s a = true)
    (hstep : mesStep s a = some t) : RoomOk t := by
  cases a with
  | request =>
    obtain ⟨hphase, ⟨⟩⟩ := ite_none_right_eq_some.mp hstep
    have hheld : held (mesGetRsn s) = held s := by simp [held, occupied, mesGetRsn, hphase]
    exact { h with
      rsn := fun _ => rfl
      single := nofun
      counted := hheld ▸ h.counted
      startedLe := Nat.le_refl _
      settledLe := h.settledLe.trans h.startedLe
      recent := hheld ▸ h.recent }
  | ack rsn =>
    obtain ⟨-, ⟨⟩⟩ := ite_none_right_eq_some.mp hstep
    exact h.ack hclear
  | lock =>
    obtain ⟨⟨hphase, hfree⟩, ⟨⟩⟩ := ite_none_right_eq_some.mp hstep
    have hheld : held { s with phase := .locked, unlocked := false } = held s := by
      simp [held, occupied, hfree]
    exact { h with
      rsn := fun _ => h.rsn (by simp [hphase])
      single := fun _ => rfl
      counted := hheld ▸ h.counted
      recent := hheld ▸ h.recent }
  | lockFails =>
    obtain ⟨⟨hphase, -⟩, ⟨⟩⟩ := ite_none_right_eq_some.mp hstep
    have hheld : held { s with phase := .expired } = held s := by simp [held, occupied, hphase]
    exact { h with
      rsn := fun _ => h.rsn (by simp [hphase])
      single := nofun
      counted := hheld ▸ h.counted
      recent := hheld ▸ h.recent }
  | attach =>
    obtain ⟨hphase, hstep⟩ := ite_none_right_eq_some.mp hstep
    obtain ⟨msg, hmsg, rfl⟩ := map_eq_some_iff.mp hstep
    exact h.attach hphase hmsg
  | timeout =>
    obtain ⟨hphase, ⟨⟩⟩ := ite_none_right_eq_some.mp hstep
    exact h.timeout hphase
  | connectionLost =>
    obtain ⟨hphase, ⟨⟩⟩ := ite_none_right_eq_some.mp hstep
    exact h.returned (by simp [hphase]) (by simpa [roomClear] using hclear)

/-- What is in the room came after the last finished request was made. -/
lemma RoomOk.accounted (h : RoomOk s) : Accounted s := by
  have hnodup := h.counted.nodup_iff.mpr nodup_range
  refine ⟨h.matched, (nodup_append.mp hnodup).1, fun i hi => ?_⟩
  have hmem : i ∈ goneBuffers s ++ held s :=
    h.counted.mem_iff.mpr (mem_range.mpr (hi.trans_le (h.settledLe.trans h.startedLe)))
  exact (mem_append.mp hmem).resolve_right fun hheld => Nat.not_le.mpr hi (h.recent i hheld)

theorem replies_accounted (h : ReachableBy mesStep Fresh (fun s a => roomClear s a = true) s) :
    Accounted s := by
  have hok : RoomOk s := by
    refine h.invariant ?_ fun _ _ _ hclear hs hstep => hs.step hclear hstep
    rintro _ ⟨rsn, rfl⟩
    exact .init rsn
  exact hok.accounted

/-- The reply comes between the lock that runs out and the timeout. -/
theorem replies_accounted_late : ∃ s, s.gone = [(⟨0, 1⟩, .released)] ∧ Accounted s := by
  refine ⟨_, rfl, replies_accounted (.of_runOk [.request, .lockFails, .ack 1, .timeout]
    (.init ⟨0, rfl⟩) rfl)⟩

/-- The reply to a request that ended with a lost connection is put into the
room all the same, and the next reply is put over it. -/
theorem reply_lost : ∃ s, Reachable mesStep Fresh s ∧ goneBuffers s = [1] ∧ ¬Accounted s := by
  refine ⟨_, .of_run [.request, .connectionLost, .ack 1, .request, .ack 2, .lock, .attach]
    (.init ⟨0, rfl⟩) rfl, rfl, fun h => ?_⟩
  exact absurd (h.2.2 0 (by decide)) (by decide)

end Cantian.Mes
