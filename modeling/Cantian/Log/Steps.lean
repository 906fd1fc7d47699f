import Cantian.Log.Durable

/-!
# What a step of the log does to a session

For a client of the log: a session that is not in `log_write` and does not
call `log_commit` stays where it is, and the list of its groups grows only
when `log_write` places a group, which then has an lfn beyond the last one.
-/

namespace Cantian.Log

open Option Log Ctx Cantian.Log.Frame Stage

/-- In `log_write`, before the group has its place. -/
def Stage.inWrite : Stage → Bool
  | .writing _ | .locked _ _ | .noSpace _ | .makingSpace _ => true
  | _ => false

/-- Between two calls of the log. -/
def Stage.atRest : Stage → Bool
  | .idle | .committed => true
  | _ => false

/-- A session keeps its groups and stays inside or outside `log_write`. -/
def Keeps (v w : Session) : Prop :=
  w.written = v.written ∧ w.stage.inWrite = v.stage.inWrite ∧
    (v.stage.atRest = true → w.stage = v.stage)

/-- `log_write` places a group. -/
def Places (lfn : Nat) (v w : Session) : Prop :=
  v.stage.inWrite = true ∧ w.stage.inWrite = false ∧
    ∃ g, w.written = v.written ++ [g] ∧ lfn < g.lfn

lemma Keeps.refl (v : Session) : Keeps v v := ⟨rfl, rfl, fun _ => rfl⟩

section
variable {c : Config} {x x' : Ctx} {s t : Nat}

lemma Keeps.setSession {v} (h : Keeps (x.sessions t) v) :
    Keeps (x.sessions s) ((x.setSession t v).sessions s) := by
  rcases eq_or_ne s t with rfl | hst
  · rwa [setSession_self]
  · rw [setSession_of_ne v hst]
    exact .refl _

/-- A session inside a call goes on to another stage. -/
lemma Keeps.goesOn {st v} (hst : (x.sessions t).stage = st) (hrest : st.atRest = false)
    (hwrite : v.stage.inWrite = st.inWrite) (hwritten : v.written = (x.sessions t).written) :
    Keeps (x.sessions s) ((x.setSession t v).sessions s) := by
  subst hst
  refine Keeps.setSession ⟨hwritten, hwrite, fun h => ?_⟩
  cases hrest.symm.trans h

lemma keeps_setCommitProgress (sessions : Nat → Session) (b : List Nat) (p : Progress) (s : Nat) :
    Keeps (sessions s) (setCommitProgress sessions b p s) := by
  obtain ⟨q, hq⟩ := setCommitProgress_eq sessions b p s
  rw [hq]
  exact ⟨rfl, rfl, fun _ => rfl⟩

lemma Keeps.trans {u v w} (h : Keeps u v) (h' : Keeps v w) : Keeps u w := by
  refine ⟨h'.1.trans h.1, h'.2.1.trans h.2.1, fun hu => ?_⟩
  have hv := h.2.2 hu
  rw [h'.2.2 (by rw [hv]; exact hu), hv]

lemma Stage.inWrite_returnFlush (st : Stage) : st.returnFlush.inWrite = st.inWrite := by
  cases st <;> rfl

lemma Keeps.setCaller (caller : Option Nat) :
    Keeps (x.sessions s) ((x.setCaller caller Stage.returnFlush).sessions s) := by
  cases caller with
  | none => exact .refl _
  | some t =>
    refine Keeps.setSession ⟨rfl, inWrite_returnFlush _, fun h => ?_⟩
    cases hst : (x.sessions t).stage <;> simp_all [atRest, returnFlush]

lemma CtxOk.lfn_lt_of_locked (h : CtxOk c x) {size set}
    (hst : (x.sessions s).stage = .locked size set) : x.lfn < (x.sessions s).currLfn := by
  have hstage := (h.session s).stage
  simp only [StageOk, hst] at hstage
  obtain ⟨_, hlock, _, hlfn⟩ := hstage
  rw [hlfn]
  by_cases hset : set = x.wid
  · rw [hset, h.area.nextLfn]
    split <;> omega
  · obtain rfl : set = !x.wid := Bool.eq_not_of_ne hset
    by_cases hclosing : x.closing = true
    · rw [h.area.closingLfn hclosing]
      omega
    · have hempty := h.area.empty_of_not_closing (Bool.eq_false_iff.mpr hclosing) (c.bufId_lt s)
      cases hempty.2.symm.trans hlock

lemma CtxOk.session_logWrite (h : CtxOk c x) (hstep : Log.logWrite c x t = some x') :
    Keeps (x.sessions s) (x'.sessions s) ∨ Places x.lfn (x.sessions s) (x'.sessions s) := by
  unfold Log.logWrite at hstep
  split at hstep
  case h_2 => cases hstep
  rename_i size set hst
  simp only at hstep
  split at hstep
  case isTrue =>
    cases hstep
    rcases eq_or_ne s t with rfl | hs
    · rw [setSession_self]
      refine .inr ⟨by rw [hst]; rfl, rfl, _, rfl, ?_⟩
      exact h.lfn_lt_of_locked hst
    · rw [setSession_of_ne _ hs]
      exact .inl (.refl _)
  case isFalse =>
    cases hstep
    exact .inl (.goesOn hst rfl rfl rfl)

lemma keeps_logFlush {caller} (hstep : logFlush c x caller = some x') :
    Keeps (x.sessions s) (x'.sessions s) := by
  obtain ⟨-, hstep⟩ := ite_none_right_eq_some.mp hstep
  obtain ⟨y, hy, hstep⟩ := bind_eq_some_iff.mp hstep
  have hcall : Keeps (x.sessions s) (y.sessions s) := by
    cases caller with
    | none =>
      cases hy
      exact .refl _
    | some t =>
      obtain ⟨st, hst, rfl⟩ := map_eq_some_iff.mp hy
      unfold callFlush at hst
      split at hst
      case h_3 => cases hst
      all_goals
        rename_i hstage
        cases hst
        exact .goesOn hstage rfl rfl rfl
  split at hstep
  · obtain ⟨-, ⟨⟩⟩ := ite_none_right_eq_some.mp hstep
    exact hcall
  · cases hstep
    exact hcall.trans (Keeps.setCaller caller)

/-- A leader marks the sessions of a batch and goes on. -/
lemma keeps_batch {b q p st0 st} (hst : (x.sessions t).stage = st0) (hrest : st0.atRest = false)
    (hwrite : st.inWrite = st0.inWrite) : Keeps (x.sessions s) (({ x with
      sessions := setCommitProgress x.sessions b p
      txQueue := q }.setStage t st).sessions s) := by
  obtain ⟨r, hr⟩ := setCommitProgress_eq x.sessions b p t
  refine (keeps_setCommitProgress x.sessions b p s).trans (.goesOn ?_ hrest hwrite rfl)
  simp [hr, hst]

/-- The end of an atomic operation enters `log_write` if there is redo. -/
lemma session_atomicOpEnd {size changed} (hstep : atomicOpEnd c x t size changed = some x') :
    (x'.sessions s).written = (x.sessions s).written ∧
      (s ≠ t → x'.sessions s = x.sessions s) ∧
      (s = t → c.groupHead < size → (x'.sessions s).stage.inWrite = true) := by
  have hmain : ∀ st : Stage, (c.groupHead < size → st.inWrite = true) →
      ((x.setStage t st).sessions s).written = (x.sessions s).written ∧
        (s ≠ t → (x.setStage t st).sessions s = x.sessions s) ∧
        (s = t → c.groupHead < size → ((x.setStage t st).sessions s).stage.inWrite = true) := by
    intro st hst
    rcases eq_or_ne s t with rfl | hs
    · simpa [setStage] using hst
    · rw [setStage, setSession_of_ne _ hs]
      exact ⟨rfl, fun _ => rfl, fun h => absurd h hs⟩
  unfold atomicOpEnd at hstep
  split at hstep
  case h_3 => cases hstep
  all_goals
    split at hstep
    · cases hstep
      exact hmain .idle (by omega)
    · cases hstep
      exact hmain (.writing size) fun _ => rfl

lemma written_logCommit (hstep : logCommit x t = some x') :
    (x'.sessions s).written = (x.sessions s).written ∧
      (x'.sessions s).stage.inWrite = (x.sessions s).stage.inWrite ∧
      (s ≠ t → x'.sessions s = x.sessions s) := by
  have hmain : ∀ st : Stage, st.inWrite = false → (x.sessions t).stage.inWrite = false →
      ((x.setStage t st).sessions s).written = (x.sessions s).written ∧
        ((x.setStage t st).sessions s).stage.inWrite = (x.sessions s).stage.inWrite ∧
        (s ≠ t → (x.setStage t st).sessions s = x.sessions s) := by
    intro st hnew hold
    rcases eq_or_ne s t with rfl | hs
    · simp [setStage, hnew, hold]
    · rw [setStage, setSession_of_ne _ hs]
      exact ⟨rfl, rfl, fun _ => rfl⟩
  unfold logCommit at hstep
  split at hstep
  case h_3 => cases hstep
  all_goals
    rename_i hst
    split at hstep
    all_goals
      cases hstep
      exact hmain _ rfl (by rw [hst]; rfl)

/-- A step that does not end an atomic operation: each session is left as it was, places
its group, or calls `log_commit`. -/
lemma CtxOk.session_step (h : CtxOk c x) {action} (hstep : logStep c x action = some x')
    (hend : ∀ t size changed, action ≠ .atomicOpEnd t size changed) (s : Nat) :
    Keeps (x.sessions s) (x'.sessions s) ∨ Places x.lfn (x.sessions s) (x'.sessions s) ∨
      action = .commit s ∧ (x'.sessions s).written = (x.sessions s).written ∧
        (x'.sessions s).stage.inWrite = (x.sessions s).stage.inWrite := by
  cases action with
  | atomicOpEnd t size changed => exact absurd rfl (hend t size changed)
  | writeTryLock t =>
    simp only [logStep, Log.logWriteTryLock] at hstep
    split at hstep
    case h_2 => cases hstep
    case h_1 hst =>
      obtain ⟨-, ⟨⟩⟩ := ite_none_right_eq_some.mp hstep
      exact .inl (.goesOn hst rfl rfl rfl)
  | write => exact (h.session_logWrite hstep).imp id .inl
  | copy t | commitEnque t | unlockCommit t =>
    simp only [logStep, Log.logCopy, Log.logCommitEnque, Log.unlockCommit] at hstep
    split at hstep <;> cases hstep
    rename_i hst
    exact .inl (.goesOn hst rfl rfl rfl)
  | flush => exact .inl (keeps_logFlush hstep)
  | assemble | flushToDisk =>
    simp only [logStep, Log.logAssembleBuffer, Log.logFlushToDisk] at hstep
    repeat' split at hstep
    all_goals
      cases hstep
      try exact .inl (.refl _)
  | flushEnd =>
    simp only [logStep, Log.logFlushEnd] at hstep
    split at hstep
    case h_2 => cases hstep
    case h_1 =>
      obtain ⟨-, ⟨⟩⟩ := ite_none_right_eq_some.mp hstep
      exact .inl (.setCaller _)
  | commit t =>
    obtain ⟨hwritten, hwrite, hother⟩ := written_logCommit (s := s) hstep
    rcases eq_or_ne s t with rfl | hs
    · exact .inr (.inr ⟨rfl, hwritten, hwrite⟩)
    · rw [hother hs]
      exact .inl (.refl _)
  | commitTryLock t =>
    simp only [logStep, Log.logCommitTryLock] at hstep
    split at hstep
    case h_1 hst _ =>
      cases hstep
      exact .inl (.goesOn hst rfl rfl rfl)
    case h_2 hst _ =>
      obtain ⟨-, ⟨⟩⟩ := ite_none_right_eq_some.mp hstep
      exact .inl (.goesOn hst rfl rfl rfl)
    case h_3 => cases hstep
  | takeQueue t =>
    simp only [logStep, Log.takeQueue] at hstep
    split at hstep <;> cases hstep
    rename_i hst
    exact .inl (keeps_batch hst rfl rfl)
  | completeNext t =>
    simp only [logStep, Log.completeNext] at hstep
    split at hstep
    case h_1 hst =>
      cases hstep
      exact .inl (keeps_batch hst rfl rfl)
    case h_2 hst =>
      cases hstep
      exact .inl (.goesOn hst rfl rfl rfl)
    case h_3 => cases hstep

@[simp] lemma toArea_setCaller (x : Ctx) (caller : Option Nat) (st : Stage → Stage) :
    (x.setCaller caller st).toArea = x.toArea := by
  cases caller <;> rfl

end

/-! ## LSNs and batches -/

/-- A group of a later batch has a larger LSN. -/
def Ctx.InLsnOrder (x : Ctx) : Prop :=
  ∀ s t, ∀ g ∈ (x.sessions s).written, ∀ g' ∈ (x.sessions t).written,
    g.lfn < g'.lfn → g.lsn < g'.lsn

/-- Nobody holds a buffer of the set that is flushed. -/
structure LsnOk (c : Config) (x : Ctx) : Prop where
  unlocked : ∀ i < c.bufCount, (x.bufs i (!x.wid)).lock = none
  order : x.InLsnOrder

section
variable {c : Config} {x x' : Ctx} {s t : Nat}

lemma mem_written {v g new} (hv : v.written = (x.sessions s).written ++ [new])
    (hg : g ∈ ((x.setSession s v).sessions t).written) : g ∈ (x.sessions t).written ∨ g = new := by
  rcases eq_or_ne t s with rfl | ht
  · rw [setSession_self, hv] at hg
    simpa using hg
  · rw [setSession_of_ne v ht] at hg
    exact .inl hg

variable (h : LsnOk c x)
include h

lemma LsnOk.of_written (hlock : ∀ i < c.bufCount, (x'.bufs i (!x'.wid)).lock = none)
    (hw : ∀ s, (x'.sessions s).written = (x.sessions s).written) : LsnOk c x' := by
  refine ⟨hlock, fun s t => ?_⟩
  rw [hw, hw]
  exact h.order s t

lemma LsnOk.unlocked_setBuf {i set b} (hb : set = x.wid ∨ b.lock = (x.bufs i set).lock) :
    ∀ j < c.bufCount, ((x.setBuf i set b).bufs j (!x.wid)).lock = none := by
  intro j hj
  have hold := h.unlocked j hj
  by_cases hji : j = i ∧ (!x.wid) = set
  · obtain ⟨rfl, rfl⟩ := hji
    rw [Area.setBuf_self, hb.resolve_left (by simp), hold]
  · rwa [x.setBuf_of_ne b hji]

/-- `log_switch_buffer` holds the locks of the buffers while it switches. -/
lemma LsnOk.logFlush (hdbs : c.dbs = true) {caller} (hstep : logFlush c x caller = some x') :
    LsnOk c x' := by
  refine h.of_written ?_ fun s => (keeps_logFlush hstep).1
  obtain ⟨-, hstep⟩ := ite_none_right_eq_some.mp hstep
  obtain ⟨y, hy, hstep⟩ := bind_eq_some_iff.mp hstep
  split at hstep
  · obtain ⟨hswitch, ⟨⟩⟩ := ite_none_right_eq_some.mp hstep
    intro i hi
    simp only [Area.canSwitch, hdbs, Bool.not_true, Bool.false_or, List.all_eq_true] at hswitch
    simpa [Area.switchBuffer] using hswitch i (List.mem_range.mpr hi)
  · cases hstep
    rw [toArea_setCaller]
    cases caller with
    | none =>
      cases hy
      exact h.unlocked
    | some t =>
      obtain ⟨st, -, rfl⟩ := map_eq_some_iff.mp hy
      exact h.unlocked

/-- The new group has the largest LSN, and the lfn of the set that is written to. -/
lemma LsnOk.logWrite (hok : CtxOk c x) (hstep : logWrite c x s = some x') : LsnOk c x' := by
  unfold Log.logWrite at hstep
  split at hstep
  case h_2 => cases hstep
  rename_i size set hst
  have hstage := (hok.session s).stage
  simp only [StageOk, hst] at hstage
  obtain ⟨-, hlock, -, hlfn⟩ := hstage
  have hset : set = x.wid := by
    by_contra hne
    rw [Bool.eq_not_of_ne hne, h.unlocked _ (c.bufId_lt s)] at hlock
    cases hlock
  subst hset
  have hle : ∀ {t g}, g ∈ (x.sessions t).written →
      g.lfn ≤ (x.sessions s).currLfn ∧ g.lsn ≤ x.lsn := by
    intro t g hg
    refine ⟨?_, (hok.session t).writtenLsn g hg⟩
    rw [hlfn]
    exact Nat.le_trans ((hok.session t).writtenLfn g hg) (hok.session t).seen
  simp only at hstep
  split at hstep <;> cases hstep
  · refine ⟨h.unlocked_setBuf (.inl rfl), fun t t' g hg g' hg' hlt => ?_⟩
    rcases mem_written rfl hg, mem_written rfl hg' with ⟨hg | rfl, hg' | rfl⟩
    · exact h.order t t' g hg g' hg' hlt
    · exact Nat.lt_succ_of_le (hle hg).2
    · exact absurd hlt (Nat.not_lt.mpr (hle hg').1)
    · exact absurd hlt (Nat.lt_irrefl _)
  · refine h.of_written (h.unlocked_setBuf (.inl rfl)) fun t => ?_
    simp only [setStage, setSession, Function.update_apply]
    split <;> simp_all

lemma LsnOk.step (hok : CtxOk c x) (hdbs : c.dbs = true) {action}
    (hstep : logStep c x action = some x') : LsnOk c x' := by
  cases action with
  | write => exact h.logWrite hok hstep
  | flush => exact h.logFlush hdbs hstep
  | _ =>
    simp only [logStep, Log.atomicOpEnd, Log.logWriteTryLock, Log.logCopy, Log.logAssembleBuffer,
      Log.logFlushToDisk, Log.logFlushEnd, Log.logCommit, Log.logCommitEnque, Log.logCommitTryLock,
      Log.takeQueue, Log.unlockCommit, Log.completeNext] at hstep
    repeat' split at hstep
    all_goals cases hstep
    all_goals apply h.of_written
    all_goals
      first
      | exact h.unlocked
      | exact h.unlocked_setBuf (.inl rfl)
      | exact h.unlocked_setBuf (.inr rfl)
      | exact fun s => (Keeps.setCaller _).1
      | simpa only [toArea_setCaller] using h.unlocked
      | intro s
        simp only [setStage, setSession, setCommitProgress, Function.update_apply]
        repeat' split
        all_goals simp_all

end

/-- In every interleaving the groups of all sessions, in batches on disk and in the buffers,
have their LSNs in the order of their batches, if the log is in the object store. -/
theorem batches_in_lsn_order {c : Config} {x : Ctx} (hdbs : c.dbs = true)
    (h : Lib.Reachable (logStep c) Ctx.Fresh x) : x.InLsnOrder := by
  refine (h.invariant (P := fun x => CtxOk c x ∧ LsnOk c x) (fun x hf => ⟨.fresh hf, ?_⟩)
    fun x a x' _ h hstep => ⟨(h.1.step hstep).ok, h.2.step h.1 hdbs hstep⟩).2.order
  constructor <;> simp [InLsnOrder, hf.bufs, hf.sessions]

theorem batches_in_lsn_order_two : ∃ x : Ctx, x.disk.map Batch.lsn = [1, 2] ∧ x.InLsnOrder := by
  obtain ⟨x, hrun, hx⟩ := Lib.exists_of_run_map (logStep twoBuffers) (started 7)
    [.atomicOpEnd 0 20 true, .writeTryLock 0, .write 0, .copy 0, .flush none, .assemble 1,
      .assemble 0, .flushToDisk, .flushEnd, .atomicOpEnd 1 30 true, .writeTryLock 1, .write 1,
      .copy 1, .flush none, .assemble 1, .assemble 0, .flushToDisk]
    (fun x => x.disk.map Batch.lsn) [1, 2] (by decide +kernel)
  exact ⟨x, hx, batches_in_lsn_order rfl (.of_run _ (.init (started_fresh 7)) hrun)⟩

end Cantian.Log
