import Cantian.Lib.LeaderQueue
import Cantian.Log.Area

/-!
# Commits are durable

`CtxOk` joins the invariant of the redo area, the invariant of the queue of
committing sessions, and what a leader knows about its batch: after its
flush has switched the buffers, no group of a member is in the set that is
written to; after the flush, all of them are on disk.
-/

namespace Cantian.Log

open Function List Option Ctx Log Stage Cantian.Log.Frame Area

open Lib (LeaderQueue.Role LeaderQueue.Mark LeaderQueue.Ok)

def Stage.role : Stage → LeaderQueue.Role Nat
  | .waiting => .waiting
  | .electing => .elected
  | .leading b | .flushing b | .flushed b => .leads true b
  | .completing b => .leads false b
  | _ => .outside

def Progress.mark : Progress → LeaderQueue.Mark
  | .pending => .pending
  | .waiting => .taken
  | .completed => .served

/-- What a leader in stage `st` knows about a session of its batch. -/
def Covered (c : Config) (a : Area) (st : Stage) (y : Nat) (v : Session) : Prop :=
  match st with
  | .flushing _ => a.Sealed c y v
  | .flushed _ | .completing _ => a.Durable v
  | _ => True

structure CtxCore (c : Config) (x : Ctx) : Prop where
  area : AreaOk c x.toArea
  session : ∀ s, SessionOk c x.toArea s (x.sessions s)
  queue : LeaderQueue.Ok (fun s => (x.sessions s).stage.role)
    (fun s => (x.sessions s).progress.mark) x.txQueue x.commitLock
  self : ∀ s, Covered c x.toArea (x.sessions s).stage s (x.sessions s)
  batch : ∀ s e b, (x.sessions s).stage.role = .leads e b →
    ∀ y ∈ b, Covered c x.toArea (x.sessions s).stage y (x.sessions y)

/-- The invariant. A leader in `log_flush` is the one that holds `flush_lock`. -/
structure CtxOk (c : Config) (x : Ctx) : Prop extends CtxCore c x where
  calls : ∀ s b, (x.sessions s).stage = .flushing b → ∃ st, x.flush = some ⟨some s, st⟩

variable {a : Area} {st : Stage} {v : Session} {size : Nat}

/-- What session `s` knows in stage `st`. -/
structure Knows (c : Config) (x : Ctx) (s : Nat) (st : Stage) : Prop where
  self : Covered c x.toArea st s (x.sessions s)
  batch : ∀ e b, st.role = .leads e b → ∀ y ∈ b, Covered c x.toArea st y (x.sessions y)
  calls : ∀ b, st = .flushing b → ∃ f, x.flush = some ⟨some s, f⟩

lemma covered_of_not_leads {c y} (h : ∀ e b, st.role ≠ .leads e b) : Covered c a st y v := by
  cases st <;> first | trivial | exact absurd rfl (h _ _)

lemma Knows.of_not_leads {c x s} (h : ∀ e b, st.role ≠ .leads e b) : Knows c x s st where
  self := covered_of_not_leads h
  batch e b hb := absurd hb (h e b)
  calls b hb := absurd (hb ▸ rfl) (h true b)

lemma covered_congr {c y w} (hw : w.written = v.written) (h : Covered c a st y v) :
    Covered c a st y w := by
  cases st with
  | flushing | flushed b | completing b =>
    intro g hg
    exact h g (hw ▸ hg)
  | _ => trivial

lemma Frame.covered {c who a' y} (hf : Frame c who a a') (hv : SessionOk c a y v)
    (h : Covered c a st y v) : Covered c a' st y v := by
  cases st with
  | flushing => exact fun g hg => hf.unopened _ (c.bufId_lt y) g (hv.writtenLsn g hg) (h g hg)
  | flushed b | completing b => exact hf.durable h
  | _ => trivial

/-- A step keeps the invariant and moves the area in a way that leaves the other
sessions alone. -/
structure Moved (c : Config) (x x' : Ctx) : Prop where
  ok : CtxOk c x'
  frame : ∃ who, Frame c who x.toArea x'.toArea

section
variable {c : Config} {x : Ctx} {s : Nat}

@[simp] lemma Ctx.setSession_self (v : Session) : (x.setSession s v).sessions s = v := by
  simp [setSession]

lemma Ctx.setSession_of_ne {y} (v : Session) (h : y ≠ s) :
    (x.setSession s v).sessions y = x.sessions y := by
  simp [setSession, h]

/-- What is read off the sessions after a change of one. -/
lemma Ctx.comp_setSession {α} (f : Session → α) (v : Session) :
    (fun y => f ((x.setSession s v).sessions y)) = update (fun y => f (x.sessions y)) s (f v) :=
  comp_update f x.sessions s v

/-- The queue does not see a change of a session that keeps its role and its progress. -/
lemma CtxCore.queue_setSession (h : CtxCore c x) (hrole : v.stage.role = (x.sessions s).stage.role)
    (hprog : v.progress = (x.sessions s).progress) :
    LeaderQueue.Ok (update (fun y => (x.sessions y).stage.role) s v.stage.role)
      (update (fun y => (x.sessions y).progress.mark) s v.progress.mark) x.txQueue
      x.commitLock := by
  rw [hrole, hprog, update_eq_self s fun y => (x.sessions y).stage.role,
    update_eq_self s fun y => (x.sessions y).progress.mark]
  exact h.queue

/-- A step of a session outside `log_commit` that changes the area. -/
lemma CtxOk.writer (h : CtxOk c x) (harea : AreaOk c a) (hframe : Frame c (some s) x.toArea a)
    (hflush : a.flush = x.flush) (hold : (x.sessions s).stage.role = .outside)
    (hnew : v.stage.role = .outside) (hprog : v.progress = (x.sessions s).progress)
    (hsession : SessionOk c a s v) : Moved c x ({ x with toArea := a }.setSession s v) := by
  refine ⟨⟨⟨harea, fun y => ?_, ?_, fun y => ?_, fun t e b ht y hy => ?_⟩, fun t b ht => ?_⟩,
    some s, hframe⟩
  · rcases eq_or_ne y s with rfl | hy
    · rw [setSession_self]
      exact hsession
    · rw [setSession_of_ne v hy]
      exact hframe.session (by simpa using hy) (h.session y)
  · rw [comp_setSession (·.stage.role), comp_setSession (·.progress.mark)]
    exact h.queue_setSession (hnew.trans hold.symm) hprog
  · rcases eq_or_ne y s with rfl | hy
    · simpa using covered_of_not_leads (by simp [hnew])
    · rw [setSession_of_ne v hy]
      exact hframe.covered (h.session y) (h.self y)
  · rcases eq_or_ne t s with rfl | hts
    · rw [setSession_self, hnew] at ht
      cases ht
    · rw [setSession_of_ne v hts] at ht ⊢
      have hys : y ≠ s := fun hys => h.queue.not_mem_of_outside hold ht (hys ▸ hy)
      rw [setSession_of_ne v hys]
      exact hframe.covered (h.session y) (h.batch t e b ht y hy)
  · rcases eq_or_ne t s with rfl | hts
    · rw [setSession_self] at ht
      simp [ht, role] at hnew
    · rw [setSession_of_ne v hts] at ht
      obtain ⟨st, hst⟩ := h.calls t b ht
      exact ⟨st, hflush.trans hst⟩

/-- A step of the flush; whoever waits for it is noted. -/
lemma CtxOk.flushGoesOn (h : CtxOk c x) (harea : AreaOk c a) (hframe : Frame c none x.toArea a)
    (hcalls : ∀ s b, (x.sessions s).stage = .flushing b → ∃ st, a.flush = some ⟨some s, st⟩) :
    Moved c x { x with toArea := a } where
  ok :=
    { area := harea
      session := fun y => hframe.session (by simp) (h.session y)
      queue := h.queue
      self := fun y => hframe.covered (h.session y) (h.self y)
      batch := fun t e b ht y hy => hframe.covered (h.session y) (h.batch t e b ht y hy)
      calls := hcalls }
  frame := ⟨none, hframe⟩

/-- A step of session `s` that leaves the area alone; it may change the progress of others. -/
lemma CtxOk.commit (h : CtxOk c x) {sessions txQueue commitLock}
    (hlfn : (sessions s).currLfn = (x.sessions s).currLfn)
    (hwritten : (sessions s).written = (x.sessions s).written)
    (hother : ∀ y ≠ s, ∃ p, sessions y = { x.sessions y with progress := p })
    (hstage : ∀ y, StageOk c x.toArea y (sessions y))
    (hqueue : LeaderQueue.Ok (fun y => (sessions y).stage.role)
      (fun y => (sessions y).progress.mark) txQueue commitLock)
    (hknows : Knows c x s (sessions s).stage) :
    Moved c x { x with sessions := sessions, txQueue := txQueue, commitLock := commitLock } := by
  have hsame : ∀ y, (sessions y).currLfn = (x.sessions y).currLfn ∧
      (sessions y).written = (x.sessions y).written := by
    intro y
    rcases eq_or_ne y s with rfl | hy
    · exact ⟨hlfn, hwritten⟩
    · obtain ⟨p, hp⟩ := hother y hy
      rw [hp]
      exact ⟨rfl, rfl⟩
  have hst : ∀ y ≠ s, (sessions y).stage = (x.sessions y).stage := by
    intro y hy
    obtain ⟨p, hp⟩ := hother y hy
    rw [hp]
  refine ⟨⟨⟨h.area, fun y => ?_, hqueue, fun y => ?_, fun t e b ht y hy => ?_⟩, fun t b ht => ?_⟩,
    none, refl c none _⟩
  · exact (refl c none _).withStage (h.session y) (hsame y).1 (hsame y).2 (hstage y)
  · apply covered_congr (hsame y).2
    rcases eq_or_ne y s with rfl | hy
    · exact hknows.self
    · rw [hst y hy]
      exact h.self y
  · apply covered_congr (hsame y).2
    rcases eq_or_ne t s with rfl | hts
    · exact hknows.batch e b ht y hy
    · rw [hst t hts] at ht ⊢
      exact h.batch t e b ht y hy
  · rcases eq_or_ne t s with rfl | hts
    · exact hknows.calls b ht
    · exact h.calls t b ((hst t hts).symm.trans ht)

/-- A step of `log_commit` that only changes the stage and the progress of session `s`. -/
lemma CtxOk.commitSelf (h : CtxOk c x) {txQueue commitLock}
    (hlfn : v.currLfn = (x.sessions s).currLfn) (hwritten : v.written = (x.sessions s).written)
    (hstage : StageOk c x.toArea s v)
    (hqueue : LeaderQueue.Ok (update (fun y => (x.sessions y).stage.role) s v.stage.role)
      (update (fun y => (x.sessions y).progress.mark) s v.progress.mark) txQueue commitLock)
    (hknows : Knows c x s v.stage) :
    Moved c x { x.setSession s v with txQueue := txQueue, commitLock := commitLock } := by
  apply h.commit (s := s)
  · simpa using hlfn
  · simpa using hwritten
  · exact fun y hy => ⟨_, setSession_of_ne v hy⟩
  · intro y
    rcases eq_or_ne y s with rfl | hy
    · simpa using hstage
    · rw [setSession_of_ne v hy]
      exact (h.session y).stage
  · rw [comp_setSession (·.stage.role), comp_setSession (·.progress.mark)]
    exact hqueue
  · simpa using hknows

end

/-! ## The steps -/

section
variable {c : Config} {x x' : Ctx} {s : Nat}

lemma CtxOk.setStage (h : CtxOk c x) (hrole : st.role = (x.sessions s).stage.role)
    (hstage : StageOk c x.toArea s { x.sessions s with stage := st }) (hknows : Knows c x s st) :
    Moved c x (x.setStage s st) :=
  h.commitSelf (v := { x.sessions s with stage := st }) rfl rfl hstage
    (h.queue_setSession hrole rfl) hknows

lemma CtxOk.setOutside (h : CtxOk c x) (hold : (x.sessions s).stage.role = .outside)
    (hnew : st.role = .outside) (hstage : StageOk c x.toArea s { x.sessions s with stage := st }) :
    Moved c x (x.setStage s st) :=
  h.setStage (hnew.trans hold.symm) hstage (.of_not_leads (by simp [hnew]))

lemma CtxOk.stage (h : CtxOk c x) (hst : (x.sessions s).stage = st) :
    StageOk c x.toArea s { x.sessions s with stage := st } := by
  subst hst
  exact (h.session s).stage

lemma CtxOk.atomicOpEnd (h : CtxOk c x) {changed}
    (hstep : atomicOpEnd c x s size changed = some x') : Moved c x x' := by
  have hmain : (x.sessions s).stage.role = .outside →
      (if size ≤ c.groupHead then
        some { x.setStage s .idle with lsn := if changed then x.lsn + 1 else x.lsn }
      else some (x.setStage s (.writing size))) = some x' → Moved c x x' := by
    intro hold hx
    split at hx
    · cases hx
      have hle : x.lsn ≤ if changed then x.lsn + 1 else x.lsn := by split <;> omega
      refine h.writer (v := { x.sessions s with stage := .idle })
        { h.area with nextLfn := h.area.nextLfn } (setLsn c _ hle) rfl hold rfl rfl ?_
      exact (setLsn c none hle).withStage (h.session s) rfl rfl trivial
    · cases hx
      have hpos : 0 < size := by omega
      exact h.setOutside hold rfl hpos
  unfold Log.atomicOpEnd at hstep
  split at hstep
  case h_1 hst => exact hmain (by rw [hst]; rfl) hstep
  case h_2 hst => exact hmain (by rw [hst]; rfl) hstep
  case h_3 => cases hstep

lemma CtxOk.logWriteTryLock (h : CtxOk c x) (hstep : logWriteTryLock c x s = some x') :
    Moved c x x' := by
  unfold Log.logWriteTryLock at hstep
  split at hstep
  case h_2 => cases hstep
  rename_i size hst
  have hold : (x.sessions s).stage.role = .outside := by rw [hst]; rfl
  obtain ⟨hfree, hstep⟩ := ite_none_right_eq_some.mp hstep
  obtain ⟨hlock, hfull⟩ := hfree
  cases hstep
  have hi := c.bufId_lt s
  have hfree : ∀ y ≠ s, (x.bufs (c.bufId s) x.wid).lock ≠ some y := by simp [hlock]
  have hframe := setBuf (c := c) x.copied (Nat.le_refl x.lsn) (.setLock hfree (some s))
  refine h.writer (h.area.setLock hi fun hset => ?_) hframe rfl hold rfl rfl ?_
  · cases hw : x.wid <;> simp [hw] at hset
  · exact
      { seen := Nat.le_refl _
        own := (h.session s).own
        writtenLfn := fun g hg => Nat.le_trans ((h.session s).writtenLfn g hg) (h.session s).seen
        writtenLsn := (h.session s).writtenLsn
        located := fun g hg => hframe.located _ hi g ((h.session s).located g hg)
        stage := by
          refine ⟨h.stage hst, ?_, ?_, rfl⟩
          · simp
          · rw [setBuf_self]
            exact hfull }

section
variable {set : Bool} (h : CtxOk c x) (hst : (x.sessions s).stage = .locked size set)
include h hst

lemma CtxOk.lock_of_locked (y : Nat) (hy : y ≠ s) : (x.bufs (c.bufId s) set).lock ≠ some y := by
  obtain ⟨_, hlock, _, _⟩ := h.stage hst
  rw [hlock]
  exact fun he => hy (some.inj he).symm

lemma CtxOk.keeps_reserve : (x.bufs (c.bufId s) set).Keeps s x.lsn
    ((x.bufs (c.bufId s) set).reserve (x.nextGroup s size)) where
  groups g hg := mem_append_left _ hg
  new g hg hlsn := by
    refine (mem_append.mp hg).resolve_right fun hg => ?_
    rw [mem_singleton.mp hg] at hlsn
    exact Nat.not_succ_le_self x.lsn hlsn
  lock y hy hl := absurd hl (h.lock_of_locked hst y hy)
  slot k g _ hk := by
    obtain ⟨_, _, hfull, _⟩ := h.stage hst
    exact getElem?_set_free (getElem?_findIdx_isNone _ hfull) hk

lemma CtxOk.reserve : Moved c x ({ x with
      toArea := { x.setBuf (c.bufId s) set
        ((x.bufs (c.bufId s) set).reserve (x.nextGroup s size)) with
          lsn := x.lsn + 1 } }.setSession s
          { x.sessions s with
            stage := .copying set ((x.bufs (c.bufId s) set).slots.findIdx Option.isNone)
              (x.nextGroup s size)
            written := (x.sessions s).written ++ [x.nextGroup s size] }) := by
  have hi := c.bufId_lt s
  obtain ⟨hpos, hlock, hfull, hlfn⟩ := h.stage hst
  have hslot := getElem?_findIdx_isNone _ hfull
  have hframe := setBuf (c := c) x.copied (Nat.le_succ x.lsn) (h.keeps_reserve hst)
  refine h.writer (h.area.setBuf (x.lsn + 1) (fun g hg => hg) ⟨?_, ?_, ?_, ?_⟩) hframe rfl
    (by rw [hst]; rfl) rfl rfl ?_
  · exact forall_mem_append.mpr ⟨h.area.groupLfn _ hi set, forall_mem_singleton.mpr hlfn⟩
  · refine forall_mem_append.mpr ⟨fun g hg => ?_, forall_mem_singleton.mpr (.inr ?_)⟩
    · exact (h.area.groupCopy _ hi set g hg).imp id (mem_set_free hslot)
    · exact mem_of_getElem? (getElem?_set_self_of_some hslot _)
  · intro hzero
    simp only [Buffer.reserve, nextGroup] at hzero
    omega
  · intro hset htodo
    rw [((h.area.buf hi set).drained hset htodo).2] at hlock
    cases hlock
  · exact
      { seen := (h.session s).seen
        own := forall_mem_append.mpr ⟨(h.session s).own, forall_mem_singleton.mpr rfl⟩
        writtenLfn :=
          forall_mem_append.mpr ⟨(h.session s).writtenLfn,
            forall_mem_singleton.mpr (Nat.le_refl _)⟩
        writtenLsn :=
          forall_mem_append.mpr ⟨fun g hg => Nat.le_succ_of_le ((h.session s).writtenLsn g hg),
            forall_mem_singleton.mpr (Nat.le_refl _)⟩
        located := by
          intro g hg
          rcases mem_append.mp hg with hg | hg
          · exact hframe.located _ hi g ((h.session s).located g hg)
          · refine .inr (.inr ⟨set, ?_⟩)
            rw [mem_singleton.mp hg]
            simp [Buffer.reserve]
        stage := by
          refine ⟨rfl, ?_⟩
          simpa [Buffer.reserve] using getElem?_set_self_of_some hslot _ }

lemma CtxOk.unlockBuffer : Moved c x ({ x with
      toArea := x.setBuf (c.bufId s) set
        { x.bufs (c.bufId s) set with lock := none } }.setStage s (.noSpace size)) := by
  obtain ⟨hpos, _⟩ := h.stage hst
  have hframe := setBuf (c := c) x.copied (Nat.le_refl x.lsn) (.setLock (h.lock_of_locked hst) none)
  refine h.writer (h.area.setLock (c.bufId_lt s) fun _ => rfl) hframe rfl (by rw [hst]; rfl) rfl
    rfl ?_
  exact hframe.withStage (h.session s) rfl rfl hpos

end

lemma CtxOk.logWrite (h : CtxOk c x) (hstep : logWrite c x s = some x') : Moved c x x' := by
  unfold Log.logWrite at hstep
  split at hstep
  case h_2 => cases hstep
  rename_i size set hst
  simp only at hstep
  split at hstep
  case isTrue =>
    cases hstep
    exact h.reserve hst
  case isFalse =>
    cases hstep
    exact h.unlockBuffer hst

lemma Buffer.Keeps.copied {b : Buffer} {slot : Nat} {g lsn}
    (hslot : b.slots[slot]? = some (some g)) :
    b.Keeps g.session lsn { b with slots := b.slots.set slot none } where
  groups _ hg := hg
  new _ hg _ := hg
  lock _ _ hl := ⟨hl, all_isSome_set_none _ slot⟩
  slot _ _ hne hk := getElem?_set_taken hslot (fun hg => hne (congrArg Group.session hg)) hk

lemma CtxOk.logCopy (h : CtxOk c x) (hstep : logCopy c x s = some x') : Moved c x x' := by
  unfold Log.logCopy at hstep
  split at hstep <;> cases hstep
  rename_i set slot g hst
  have hi := c.bufId_lt s
  obtain ⟨rfl, hslot⟩ := h.stage hst
  have hframe := setBuf (c := c) (g :: x.copied) (Nat.le_refl x.lsn) (.copied hslot)
  refine h.writer (h.area.setBuf x.lsn (fun g' hg => mem_cons_of_mem g hg)
    { h.area.buf hi set with copy := fun g' hg => ?_ }) hframe rfl (by rw [hst]; rfl) rfl rfl ?_
  · rcases h.area.groupCopy _ hi set g' hg with hc | hs
    · exact .inl (mem_cons_of_mem g hc)
    · refine (mem_set_none_or hslot hs).imp (fun hgg => ?_) id
      rw [hgg]
      exact mem_cons_self
  · exact hframe.withStage (h.session _) rfl rfl trivial

lemma Ctx.setStage_setStage (st st' : Stage) :
    (x.setStage s st).setStage s st' = x.setStage s st' := by
  simp [setStage, setSession]

section
variable (h : CtxOk c x)
include h

lemma CtxOk.callFlush (hcall : (x.sessions s).stage.callFlush = some st)
    (hsealed : ∀ y, x.Sealed c y (x.sessions y)) (hflush : ∃ f, x.flush = some ⟨some s, f⟩) :
    Moved c x (x.setStage s st) := by
  unfold Stage.callFlush at hcall
  split at hcall
  case h_1 b hst =>
    cases hcall
    exact h.setStage (by rw [hst]; rfl) trivial
      ⟨hsealed s, fun e b' _ y _ => hsealed y, fun _ _ => hflush⟩
  case h_2 size hst =>
    cases hcall
    exact h.setOutside (by rw [hst]; rfl) rfl (show 0 < size from h.stage hst)
  case h_3 => cases hcall

lemma CtxOk.returnFlush (hcall : (x.sessions s).stage.callFlush = some st)
    (hdurable : ∀ y, x.Durable (x.sessions y)) : Moved c x (x.setStage s st.returnFlush) := by
  unfold Stage.callFlush at hcall
  split at hcall
  case h_1 b hst =>
    cases hcall
    exact h.setStage (by rw [hst]; rfl) trivial
      ⟨hdurable s, fun e b' _ y _ => hdurable y, nofun⟩
  case h_2 size hst =>
    cases hcall
    exact h.setOutside (by rw [hst]; rfl) rfl (show 0 < size from h.stage hst)
  case h_3 => cases hcall

lemma CtxOk.logFlush {caller} (hstep : logFlush c x caller = some x') : Moved c x x' := by
  obtain ⟨hflush, hstep⟩ := ite_none_right_eq_some.mp hstep
  obtain ⟨y, hy, hstep⟩ := bind_eq_some_iff.mp hstep
  by_cases hneed : x.needFlush c = true
  · rw [if_pos hneed] at hstep
    obtain ⟨-, ⟨⟩⟩ := ite_none_right_eq_some.mp hstep
    have hswitched : Moved c x { x with toArea := x.switchBuffer c caller } := by
      apply h.flushGoesOn (h.area.switchBuffer hflush caller)
       (switchBuffer h.area hflush caller none)
      intro s b hs
      obtain ⟨st, hst⟩ := h.calls s b hs
      cases hflush.symm.trans hst
    cases caller with
    | none =>
      cases hy
      exact hswitched
    | some s =>
      obtain ⟨st, hcall, rfl⟩ := map_eq_some_iff.mp hy
      refine ⟨(hswitched.ok.callFlush hcall (fun y g _ => ?_) ⟨_, rfl⟩).ok, hswitched.frame⟩
      simp [h.area.open_empty_switchBuffer hflush (some s) (c.bufId_lt y)]
  · cases (if_neg hneed).symm.trans hstep
    cases caller with
    | none =>
      cases hy
      exact ⟨h, none, refl c none _⟩
    | some s =>
      obtain ⟨st, hcall, rfl⟩ := map_eq_some_iff.mp hy
      have hback : (x.setStage s st).setCaller (some s) Stage.returnFlush =
          x.setStage s st.returnFlush := by
        show (x.setStage s st).setStage s ((x.setStage s st).sessions s).stage.returnFlush = _
        rw [setStage_setStage]
        simp [Ctx.setStage]
      rw [hback]
      refine h.returnFlush hcall fun y => ?_
      refine (h.session y).durable_of_sealed h.area (closing_of_flush_none hflush) fun g _ => ?_
      simp [h.area.open_empty_of_not_needFlush (Bool.eq_false_iff.mpr hneed) (c.bufId_lt y)]

lemma CtxOk.calls_of_flush {caller f f'} (hflush : x.flush = some ⟨caller, f⟩) (s : Nat)
    (b : List Nat) (hs : (x.sessions s).stage = .flushing b) :
    ∃ st, some (Flush.mk caller f') = some ⟨some s, st⟩ := by
  obtain ⟨st, hst⟩ := h.calls s b hs
  cases hflush.symm.trans hst
  exact ⟨f', rfl⟩

lemma CtxOk.logAssembleBuffer {i} (hstep : logAssembleBuffer x i = some x') : Moved c x x' := by
  unfold Log.logAssembleBuffer at hstep
  split at hstep
  case h_2 => cases hstep
  rename_i caller todo parts maxLsn hflush
  obtain ⟨hready, hstep⟩ := ite_none_right_eq_some.mp hstep
  obtain ⟨hi, hclear, hlock⟩ := hready
  split at hstep
  case isTrue =>
    cases hstep
    exact h.flushGoesOn (h.area.assemble hflush hi hclear hlock _)
     (assemble hflush hlock _ none) (h.calls_of_flush hflush)
  case isFalse hpos =>
    cases hstep
    have hlt := h.area.todoLt i (by simpa [Area.todo, hflush] using hi)
    have hempty := h.area.used i hlt _ (Nat.eq_zero_of_not_pos hpos)
    exact h.flushGoesOn (h.area.handled hflush ⟨hempty, hlock⟩ fun g hg => .inl hg)
      (assembleEmpty hflush none) (h.calls_of_flush hflush)

lemma CtxOk.logFlushToDisk (hstep : logFlushToDisk x = some x') : Moved c x x' := by
  unfold Log.logFlushToDisk at hstep
  split at hstep <;> cases hstep
  rename_i caller parts maxLsn hflush
  exact h.flushGoesOn (h.area.flushToDisk hflush) (flushToDisk hflush none)
   (h.calls_of_flush hflush)

end

lemma Stage.role_returnFlush (st : Stage) : st.returnFlush.role = st.role := by
  cases st <;> rfl

lemma Stage.returnFlush_ne (st : Stage) (b : List Nat) : st.returnFlush ≠ .flushing b := by
  cases st <;> nofun

section
variable (h : CtxOk c x)
include h

/-- What the flush has sealed is on disk at its end. -/
lemma CtxOk.endFlush (hclosing : x.closing = false) (s : Nat) :
    Moved c x (x.setStage s (x.sessions s).stage.returnFlush) := by
  have hstage := (h.session s).stage
  have hself := h.self s
  have hbatch := h.batch s
  have hrole := role_returnFlush (x.sessions s).stage
  refine h.setStage hrole ?_ ⟨?_, ?_, fun b hb => absurd hb (returnFlush_ne _ b)⟩
  · cases hst : (x.sessions s).stage <;> simp only [StageOk, hst] at hstage <;> exact hstage
  · cases hst : (x.sessions s).stage <;> rw [hst] at hself
    case flushing b => exact (h.session s).durable_of_sealed h.area hclosing hself
    all_goals exact hself
  · intro e b hb y hy
    rw [hrole] at hb
    have hcov := hbatch e b hb y hy
    cases hst : (x.sessions s).stage <;> rw [hst] at hcov
    case flushing b => exact (h.session y).durable_of_sealed h.area hclosing hcov
    all_goals exact hcov

lemma CtxOk.logFlushEnd (hstep : logFlushEnd c x = some x') : Moved c x x' := by
  unfold Log.logFlushEnd at hstep
  split at hstep
  case h_2 => cases hstep
  rename_i caller b hflush
  obtain ⟨-, ⟨⟩⟩ := ite_none_right_eq_some.mp hstep
  cases caller with
  | none =>
    refine h.flushGoesOn (h.area.flushEnd hflush) (flushEnd hflush none) fun s b hs => ?_
    obtain ⟨st, hst⟩ := h.calls s b hs
    cases hflush.symm.trans hst
  | some s =>
    have hend := (h.endFlush (by simp [closing, hflush]) s).ok
    have hframe := flushEnd (c := c) hflush none
    refine ⟨(hend.flushGoesOn (h.area.flushEnd hflush) hframe fun t b ht => ?_).ok, none, hframe⟩
    obtain ⟨st, hst⟩ := hend.calls t b ht
    cases hflush.symm.trans hst
    rw [Ctx.setStage, Ctx.setSession_self] at ht
    exact absurd ht (returnFlush_ne _ b)

lemma CtxOk.logCommit (hstep : logCommit x s = some x') : Moved c x x' := by
  have hmain : (x.sessions s).stage.role = .outside →
     (if (x.sessions s).currLfn ≤ x.flushedLfn then some (x.setStage s .committed)
      else some (x.setStage s .entering)) = some x' → Moved c x x' := by
    intro hold hx
    split at hx
    case isTrue hle =>
      cases hx
      refine h.setOutside hold rfl fun g hg => ?_
      by_contra hdisk
      have hlt := h.area.lfn_lt (c.bufId_lt s) ((h.session s).located g hg) hdisk
      have := (h.session s).writtenLfn g hg
      have := h.area.flushedLe
      omega
    case isFalse =>
      cases hx
      exact h.setOutside hold rfl trivial
  unfold Log.logCommit at hstep
  split at hstep
  case h_1 hst => exact hmain (by rw [hst]; rfl) hstep
  case h_2 hst => exact hmain (by rw [hst]; rfl) hstep
  case h_3 => cases hstep

lemma CtxOk.logCommitEnque (hstep : logCommitEnque x s = some x') : Moved c x x' := by
  unfold Log.logCommitEnque at hstep
  split at hstep <;> cases hstep
  rename_i hst
  have hold : (x.sessions s).stage.role = .outside := by rw [hst]; rfl
  exact h.commitSelf (v := { x.sessions s with stage := .waiting, progress := .pending }) rfl rfl
    (fun hp => nomatch hp) (h.queue.join hold) (.of_not_leads nofun)

lemma CtxOk.logCommitTryLock (hstep : logCommitTryLock x s = some x') : Moved c x x' := by
  have hsame : update (fun y => (x.sessions y).progress.mark) s
     (x.sessions s).progress.mark = fun y => (x.sessions y).progress.mark :=
    update_eq_self s fun y => (x.sessions y).progress.mark
  unfold Log.logCommitTryLock at hstep
  split at hstep
  case h_1 hst hp =>
    cases hstep
    refine h.commitSelf (v := { x.sessions s with stage := .committed }) rfl rfl (h.stage hst hp) ?_
      (.of_not_leads nofun)
    rw [hsame]
    exact h.queue.leave (by rw [hp]; rfl)
  case h_2 hst hp =>
    obtain ⟨hlock, ⟨⟩⟩ := ite_none_right_eq_some.mp hstep
    have hq := h.queue
    rw [hlock] at hq
    refine h.commitSelf (v := { x.sessions s with stage := .electing }) rfl rfl trivial ?_
      (.of_not_leads nofun)
    rw [hsame]
    exact hq.elect (by rw [hst]; rfl) (by rw [hp]; rfl)
  case h_3 => cases hstep

end

/-- `log_set_commit_progress` leaves the rest of a session alone. -/
lemma setCommitProgress_eq (sessions : Nat → Session) (b : List Nat) (p : Progress) (y : Nat) :
    ∃ q, setCommitProgress sessions b p y = { sessions y with progress := q } := by
  unfold setCommitProgress
  split
  · exact ⟨p, rfl⟩
  · exact ⟨(sessions y).progress, rfl⟩

/-- The progress of other sessions changes only what a completed one knows. -/
lemma StageOk.setCommitProgress {c sessions y p} (b : List Nat) (h : StageOk c a y (sessions y))
    (hp : p = .completed → y ∈ b → a.Durable (sessions y)) :
    StageOk c a y (setCommitProgress sessions b p y) := by
  unfold Log.setCommitProgress
  split
  case isFalse => exact h
  case isTrue hy =>
    cases hst : (sessions y).stage <;> simp only [StageOk, hst] at h ⊢ <;> try exact h
    exact fun hc => hp hc hy

section
variable (h : CtxOk c x)
include h

lemma CtxOk.knows (hst : (x.sessions s).stage = st) : Knows c x s st :=
  hst ▸ ⟨h.self s, h.batch s, h.calls s⟩

/-- A leader changes the progress of a batch, and its own stage. -/
lemma CtxOk.commitBatch {b txQueue p}
    (hstage : StageOk c x.toArea s { setCommitProgress x.sessions b p s with stage := st })
    (hdurable : p = .completed → ∀ y ∈ b, x.Durable (x.sessions y))
    (hqueue : LeaderQueue.Ok (update (fun y => (x.sessions y).stage.role) s st.role)
      (fun y => if y ∈ b then p.mark else (x.sessions y).progress.mark) txQueue x.commitLock)
    (hknows : Knows c x s st) : Moved c x ({ x with
      sessions := setCommitProgress x.sessions b p
      txQueue := txQueue }.setStage s st) := by
  have hne : ∀ y ≠ s, update (setCommitProgress x.sessions b p) s
     { setCommitProgress x.sessions b p s with stage := st } y =
        setCommitProgress x.sessions b p y :=
    fun y hy => update_of_ne hy _ _
  obtain ⟨r, hs⟩ := setCommitProgress_eq x.sessions b p s
  apply h.commit (s := s)
  · simp [hs]
  · simp [hs]
  · intro y hy
    obtain ⟨q, hq⟩ := setCommitProgress_eq x.sessions b p y
    exact ⟨q, (hne y hy).trans hq⟩
  · intro y
    rcases eq_or_ne y s with rfl | hy
    · simpa using hstage
    · simp only [hne y hy]
      exact (h.session y).stage.setCommitProgress b fun hp => hdurable hp y
  · convert hqueue using 1
    · refine (comp_update (·.stage.role) (setCommitProgress x.sessions b p) s _).trans ?_
      congr 1
      funext y
      obtain ⟨q, hq⟩ := setCommitProgress_eq x.sessions b p y
      simp [hq]
    · refine (comp_update (·.progress.mark) (setCommitProgress x.sessions b p) s _).trans ?_
      refine (update_eq_self s _).trans (funext fun y => ?_)
      simp only [comp_def, setCommitProgress]
      split <;> rfl
  · simpa using hknows

lemma CtxOk.takeQueue (hstep : takeQueue x s = some x') : Moved c x x' := by
  unfold Log.takeQueue at hstep
  split at hstep <;> cases hstep
  rename_i hst
  exact h.commitBatch trivial nofun (h.queue.take (by rw [hst]; rfl))
    ⟨trivial, fun _ _ _ _ _ => trivial, nofun⟩

lemma CtxOk.unlockCommit (hstep : unlockCommit x s = some x') : Moved c x x' := by
  unfold Log.unlockCommit at hstep
  split at hstep <;> cases hstep
  rename_i b hst
  obtain ⟨hself, hbatch, -⟩ := h.knows hst
  refine h.commitSelf (v := { x.sessions s with stage := .completing b }) rfl rfl trivial ?_
    ⟨hself, fun e b' hb => ?_, nofun⟩
  · rw [update_eq_self s fun y => (x.sessions y).progress.mark]
    have hrole : (x.sessions s).stage.role = .leads true ([] ++ b) := by rw [hst]; rfl
    have hserve := h.queue.serve hrole
    simp only [not_mem_nil, if_false, if_true] at hserve
    exact hserve
  · cases hb
    exact hbatch true b rfl

lemma CtxOk.completeNext (hstep : completeNext x s = some x') : Moved c x x' := by
  unfold Log.completeNext at hstep
  split at hstep
  case h_1 y b hst =>
    cases hstep
    obtain ⟨hself, hbatch, -⟩ := h.knows hst
    have hbatch := hbatch false (y :: b) rfl
    have hrole : (x.sessions s).stage.role = .leads false ([y] ++ b) := by rw [hst]; rfl
    refine h.commitBatch trivial (fun _ z hz => ?_) (h.queue.serve hrole)
      ⟨hself, fun e b' hb z hz => ?_, nofun⟩
    · rw [mem_singleton.mp hz]
      exact hbatch y mem_cons_self
    · cases hb
      exact hbatch z (mem_cons_of_mem y hz)
  case h_2 hst =>
    cases hstep
    refine h.commitSelf (v := { x.sessions s with stage := .committed }) rfl rfl (h.knows hst).self
      ?_ (.of_not_leads nofun)
    rw [update_eq_self s fun y => (x.sessions y).progress.mark]
    exact h.queue.retire (by rw [hst]; rfl)
  case h_3 => cases hstep

lemma CtxOk.step {action} (hstep : logStep c x action = some x') : Moved c x x' := by
  cases action with
  | atomicOpEnd => exact h.atomicOpEnd hstep
  | writeTryLock => exact h.logWriteTryLock hstep
  | write => exact h.logWrite hstep
  | copy => exact h.logCopy hstep
  | flush => exact h.logFlush hstep
  | assemble => exact h.logAssembleBuffer hstep
  | flushToDisk => exact h.logFlushToDisk hstep
  | flushEnd => exact h.logFlushEnd hstep
  | commit => exact h.logCommit hstep
  | commitEnque => exact h.logCommitEnque hstep
  | commitTryLock => exact h.logCommitTryLock hstep
  | takeQueue => exact h.takeQueue hstep
  | unlockCommit => exact h.unlockCommit hstep
  | completeNext => exact h.completeNext hstep

end

end

lemma AreaOk.fresh {c} {x : Ctx} (h : x.Fresh) : AreaOk c x.toArea where
  nextLfn := by simp [closing, h.flush, h.wid, h.bufLfn₀]
  closingLfn := by simp [closing, h.flush]
  flushedLe := by simp [h.flushedLfn]
  writtenLfn := by simp [h.flush]
  groupLfn := by simp [h.bufs]
  groupCopy := by simp [h.bufs]
  used := by simp [h.bufs]
  todoLt := by simp [todo, h.flush]
  drained := by simp [h.bufs]
  partsOk := by simp [parts, h.flush]
  diskOk := by simp [h.disk]

lemma CtxOk.fresh {c : Config} {x : Ctx} (h : x.Fresh) : CtxOk c x where
  area := AreaOk.fresh h
  session s := by
    rw [h.sessions s]
    exact
      { seen := Nat.zero_le _
        own := by simp
        writtenLfn := by simp
        writtenLsn := by simp
        located := by simp
        stage := trivial }
  queue := by
    rw [h.txQueue]
    exact .init fun s => by simp [h.sessions, role]
  self s := covered_of_not_leads (by simp [h.sessions, role])
  batch s e b hs := by simp [h.sessions, role] at hs
  calls s b hs := by simp [h.sessions] at hs

lemma CtxOk.of_reachable {c x} (h : Lib.Reachable (logStep c) Ctx.Fresh x) : CtxOk c x :=
  h.invariant (fun _ hf => CtxOk.fresh hf) fun _ _ _ _ hs hstep => (hs.step hstep).ok

/-- In every interleaving, a batch on disk holds its groups whole and has the lfn that
their sessions saw when they wrote them; and when `log_commit` has returned, every
group that the session has written is in a batch on disk. -/
theorem commit_is_durable {c : Config} {x : Ctx} (h : Lib.Reachable (logStep c) Ctx.Fresh x) :
    (∀ b ∈ x.disk, ∀ g ∈ b.groups, b.lfn = g.lfn ∧ g ∈ x.copied) ∧
    ∀ s, (x.sessions s).stage = .committed →
      ∀ g ∈ (x.sessions s).written, ∃ b ∈ x.disk, g ∈ b.groups := by
  have hok := CtxOk.of_reachable h
  constructor
  · intro b hb g hg
    obtain ⟨hlfn, hcopied⟩ := hok.area.diskOk b hb g hg
    exact ⟨hlfn.symm, hcopied⟩
  · intro s hs
    have hstage := (hok.session s).stage
    simp only [StageOk, hs] at hstage
    exact hstage

def twoBuffers : Config :=
  { bufCount := 2, bufSize := 100, groupHead := 8, dbs := true, bufCount_pos := by decide }

def started (lfn : Nat) : Ctx where
  bufs _ _ := {}
  wid := false
  bufLfn set := if set then lfn + 2 else lfn + 1
  lsn := 0
  lfn := lfn
  flushedLfn := 0
  flushedLsn := 0
  flush := none
  disk := []
  copied := []
  sessions _ := {}
  txQueue := []
  commitLock := none

lemma started_fresh (lfn : Nat) : (started lfn).Fresh := by
  constructor <;> intros <;> rfl

/-- Session 0 flushes for session 1. -/
theorem commit_is_durable_two_sessions : ∃ x : Ctx,
    x.disk = [⟨8, 2, [⟨1, 30, 2, 8⟩, ⟨0, 20, 1, 8⟩]⟩] ∧ (x.sessions 1).stage = .committed ∧
    ∀ g ∈ (x.sessions 1).written, ∃ b ∈ x.disk, g ∈ b.groups := by
  obtain ⟨x, hrun, hx⟩ := Lib.exists_of_run_map (logStep twoBuffers) (started 7)
    [.atomicOpEnd 0 20 true, .writeTryLock 0, .write 0, .copy 0,
      .atomicOpEnd 1 30 true, .writeTryLock 1, .write 1, .copy 1,
      .commit 0, .commitEnque 0, .commit 1, .commitEnque 1, .commitTryLock 0, .takeQueue 0,
      .flush (some 0), .assemble 1, .assemble 0, .flushToDisk, .flushEnd, .unlockCommit 0,
      .completeNext 0, .completeNext 0, .commitTryLock 1]
    (fun x => (x.disk, (x.sessions 1).stage))
    ([⟨8, 2, [⟨1, 30, 2, 8⟩, ⟨0, 20, 1, 8⟩]⟩], .committed) (by decide +kernel)
  obtain ⟨hdisk, hstage⟩ := Prod.mk.inj hx
  have hreach : Lib.Reachable (logStep twoBuffers) Ctx.Fresh x :=
    .of_run _ (.init (started_fresh 7)) hrun
  exact ⟨x, hdisk, hstage, (commit_is_durable hreach).2 1 hstage⟩

end Cantian.Log
