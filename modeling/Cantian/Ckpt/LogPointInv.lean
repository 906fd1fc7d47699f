import Cantian.Log.Steps
import Cantian.Ckpt.LogPoint

/-!
# A change on its way to the disk

The invariant follows a change from the buffer to the disk. Until its redo
group is placed, the page is read-only. From then on the change is on disk,
in a copy that the checkpoint is about to write, or the page is in the
queue with a truncate point before the group. The steps of the log and of
the atomic operations keep it.
-/

namespace Cantian.Ckpt.LogPoint

open Function Lib List

def Op.dirtyPages : Op → List Nat
  | .running _ dirty _ => dirty
  | _ => []

def Op.changedPages : Op → List Nat
  | .running _ _ changed | .enqueued _ changed | .logging changed => changed
  | .none => []

/-- The operation of session `s` has a redo group that is not yet placed. -/
def Sys.Pending (c : Config) (z : Sys) (s : Nat) : Prop :=
  match z.op s with
  | .none => False
  | .running size _ _ | .enqueued size _ => c.log.groupHead < size
  | .logging _ => (z.log.sessions s).stage.inWrite = true

/-- Where the log has a session, by the state of its operation. -/
def LogStageOk (o : Op) (st : Log.Stage) : Prop :=
  match o with
  | .none => st.inWrite = false
  | .running _ _ _ | .enqueued _ _ => st.atRest = true
  | .logging _ => True

/-- Operations and the pages that they have changed. -/
structure OpsOk (c : Config) (z : Sys) : Prop where
  image : ∀ p, (z.ctrl p).image = z.history p
  logStage : ∀ s, LogStageOk (z.op s) (z.log.sessions s).stage
  readonly : ∀ p s, (z.ctrl p).readonly = some s ↔ p ∈ (z.op s).changedPages
  changedNodup : ∀ s, (z.op s).changedPages.Nodup
  dirtyNodup : ∀ s, (z.op s).dirtyPages.Nodup
  dirty : ∀ s, ∀ p ∈ (z.op s).dirtyPages, p ∈ (z.op s).changedPages
  changed : ∀ s, ∀ p ∈ (z.op s).changedPages,
    p ∈ (z.op s).dirtyPages ∨ (z.ctrl p).inCkpt = true
  isDirty : ∀ p, (z.ctrl p).isDirty = true →
    (∃ s, p ∈ (z.op s).dirtyPages) ∨ (z.ctrl p).inCkpt = true
  owned : ∀ p, ∀ ch ∈ z.history p, (∃ g, z.groupOf ch = some g) ∨
    (z.ctrl p).readonly = some ch.session ∧ z.Pending c ch.session ∧
      ch.index = (z.log.sessions ch.session).written.length

/-- The checkpoint queue is ordered by truncate point. -/
structure QueueOk (ctrl : Nat → Ctrl) (queue : List Nat) (truncPoint : Nat) : Prop where
  inCkpt : ∀ p, p ∈ queue ↔ (ctrl p).inCkpt = true
  nodup : queue.Nodup
  sorted : queue.Pairwise fun p q => (ctrl p).truncPoint ≤ (ctrl q).truncPoint
  pageLe : ∀ p ∈ queue, (ctrl p).truncPoint ≤ truncPoint

/-- No point is beyond the last batch. -/
structure PointsLe (z : Sys) : Prop where
  trunc : z.truncPoint ≤ z.log.lfn
  curr : z.currPoint ≤ z.log.lfn
  lrp : z.lrpPoint ≤ z.log.lfn
  rcy : z.rcyPoint ≤ z.log.lfn
  saved : z.savedPoint ≤ z.log.lfn

/-- What is known of the group of a copied change, by the stage of the round. -/
def Round.Knows (c : Config) (r : Round) (a : Log.Area) (g : Log.Group) : Prop :=
  match r with
  | .flushing _ => g ∉ (a.bufs (c.log.bufId g.session) a.wid).groups
  | .writing _ => a.OnDisk g
  | _ => True

/-- Copies, the disk, and what is missing there. -/
structure DiskOk (c : Config) (z : Sys) : Prop where
  marked : ∀ p, (z.ctrl p).isMarked = true ↔ p ∈ z.round.items.map Prod.fst
  nodup : (z.round.items.map Prod.fst).Nodup
  cleanItem : ∀ p img, (p, img) ∈ z.round.items → (z.ctrl p).isDirty = false →
    img = z.history p
  cleanDisk : ∀ p, (z.ctrl p).isDirty = false → (z.ctrl p).isMarked = false →
    z.disk p = z.history p
  diskSub : ∀ p, ∀ ch ∈ z.disk p, ch ∈ z.history p
  itemSub : ∀ p img, (p, img) ∈ z.round.items → ∀ ch ∈ img, ch ∈ z.history p
  itemWhole : ∀ p img, (p, img) ∈ z.round.items → ∀ ch ∈ z.disk p, ch ∈ img
  itemLogged : ∀ p img, (p, img) ∈ z.round.items → ∀ ch ∈ img,
    ∃ g, z.groupOf ch = some g ∧ z.round.Knows c z.log.toArea g
  diskLogged : ∀ p, ∀ ch ∈ z.disk p, ∃ g, z.groupOf ch = some g ∧ z.log.OnDisk g
  covered : ∀ p ch g, ch ∈ z.history p → z.groupOf ch = some g →
    ch ∈ z.disk p ∨ (∃ img, (p, img) ∈ z.round.items ∧ ch ∈ img) ∨
      (z.ctrl p).inCkpt = true ∧ (z.ctrl p).truncPoint < g.lfn

/-- Every change that is missing on disk has its group in a batch after `point`. -/
def Sys.Safe (z : Sys) (point : Nat) : Prop :=
  ∀ p ch g, ch ∈ z.history p → ch ∉ z.disk p → z.groupOf ch = some g → point < g.lfn

/-- What `ckpt_update_log_point` relies on after it has read the count of the queue. -/
def PointOk (r : Round) (queue : List Nat) (lrpSafe : Prop) : Prop :=
  match r with
  | .counted false _ => queue ≠ []
  | .counted true _ => lrpSafe
  | _ => True

variable {r : Round} {queue : List Nat}

lemma PointOk.imp {queue' safe safe'} (h : PointOk r queue safe) (hqueue : queue ≠ [] → queue' ≠ [])
    (hsafe : safe → safe') : PointOk r queue' safe' := by
  unfold PointOk at h ⊢
  split at h
  · exact hqueue h
  · exact hsafe h
  · trivial

structure SysOk (c : Config) (z : Sys) : Prop where
  log : Log.CtxOk c.log z.log
  ops : OpsOk c z
  queue : QueueOk z.ctrl z.queue z.truncPoint
  points : PointsLe z
  disk : DiskOk c z
  rcy : z.Safe z.rcyPoint
  saved : z.Safe z.savedPoint
  point : PointOk z.round z.queue (z.Safe z.lrpPoint)

/-! ## Moves of the log -/

/-- How the log moves under the checkpoint: each session keeps its groups or places the
one of its operation. -/
structure LogMoves (c : Config) (z : Sys) (x : Log.Ctx) : Prop where
  ok : Log.CtxOk c.log x
  frame : ∃ who, Log.Frame c.log who z.log.toArea x.toArea
  session : ∀ s, (x.sessions s).written = (z.log.sessions s).written ∨
    Log.Places z.log.lfn (z.log.sessions s) (x.sessions s)

variable {g : Log.Group} {op : Nat → Op} {ctrl : Nat → Ctrl}

variable {ch : Change}

section
variable {c : Config} {z : Sys} {x : Log.Ctx}

lemma LogMoves.groupOf (hx : LogMoves c z x) (h : z.groupOf ch = some g) :
    { z with log := x }.groupOf ch = some g := by
  simp only [Sys.groupOf] at h ⊢
  rcases hx.session ch.session with hw | ⟨_, _, g', hw, _⟩
  · rw [hw]
    exact h
  · rw [hw, List.getElem?_append_left (List.getElem?_eq_some_iff.mp h).1]
    exact h

/-- A group that gets its place is that of a running operation, and its lfn is new. -/
lemma LogMoves.groupOf_cases (hx : LogMoves c z x) (h : { z with log := x }.groupOf ch = some g) :
    z.groupOf ch = some g ∨
      z.groupOf ch = none ∧ Log.Places z.log.lfn (z.log.sessions ch.session)
        (x.sessions ch.session) ∧ z.log.lfn < g.lfn := by
  simp only [Sys.groupOf] at h ⊢
  rcases hx.session ch.session with hw | hp
  · rw [hw] at h
    exact .inl h
  obtain ⟨_, _, g', hw, hlfn⟩ := id hp
  rw [hw] at h
  by_cases hlt : ch.index < (z.log.sessions ch.session).written.length
  · rw [getElem?_append_left hlt] at h
    exact .inl h
  · rw [getElem?_append_right (by omega)] at h
    have hnone : (z.log.sessions ch.session).written[ch.index]? = none :=
      getElem?_eq_none (by omega)
    have hg : g = g' := by
      have := mem_of_getElem? h
      simpa using this
    exact .inr ⟨hnone, hp, hg ▸ hlfn⟩

/-- An operation that is about to place its group has put its pages in the queue. -/
lemma SysOk.covered_of_places (h : SysOk c z) {p} (hch : ch ∈ z.history p)
    (hnone : z.groupOf ch = none) (hwrite : (z.log.sessions ch.session).stage.inWrite = true) :
    (z.ctrl p).inCkpt = true ∧ (z.ctrl p).truncPoint ≤ z.log.lfn := by
  rcases h.ops.owned p ch hch with ⟨g, hg⟩ | ⟨hro, _, _⟩
  · cases hnone.symm.trans hg
  have hmem := (h.ops.readonly p ch.session).mp hro
  have hstage := h.ops.logStage ch.session
  have hckpt : (z.ctrl p).inCkpt = true := by
    rcases h.ops.changed ch.session p hmem with hd | hc
    · cases hop : z.op ch.session <;> rw [hop] at hd hstage
      case running =>
        cases hst : (z.log.sessions ch.session).stage <;>
          simp_all [LogStageOk, Log.Stage.atRest, Log.Stage.inWrite]
      all_goals simp [Op.dirtyPages] at hd
    · exact hc
  have hq := (h.queue.inCkpt p).mpr hckpt
  exact ⟨hckpt, Nat.le_trans (h.queue.pageLe p hq) h.points.trunc⟩

/-- A point that is safe stays so when a group gets its place. -/
lemma Sys.Safe.logMoved {point} (h : z.Safe point) (hle : point ≤ z.log.lfn) (hx : LogMoves c z x) :
    { z with log := x }.Safe point := by
  intro p ch g hch hdisk hg
  rcases hx.groupOf_cases hg with hold | ⟨_, _, hlfn⟩
  · exact h p ch g hch hdisk hold
  · exact Nat.lt_of_le_of_lt hle hlfn

/-- Operations go on without touching a page, and the log may move. -/
lemma OpsOk.congr (h : OpsOk c z) (hc : ∀ t, (op t).changedPages = (z.op t).changedPages)
    (hd : ∀ t, (op t).dirtyPages = (z.op t).dirtyPages)
    (hstage : ∀ t, LogStageOk (op t) (x.sessions t).stage)
    (hgroup : ∀ ch g, z.groupOf ch = some g → { z with log := x }.groupOf ch = some g)
    (hpend : ∀ ch : Change, z.Pending c ch.session →
      ch.index = (z.log.sessions ch.session).written.length →
      (∃ g, { z with log := x }.groupOf ch = some g) ∨
        { z with log := x, op := op }.Pending c ch.session ∧
          (x.sessions ch.session).written = (z.log.sessions ch.session).written) :
    OpsOk c { z with log := x, op := op } where
  image := h.image
  logStage := hstage
  readonly q t := by rw [hc]; exact h.readonly q t
  changedNodup t := by rw [hc]; exact h.changedNodup t
  dirtyNodup t := by rw [hd]; exact h.dirtyNodup t
  dirty t := by rw [hc, hd]; exact h.dirty t
  changed t := by rw [hc, hd]; exact h.changed t
  isDirty q hq := by simp only [hd]; exact h.isDirty q hq
  owned q ch hch := by
    rcases h.owned q ch hch with ⟨g, hg⟩ | ⟨hro, hp, hidx⟩
    · exact .inl ⟨g, hgroup ch g hg⟩
    · exact (hpend ch hp hidx).imp id fun ⟨hp, hw⟩ => ⟨hro, hp, hidx.trans (by rw [hw])⟩

lemma OpsOk.logMoved (h : OpsOk c z) (hx : LogMoves c z x)
    (hwrite : ∀ s, (x.sessions s).stage.inWrite = (z.log.sessions s).stage.inWrite ∨
      Log.Places z.log.lfn (z.log.sessions s) (x.sessions s))
    (hstage : ∀ s, LogStageOk (z.op s) (x.sessions s).stage) : OpsOk c { z with log := x } := by
  refine h.congr (fun _ => rfl) (fun _ => rfl) hstage (fun _ _ => hx.groupOf) ?_
  intro ch hpend hidx
  have hplaced : Log.Places z.log.lfn (z.log.sessions ch.session) (x.sessions ch.session) →
      ∃ g, { z with log := x }.groupOf ch = some g := by
    intro ⟨_, _, g, hw, _⟩
    exact ⟨g, by simp [Sys.groupOf, hw, hidx]⟩
  rcases hx.session ch.session with hw | hp
  · rcases hwrite ch.session with hi | hp
    · refine .inr ⟨?_, hw⟩
      simp only [Sys.Pending] at hpend ⊢
      cases hop : z.op ch.session <;> simp only [hop, hi] at hpend ⊢ <;> exact hpend
    · exact .inl (hplaced hp)
  · exact .inl (hplaced hp)

lemma Round.Knows.moved {a a' who} (h : r.Knows c a g) (hf : Log.Frame c.log who a a')
    (hlsn : g.lsn ≤ a.lsn) : r.Knows c a' g := by
  cases r with
  | flushing => exact hf.unopened _ (c.log.bufId_lt _) g hlsn h
  | writing => exact hf.disk g h
  | _ => trivial

lemma SysOk.groupOf_lsn (h : SysOk c z) (hg : z.groupOf ch = some g) : g.lsn ≤ z.log.lsn :=
  (h.log.session ch.session).writtenLsn g (mem_of_getElem? hg)

lemma SysOk.logMoved (h : SysOk c z) (hx : LogMoves c z x)
    (hops : OpsOk c { z with log := x, op := op }) : SysOk c { z with log := x, op := op } := by
  obtain ⟨who, hframe⟩ := hx.frame
  exact
    { log := hx.ok
      ops := hops
      queue := h.queue
      points :=
        { trunc := Nat.le_trans h.points.trunc hframe.lfn
          curr := Nat.le_trans h.points.curr hframe.lfn
          lrp := Nat.le_trans h.points.lrp hframe.lfn
          rcy := Nat.le_trans h.points.rcy hframe.lfn
          saved := Nat.le_trans h.points.saved hframe.lfn }
      disk :=
        { h.disk with
          itemLogged := by
            intro p img hitem ch hch
            obtain ⟨g, hg, hknows⟩ := h.disk.itemLogged p img hitem ch hch
            exact ⟨g, hx.groupOf hg, hknows.moved hframe (h.groupOf_lsn hg)⟩
          diskLogged := by
            intro p ch hch
            obtain ⟨g, hg, hdisk⟩ := h.disk.diskLogged p ch hch
            exact ⟨g, hx.groupOf hg, hframe.disk g hdisk⟩
          covered := by
            intro p ch g hch hg
            rcases hx.groupOf_cases hg with hold | ⟨hnone, hplaces, hlfn⟩
            · exact h.disk.covered p ch g hch hold
            · obtain ⟨hckpt, hle⟩ := h.covered_of_places hch hnone hplaces.1
              exact .inr (.inr ⟨hckpt, Nat.lt_of_le_of_lt hle hlfn⟩) }
      rcy := h.rcy.logMoved h.points.rcy hx
      saved := h.saved.logMoved h.points.saved hx
      point := h.point.imp id fun hs => hs.logMoved h.points.lrp hx }

end

lemma QueueOk.congr {ctrl' truncPoint} (h : QueueOk ctrl queue truncPoint)
    (hin : ∀ p, (ctrl' p).inCkpt = (ctrl p).inCkpt)
    (htrunc : ∀ p, (ctrl' p).truncPoint = (ctrl p).truncPoint) :
    QueueOk ctrl' queue truncPoint where
  inCkpt p := by rw [hin]; exact h.inCkpt p
  nodup := h.nodup
  sorted := by simp only [htrunc]; exact h.sorted
  pageLe p := by rw [htrunc]; exact h.pageLe p

/-- Two control blocks that differ in the image and the read-only flag only. -/
def SameFlags (b b' : Ctrl) : Prop :=
  b'.isDirty = b.isDirty ∧ b'.isMarked = b.isMarked ∧ b'.inCkpt = b.inCkpt ∧
    b'.truncPoint = b.truncPoint

lemma SameFlags.update {p b} (h : SameFlags (ctrl p) b) :
    ∀ q, SameFlags (ctrl q) (update ctrl p b q) :=
  (forall_update_iff ctrl fun q b => SameFlags (ctrl q) b).mpr
    ⟨h, fun _ _ => ⟨rfl, rfl, rfl, rfl⟩⟩

lemma DiskOk.congr {c z} (h : DiskOk c z) (hdirty : ∀ p, (ctrl p).isDirty = (z.ctrl p).isDirty)
    (hmarked : ∀ p, (ctrl p).isMarked = (z.ctrl p).isMarked)
    (hckpt : ∀ p n, (z.ctrl p).inCkpt = true ∧ (z.ctrl p).truncPoint < n →
      (ctrl p).inCkpt = true ∧ (ctrl p).truncPoint < n) :
    DiskOk c { z with ctrl := ctrl, op := op, queue := queue } :=
  { h with
    marked := fun p => by simp only [hmarked]; exact h.marked p
    cleanItem := fun p img => by simp only [hdirty]; exact h.cleanItem p img
    cleanDisk := fun p => by simp only [hdirty, hmarked]; exact h.cleanDisk p
    covered := fun p ch g hch hg =>
      (h.covered p ch g hch hg).imp id fun hc => hc.imp id (hckpt p g.lfn) }

lemma SysOk.sameFlags {c z} (h : SysOk c z) (hflags : ∀ p, SameFlags (z.ctrl p) (ctrl p))
    (hops : OpsOk c { z with ctrl := ctrl, op := op }) :
    SysOk c { z with ctrl := ctrl, op := op } :=
  { log := h.log
    ops := hops
    queue := h.queue.congr (fun p => (hflags p).2.2.1) fun p => (hflags p).2.2.2
    points := { h.points with trunc := h.points.trunc }
    disk := h.disk.congr (fun p => (hflags p).1) (fun p => (hflags p).2.1) fun p n => by
      simp only [(hflags p).2.2.1, (hflags p).2.2.2]
      exact id
    rcy := h.rcy
    saved := h.saved
    point := h.point }

lemma DiskOk.setRound {c z} (h : DiskOk c z) (hitems : r.items = z.round.items)
    (hknows : ∀ ch g, z.groupOf ch = some g → z.round.Knows c z.log.toArea g →
      r.Knows c z.log.toArea g) (trunc curr lrp rcy : Nat) :
    DiskOk c { z with
      round := r
      truncPoint := trunc
      currPoint := curr
      lrpPoint := lrp
      rcyPoint := rcy } where
  marked p := by simp only [hitems]; exact h.marked p
  nodup := by simp only [hitems]; exact h.nodup
  cleanItem p img := by simp only [hitems]; exact h.cleanItem p img
  cleanDisk := h.cleanDisk
  diskSub := h.diskSub
  itemSub p img := by simp only [hitems]; exact h.itemSub p img
  itemWhole p img := by simp only [hitems]; exact h.itemWhole p img
  itemLogged := by
    intro p img hitem ch hch
    simp only [hitems] at hitem
    obtain ⟨g, hg, hk⟩ := h.itemLogged p img hitem ch hch
    exact ⟨g, hg, hknows ch g hg hk⟩
  diskLogged := h.diskLogged
  covered p ch g := by simp only [hitems]; exact h.covered p ch g

/-! ## Atomic operations -/

section
variable {c : Config} {z z' : Sys} {s p : Nat}

/-- The operation of `s` goes on, the others stay as they are. -/
lemma logStageOk_update (h : OpsOk c z) {o : Op} {sessions : Nat → Log.Session}
    (hs : LogStageOk o (sessions s).stage)
    (hother : ∀ t ≠ s, (sessions t).stage = (z.log.sessions t).stage) (t : Nat) :
    LogStageOk (update z.op s o t) (sessions t).stage := by
  rcases eq_or_ne t s with rfl | hts
  · rwa [update_self]
  · rw [update_of_ne hts, hother t hts]
    exact h.logStage t

lemma OpsOk.setOp (h : OpsOk c z) {o} (hchanged : o.changedPages = (z.op s).changedPages)
    (hdirty : o.dirtyPages = (z.op s).dirtyPages) (hstage : LogStageOk o (z.log.sessions s).stage)
    (hpending : z.Pending c s → (z.setOp s o).Pending c s) : OpsOk c (z.setOp s o) := by
  refine h.congr (apply_update_eq hchanged) (apply_update_eq hdirty)
    (logStageOk_update h hstage fun _ _ => rfl) (fun _ _ => id) fun ch hpend _ => .inr ⟨?_, rfl⟩
  by_cases hts : ch.session = s
  · rw [hts] at hpend ⊢
    exact hpending hpend
  · simpa [Sys.Pending, Sys.setOp, hts] using hpend

lemma SysOk.setOp (h : SysOk c z) {o} (hops : OpsOk c (z.setOp s o)) : SysOk c (z.setOp s o) :=
  h.sameFlags (fun _ => ⟨rfl, rfl, rfl, rfl⟩) hops

lemma SysOk.atomicOpBegin (h : SysOk c z) {size} (hstep : atomicOpBegin z s size = some z') :
    SysOk c z' := by
  unfold LogPoint.atomicOpBegin at hstep
  split at hstep
  case h_3 => cases hstep
  all_goals
    rename_i hop hst
    cases hstep
    refine h.setOp (h.ops.setOp (by rw [hop]; rfl) (by rw [hop]; rfl) (by rw [hst]; rfl) ?_)
    intro hpend
    simp [Sys.Pending, hop] at hpend

variable {dirty : List Nat} {new : List Change}

lemma OpsOk.leavePage (h : OpsOk c z) {size : Nat} {changed : List Nat}
    (hop : z.op s = .running size dirty changed) (hro : (z.ctrl p).readonly = none)
    (hnew : new = if c.log.groupHead < size then
      [⟨s, (z.log.sessions s).written.length⟩] else []) :
    OpsOk c { z with
      ctrl := update z.ctrl p
        { z.ctrl p with image := (z.ctrl p).image ++ new, isDirty := true, readonly := some s }
      history := update z.history p (z.history p ++ new)
      op := update z.op s
        (.running size (if (z.ctrl p).isDirty then dirty else dirty ++ [p])
          (changed ++ [p])) } := by
  have hfree : ∀ t, p ∉ (z.op t).changedPages := by
    intro t ht
    cases ((h.readonly p t).mpr ht).symm.trans hro
  have hmem : (z.ctrl p).isDirty = false ∨ (z.ctrl p).inCkpt = true := by
    cases hd : (z.ctrl p).isDirty with
    | false => exact .inl rfl
    | true =>
      rcases h.isDirty p hd with ⟨t, ht⟩ | hc
      · exact absurd (h.dirty t p ht) (hfree t)
      · exact .inr hc
  have hstage := h.logStage s
  have hcn := h.changedNodup s
  have hdn := h.dirtyNodup s
  have hpd : p ∉ (z.op s).dirtyPages := fun hp => hfree s (h.dirty s p hp)
  have hpc := hfree s
  rw [hop] at hstage hcn hdn hpd hpc
  generalize ho : Op.running size (if (z.ctrl p).isDirty then dirty else dirty ++ [p])
    (changed ++ [p]) = o
  have hC : ∀ t q, q ∈ (update z.op s o t).changedPages ↔
      q ∈ (z.op t).changedPages ∨ t = s ∧ q = p := by
    intro t q
    rcases eq_or_ne t s with rfl | hts
    · simp [← ho, hop, Op.changedPages]
    · simp [hts]
  have hD : ∀ t q, q ∈ (update z.op s o t).dirtyPages ↔
      q ∈ (z.op t).dirtyPages ∨ (t = s ∧ q = p) ∧ (z.ctrl p).isDirty = false := by
    intro t q
    rcases eq_or_ne t s with rfl | hts
    · cases hd : (z.ctrl p).isDirty <;> simp [← ho, hop, Op.dirtyPages, hd]
    · simp [hts]
  constructor
  case image =>
    intro q
    rcases eq_or_ne q p with rfl | hq
    · simp [h.image]
    · simpa [hq] using h.image q
  case logStage => exact logStageOk_update h (ho ▸ hstage) fun _ _ => rfl
  case readonly =>
    intro q t
    rw [hC]
    rcases eq_or_ne q p with rfl | hq
    · simp [hfree t, eq_comm]
    · simp [hq, h.readonly q t]
  case changedNodup =>
    refine (forall_update_iff z.op fun _ o => o.changedPages.Nodup).mpr
      ⟨?_, fun t _ => h.changedNodup t⟩
    simpa [← ho, Op.changedPages] using List.Nodup.concat hpc hcn
  case dirtyNodup =>
    refine (forall_update_iff z.op fun _ o => o.dirtyPages.Nodup).mpr
      ⟨?_, fun t _ => h.dirtyNodup t⟩
    simp only [← ho, Op.dirtyPages]
    split
    · exact hdn
    · simpa [Op.dirtyPages] using List.Nodup.concat hpd hdn
  case dirty => exact fun t q hq => (hC t q).mpr (((hD t q).mp hq).imp (h.dirty t q) And.left)
  case changed =>
    intro t q hq
    rw [hD]
    rcases (hC t q).mp hq with hq | ⟨rfl, rfl⟩
    · have hqp : q ≠ p := fun e => hfree t (e ▸ hq)
      simpa [hqp] using h.changed t q hq
    · simpa [or_assoc] using .inr hmem
  case isDirty =>
    intro q hd
    simp only [hD]
    rcases eq_or_ne q p with rfl | hq
    · exact hmem.imp (fun hf => ⟨s, .inr ⟨⟨rfl, rfl⟩, hf⟩⟩) (by simp)
    · simpa [hq] using h.isDirty q (by simpa [hq] using hd)
  case owned =>
    intro q ch hch
    rcases eq_or_ne q p with rfl | hq
    · simp only [update_self] at hch ⊢
      rcases mem_append.mp hch with hch | hch
      · rcases h.owned q ch hch with hg | ⟨hro', _⟩
        · exact .inl hg
        · cases hro.symm.trans hro'
      · rw [hnew] at hch
        split at hch
        case isTrue hlt =>
          rw [mem_singleton.mp hch]
          exact .inr ⟨rfl, by simpa [Sys.Pending, ← ho] using hlt, rfl⟩
        case isFalse => simp at hch
    · simp only [update_of_ne hq] at hch ⊢
      refine (h.owned q ch hch).imp id fun ⟨hro', hpend, hidx⟩ => ⟨hro', ?_, hidx⟩
      by_cases hts : ch.session = s
      · simpa [Sys.Pending, hts, hop, ← ho] using hpend
      · simpa [Sys.Pending, hts] using hpend

/-- Changes without a group join the history of a page. -/
lemma mem_history_of_groupOf (hnone : ∀ ch ∈ new, z.groupOf ch = none) {q}
    (hch : ch ∈ update z.history p (z.history p ++ new) q) (hg : z.groupOf ch = some g) :
    ch ∈ z.history q := by
  rcases eq_or_ne q p with rfl | hq
  · rw [update_self] at hch
    refine (mem_append.mp hch).resolve_right fun hch => ?_
    cases (hnone ch hch).symm.trans hg
  · rwa [update_of_ne hq] at hch

/-- The page that they are in becomes dirty. -/
lemma DiskOk.leavePage (h : DiskOk c z) {b} (hnone : ∀ ch ∈ new, z.groupOf ch = none)
    (hckpt : b.inCkpt = (z.ctrl p).inCkpt) (hmarked : b.isMarked = (z.ctrl p).isMarked)
    (hdirty : b.isDirty = true) (htrunc : b.truncPoint = (z.ctrl p).truncPoint) : DiskOk c { z with
      ctrl := update z.ctrl p b
      history := update z.history p (z.history p ++ new)
      op := op } := by
  have hsub : ∀ {q ch}, ch ∈ z.history q →
      ch ∈ update z.history p (z.history p ++ new) q := by
    intro q ch hch
    rcases eq_or_ne q p with rfl | hq
    · rw [update_self]
      exact mem_append_left _ hch
    · rwa [update_of_ne hq]
  exact
    { marked := by
        intro q
        by_cases hq : q = p
        · simpa [hq, hmarked] using h.marked p
        · simpa [hq] using h.marked q
      nodup := h.nodup
      cleanItem := by
        intro q img hitem hclean
        by_cases hq : q = p
        · simp [hq, hdirty] at hclean
        · simp only [update_of_ne hq] at hclean ⊢
          exact h.cleanItem q img hitem hclean
      cleanDisk := by
        intro q hclean hunmarked
        by_cases hq : q = p
        · simp [hq, hdirty] at hclean
        · simp only [update_of_ne hq] at hclean hunmarked ⊢
          exact h.cleanDisk q hclean hunmarked
      diskSub := fun q ch hch => hsub (h.diskSub q ch hch)
      itemSub := fun q img hitem ch hch => hsub (h.itemSub q img hitem ch hch)
      itemWhole := h.itemWhole
      itemLogged := h.itemLogged
      diskLogged := h.diskLogged
      covered := by
        intro q ch g hch hg
        have hold := h.covered q ch g (mem_history_of_groupOf hnone hch hg) hg
        rcases eq_or_ne q p with rfl | hq
        · simpa [hckpt, htrunc] using hold
        · simpa [hq] using hold }

lemma Sys.Safe.leavePage {point} (h : z.Safe point) (hnone : ∀ ch ∈ new, z.groupOf ch = none) :
    Sys.Safe { z with
      ctrl := ctrl
      history := update z.history p (z.history p ++ new)
      op := op } point :=
  fun q ch g hch hdisk hg => h q ch g (mem_history_of_groupOf hnone hch hg) hdisk hg

lemma SysOk.leavePage (h : SysOk c z) (hstep : leavePage c z s p = some z') : SysOk c z' := by
  unfold LogPoint.leavePage at hstep
  split at hstep
  case h_2 => cases hstep
  rename_i size dirty changed hop
  simp only at hstep
  split at hstep
  case isFalse =>
    obtain ⟨-, ⟨⟩⟩ := Option.ite_none_right_eq_some.mp hstep
    exact h
  case isTrue hro =>
    cases hstep
    have hnone : ∀ ch ∈ (if c.log.groupHead < size then
        [(⟨s, (z.log.sessions s).written.length⟩ : Change)] else []), z.groupOf ch = none := by
      intro ch hch
      split at hch
      · rw [mem_singleton.mp hch]
        simp [Sys.groupOf]
      · simp at hch
    exact
      { log := h.log
        ops := h.ops.leavePage hop hro rfl
        queue := h.queue.congr (apply_update_eq rfl) (apply_update_eq rfl)
        points := { h.points with trunc := h.points.trunc }
        disk := h.disk.leavePage hnone rfl rfl rfl rfl
        rcy := h.rcy.leavePage hnone
        saved := h.saved.leavePage hnone
        point := h.point.imp id fun hs => hs.leavePage hnone }

lemma QueueOk.enque {truncPoint} (h : QueueOk ctrl queue truncPoint)
    (hnew : ∀ p ∈ dirty, (ctrl p).inCkpt = false) (hnodup : dirty.Nodup) :
    QueueOk (fun p => if p ∈ dirty then
      { ctrl p with truncPoint := truncPoint, inCkpt := true } else ctrl p)
      (queue ++ dirty) truncPoint := by
  have hold : ∀ p ∈ queue, p ∉ dirty := by
    intro p hq hd
    have := (h.inCkpt p).mp hq
    simp [hnew p hd] at this
  constructor
  case inCkpt =>
    intro p
    by_cases hd : p ∈ dirty
    · simp [hd]
    · simpa [hd] using h.inCkpt p
  case nodup =>
    rw [nodup_append]
    exact ⟨h.nodup, hnodup, fun p hp q hq e => hold p hp (e ▸ hq)⟩
  case sorted =>
    rw [pairwise_append]
    refine ⟨?_, ?_, ?_⟩
    · refine h.sorted.imp_of_mem fun {p q} hp hq hle => ?_
      simpa [hold p hp, hold q hq] using hle
    · refine List.Pairwise.imp_of_mem ?_ (pairwise_of_forall (fun _ _ => True.intro))
      intro p q hp hq _
      simp [hp, hq]
    · intro p hp q hq
      simpa [hold p hp, hq] using h.pageLe p hp
  case pageLe =>
    intro p hp
    by_cases hd : p ∈ dirty
    · simp [hd]
    · have hq : p ∈ queue := by simpa [hd] using hp
      simpa [hd] using h.pageLe p hq

lemma enque_ctrl (ctrl : Nat → Ctrl) (dirty : List Nat) (truncPoint p : Nat) :
    let b := if p ∈ dirty then { ctrl p with truncPoint := truncPoint, inCkpt := true }
      else ctrl p
    b.image = (ctrl p).image ∧ b.readonly = (ctrl p).readonly ∧
      b.isDirty = (ctrl p).isDirty ∧ b.isMarked = (ctrl p).isMarked ∧
      (b.inCkpt = true ↔ p ∈ dirty ∨ (ctrl p).inCkpt = true) := by
  split
  next hp => simp [hp]
  next hp => simp [hp]

lemma OpsOk.enque (h : OpsOk c z) {size changed} (hop : z.op s = .running size dirty changed) :
    OpsOk c { z with
      queue := z.queue ++ dirty
      ctrl := fun p => if p ∈ dirty then
        { z.ctrl p with truncPoint := z.truncPoint, inCkpt := true } else z.ctrl p
      op := update z.op s (.enqueued size changed) } := by
  have hchanged := apply_update_eq (g := z.op) (i := s) (b := .enqueued size changed)
    (f := Op.changedPages) (by rw [hop]; rfl)
  have hD : ∀ t q, q ∈ (update z.op s (.enqueued size changed) t).dirtyPages ↔
      q ∈ (z.op t).dirtyPages ∧ t ≠ s := by
    intro t q
    rcases eq_or_ne t s with rfl | hts
    · simp [Op.dirtyPages]
    · simp [hts]
  have hleft : ∀ {t q}, q ∈ (z.op t).dirtyPages →
      (q ∈ (z.op t).dirtyPages ∧ t ≠ s) ∨ q ∈ dirty ∨ (z.ctrl q).inCkpt = true := by
    intro t q hq
    rcases eq_or_ne t s with rfl | hts
    · rw [hop] at hq
      exact .inr (.inl hq)
    · exact .inl ⟨hq, hts⟩
  have hctrl := enque_ctrl z.ctrl dirty z.truncPoint
  have hstage := h.logStage s
  rw [hop] at hstage
  exact
    { image := fun p => (hctrl p).1.trans (h.image p)
      logStage := logStageOk_update h hstage fun _ _ => rfl
      readonly := fun p t => by
        simp only [(hctrl p).2.1, hchanged]
        exact h.readonly p t
      changedNodup := fun t => by
        simp only [hchanged]
        exact h.changedNodup t
      dirtyNodup := (forall_update_iff z.op fun _ o => o.dirtyPages.Nodup).mpr
        ⟨nodup_nil, fun t _ => h.dirtyNodup t⟩
      dirty := fun t p hp => by
        simp only [hchanged]
        exact h.dirty t p ((hD t p).mp hp).1
      changed := by
        intro t p hp
        simp only [hchanged] at hp
        simp only [hD, (hctrl p).2.2.2.2]
        exact (h.changed t p hp).elim hleft fun hin => .inr (.inr hin)
      isDirty := by
        intro p hp
        simp only [(hctrl p).2.2.1] at hp
        simp only [hD, (hctrl p).2.2.2.2]
        rcases h.isDirty p hp with ⟨t, ht⟩ | hin
        · exact (hleft ht).imp (fun ht => ⟨t, ht⟩) id
        · exact .inr (.inr hin)
      owned := by
        intro p ch hch
        simp only [(hctrl p).2.1]
        refine (h.owned p ch hch).imp id fun ⟨hro', hpend, hidx⟩ => ⟨hro', ?_, hidx⟩
        by_cases hts : ch.session = s
        · simpa [Sys.Pending, hts, hop] using hpend
        · simpa [Sys.Pending, hts] using hpend }

lemma SysOk.ckptEnquePage (h : SysOk c z) (hstep : ckptEnquePage z s = some z') : SysOk c z' := by
  unfold LogPoint.ckptEnquePage at hstep
  split at hstep
  case h_2 => cases hstep
  rename_i size dirty changed hop
  obtain ⟨hnew, ⟨⟩⟩ := Option.ite_none_right_eq_some.mp hstep
  have hnodup : dirty.Nodup := by simpa [hop, Op.dirtyPages] using h.ops.dirtyNodup s
  have hctrl := enque_ctrl z.ctrl dirty z.truncPoint
  exact
    { log := h.log
      ops := h.ops.enque hop
      queue := h.queue.enque hnew hnodup
      points := { h.points with trunc := h.points.trunc }
      disk := by
        refine h.disk.congr (fun p => (hctrl p).2.2.1) (fun p => (hctrl p).2.2.2.1) ?_
        intro p n hckpt
        have hd : p ∉ dirty := fun hd => by simp [hnew p hd] at hckpt
        simpa [hd] using hckpt
      rcy := h.rcy
      saved := h.saved
      point := h.point.imp (fun hq => by simp [hq]) id }

lemma SysOk.logWrite (h : SysOk c z) (hstep : logWrite c z s = some z') : SysOk c z' := by
  unfold LogPoint.logWrite at hstep
  split at hstep
  case h_2 => cases hstep
  rename_i size changed hop
  obtain ⟨x, hx, rfl⟩ := Option.map_eq_some_iff.mp hstep
  have hlog : Log.logStep c.log z.log (.atomicOpEnd s size !changed.isEmpty) = some x := hx
  have hmoves : LogMoves c z x :=
    { __ := h.log.step hlog
      session := fun t => .inl (Log.session_atomicOpEnd hx).1 }
  have hgroup : ∀ ch, Sys.groupOf { z with log := x } ch = z.groupOf ch := by
    intro ch
    simp only [Sys.groupOf]
    rw [(Log.session_atomicOpEnd hx).1]
  refine h.logMoved hmoves (h.ops.congr (apply_update_eq (by rw [hop]; rfl))
    (apply_update_eq (by rw [hop]; rfl))
    (logStageOk_update h.ops trivial fun t ht => by rw [(Log.session_atomicOpEnd hx).2.1 ht])
    (fun ch g hg => (hgroup ch).trans hg)
    fun ch hpend _ => .inr ⟨?_, (Log.session_atomicOpEnd hx).1⟩)
  by_cases hts : ch.session = s
  · simp only [Sys.Pending, hts, hop] at hpend
    simpa [Sys.Pending, hts] using (Log.session_atomicOpEnd hx).2.2 rfl hpend
  · simp only [Sys.Pending, update_of_ne hts, (Log.session_atomicOpEnd hx).2.1 hts] at hpend ⊢
    exact hpend

lemma OpsOk.releasePage (h : OpsOk c z) {rest} (hst : (z.log.sessions s).stage = .idle)
    (hop : z.op s = .logging (p :: rest)) :
    OpsOk c { z with
      ctrl := update z.ctrl p { z.ctrl p with readonly := none }
      op := update z.op s (.logging rest) } := by
  have hcn := h.changedNodup s
  rw [hop] at hcn
  obtain ⟨hnodup, hrest⟩ := nodup_cons.mp hcn
  have howner : (z.ctrl p).readonly = some s :=
    (h.readonly p s).mpr (by rw [hop]; exact mem_cons_self)
  generalize hb : { z.ctrl p with readonly := none } = b
  have hckpt : ∀ q, _ = (z.ctrl q).inCkpt :=
    apply_update_eq (i := p) (b := b) (f := Ctrl.inCkpt) (by rw [← hb])
  have hdirty : ∀ t, _ = (z.op t).dirtyPages :=
    apply_update_eq (i := s) (b := .logging rest) (f := Op.dirtyPages) (by rw [hop]; rfl)
  have hC : ∀ t q, q ∈ (update z.op s (.logging rest) t).changedPages ↔
      q ∈ (z.op t).changedPages ∧ ¬ (t = s ∧ q = p) := by
    intro t q
    rcases eq_or_ne t s with rfl | hts
    · simp only [update_self, hop, Op.changedPages, mem_cons, true_and]
      exact ⟨fun hq => ⟨.inr hq, fun e => hnodup (e ▸ hq)⟩, fun ⟨hq, hne⟩ => hq.resolve_left hne⟩
    · simp [hts]
  constructor
  case image =>
    exact fun q =>
      (apply_update_eq (f := Ctrl.image) (by rw [← hb]) q).trans (h.image q)
  case logStage => exact logStageOk_update h trivial fun _ _ => rfl
  case readonly =>
    intro q t
    rw [hC, ← h.readonly q t]
    rcases eq_or_ne q p with rfl | hq
    · simp [← hb, howner, eq_comm]
    · simp [hq]
  case changedNodup =>
    exact (forall_update_iff z.op fun _ o => o.changedPages.Nodup).mpr
      ⟨hrest, fun t _ => h.changedNodup t⟩
  case dirtyNodup => exact fun t => by simp only [hdirty]; exact h.dirtyNodup t
  case dirty =>
    intro t q hq
    simp only [hdirty] at hq
    refine (hC t q).mpr ⟨h.dirty t q hq, ?_⟩
    rintro ⟨rfl, rfl⟩
    simp [hop, Op.dirtyPages] at hq
  case changed =>
    intro t q hq
    simp only [hdirty, hckpt]
    exact h.changed t q ((hC t q).mp hq).1
  case isDirty =>
    intro q hq
    simp only [hdirty, hckpt]
    exact h.isDirty q
      ((apply_update_eq (f := Ctrl.isDirty) (by rw [← hb]) q).symm.trans hq)
  case owned =>
    intro q ch hch
    rcases h.owned q ch hch with hg | ⟨hro, hpend, hidx⟩
    · exact .inl hg
    -- the operation of `s` has no change without a group
    have hts : ch.session ≠ s := by
      intro hts
      rw [hts] at hpend
      simp [Sys.Pending, hop, hst, Log.Stage.inWrite] at hpend
    have hqp : q ≠ p := by
      rintro rfl
      cases howner.symm.trans hro
      exact hts rfl
    exact .inr ⟨by simpa [hqp] using hro, by simpa [Sys.Pending, hts] using hpend, hidx⟩

lemma SysOk.logSetPageLsn (h : SysOk c z) (hstep : logSetPageLsn z s = some z') : SysOk c z' := by
  obtain ⟨hst, hstep⟩ := Option.ite_none_right_eq_some.mp hstep
  split at hstep
  case h_3 => cases hstep
  case h_2 hop =>
    cases hstep
    refine h.setOp (h.ops.setOp (by rw [hop]; rfl) (by rw [hop]; rfl) ?_ ?_)
    · simp [LogStageOk, hst, Log.Stage.inWrite]
    · intro hpend
      simp [Sys.Pending, hop, hst, Log.Stage.inWrite] at hpend
  case h_1 q rest hop =>
    cases hstep
    exact h.sameFlags (SameFlags.update ⟨rfl, rfl, rfl, rfl⟩) (h.ops.releasePage hst hop)

end

end Cantian.Ckpt.LogPoint
