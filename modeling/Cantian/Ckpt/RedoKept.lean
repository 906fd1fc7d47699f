import Cantian.Ckpt.LogPointInv
import Mathlib.Data.List.InsertIdx

/-!
# The checkpoint keeps the redo that is still needed

A copy is made of a page that is not read-only, so all its changes have
their groups placed, and the flush that follows brings them to disk before
the copy. The queue is ordered by truncate point, so its first page bounds
all others; and when the queue is empty between two rounds, nothing is
missing on disk.
-/

namespace Cantian.Ckpt.LogPoint

open Function Lib List Option Prod Round Log LogPoint

section
variable {c : Config} {z z' : Sys} {s p : Nat}

/-! ## The log -/

lemma SysOk.logStep (h : SysOk c z) {a x} (hstep : Log.logStep c.log z.log a = some x)
    (hend : ∀ t size changed, a ≠ .atomicOpEnd t size changed)
    (hcommit : ∀ t, a = .commit t → z.op t = .none) :
    LogMoves c z x ∧ SysOk c { z with log := x } := by
  have hsession := h.log.session_step hstep hend
  have hmoves : LogMoves c z x :=
    { __ := h.log.step hstep
      session := fun s => by
        rcases hsession s with hk | hp | hc
        · exact .inl hk.1
        · exact .inr hp
        · exact .inl hc.2.1 }
  have hwrite : ∀ s, (x.sessions s).stage.inWrite = (z.log.sessions s).stage.inWrite ∨
      Log.Places z.log.lfn (z.log.sessions s) (x.sessions s) := by
    intro s
    rcases hsession s with hk | hp | hc
    · exact .inl hk.2.1
    · exact .inr hp
    · exact .inl hc.2.2
  refine ⟨hmoves, h.logMoved hmoves (h.ops.logMoved hmoves hwrite fun s => ?_)⟩
  have hold := h.ops.logStage s
  rcases hsession s with hk | hp | ⟨rfl, _, hin⟩
  · cases hop : z.op s <;> simp only [LogStageOk, hop] at hold ⊢
    case none => rw [hk.2.1, hold]
    all_goals
      rw [hk.2.2 hold]
      exact hold
  · cases hop : z.op s <;> simp only [LogStageOk, hop] at hold ⊢
    case none => exact hp.2.1
    all_goals
      have hwrite := hp.1
      cases hst : (z.log.sessions s).stage <;> simp_all [Log.Stage.atRest, Log.Stage.inWrite]
  · rw [hcommit s rfl] at hold ⊢
    simp only [LogStageOk] at hold ⊢
    rw [hin, hold]

/-- The end of a flush: what the log has flushed. -/
lemma logFlushEnd_points {x} (h : Log.CtxOk c.log z.log)
    (hstep : Log.logFlushEnd c.log z.log = some x) :
    x.flush = none ∧ x.flushedLfn = z.log.lfn ∧ x.lfn = z.log.lfn := by
  unfold logFlushEnd at hstep
  split at hstep
  case h_2 => cases hstep
  case h_1 caller b hflush =>
    obtain ⟨-, ⟨⟩⟩ := ite_none_right_eq_some.mp hstep
    rw [toArea_setCaller]
    exact ⟨rfl, h.area.writtenLfn caller b hflush, rfl⟩

/-- The group of a change is where the log has the groups of the session. -/
lemma SysOk.located (h : SysOk c z) {ch g} (hg : z.groupOf ch = some g) :
    z.log.Located (c.log.bufId g.session) g := by
  have hmem := mem_of_getElem? hg
  rw [(h.log.session ch.session).own g hmem]
  exact (h.log.session ch.session).located g hmem

lemma raisePoint_le {a b n} (ha : a ≤ n) (hb : b ≤ n) : raisePoint a b ≤ n := by
  unfold raisePoint
  split <;> assumption

lemma SysOk.flushEnd (h : SysOk c z) (hstep : flushEnd c z = some z') : SysOk c z' := by
  obtain ⟨x, hx, rfl⟩ := map_eq_some_iff.mp hstep
  obtain ⟨hmoves, hok⟩ := h.logStep (a := .flushEnd) hx (by simp) (by simp)
  obtain ⟨hdone, hflushed, hlfn⟩ := logFlushEnd_points h.log hx
  have hitems : z.round.flushed.items = z.round.items := by
    cases z.round <;> rfl
  have htrunc : z.truncPoint ≤ x.flushedLfn := by
    rw [hflushed]
    exact h.points.trunc
  have hle : x.flushedLfn ≤ x.lfn := by omega
  exact
    { log := hok.log
      ops := { hok.ops with image := hok.ops.image }
      queue := { h.queue with pageLe := fun p hp => Nat.le_trans (h.queue.pageLe p hp) htrunc }
      points :=
        { hok.points with
          trunc := hle
          curr := hle
          lrp := by
            split
            · exact raisePoint_le hok.points.lrp hle
            · exact hok.points.lrp }
      disk := by
        refine hok.disk.setRound (r := z.round.flushed) hitems ?_ _ _ _ _
        intro ch g hg hknows
        cases hr : z.round
        case flushing items =>
          simp only [hr, Round.Knows] at hknows
          have hclosed := closing_of_flush_none hdone
          exact hmoves.ok.area.onDisk_of_closed hclosed (c.log.bufId_lt _) (hok.located hg) hknows
        all_goals
          rw [hr] at hknows
          exact hknows
      rcy := hok.rcy
      saved := hok.saved
      point := by
        have hp := hok.point
        cases hr : z.round <;> simp only [hr, flushed] at hp ⊢
        case counted => exact hp
        all_goals trivial }

lemma SysOk.logMove (h : SysOk c z) {a} (hstep : logMove c z a = some z') : SysOk c z' := by
  unfold LogPoint.logMove at hstep
  split at hstep
  case h_1 => cases hstep
  case h_2 => exact h.flushEnd hstep
  case h_3 s =>
    obtain ⟨hop, hstep⟩ := ite_none_right_eq_some.mp hstep
    obtain ⟨x, hx, rfl⟩ := map_eq_some_iff.mp hstep
    refine (h.logStep hx (by simp) fun t ht => ?_).2
    cases ht
    exact hop
  case h_4 hend _ hcommit =>
    obtain ⟨x, hx, rfl⟩ := map_eq_some_iff.mp hstep
    exact (h.logStep hx hend fun t ht => absurd ht (hcommit t)).2

/-! ## Checkpoints -/

variable {queue : List Nat}

lemma QueueOk.pop {ctrl truncPoint p b} (h : QueueOk ctrl queue truncPoint)
    (hckpt : b.inCkpt = false) (htrunc : b.truncPoint = (ctrl p).truncPoint) :
    QueueOk (update ctrl p b)
      (if (ctrl p).inCkpt then queue.erase p else queue) truncPoint := by
  have hsame := apply_update_eq (f := Ctrl.truncPoint) htrunc
  have hsub : (if (ctrl p).inCkpt then queue.erase p else queue).Sublist queue := by
    split
    · exact erase_sublist
    · exact List.Sublist.refl queue
  have hmem : ∀ q, q ∈ (if (ctrl p).inCkpt then queue.erase p else queue) ↔
      q ≠ p ∧ q ∈ queue := by
    intro q
    split
    · rw [h.nodup.mem_erase_iff]
    case isFalse hp =>
      refine ⟨fun hq => ⟨?_, hq⟩, fun hq => hq.2⟩
      rintro rfl
      exact hp ((h.inCkpt q).mp hq)
  exact
    { inCkpt := by
        intro q
        rw [hmem q]
        by_cases hq : q = p
        · simp [hq, hckpt]
        · simpa [hq] using h.inCkpt q
      nodup := h.nodup.sublist hsub
      sorted := by
        simp only [hsame]
        exact h.sorted.sublist hsub
      pageLe := by
        intro q hq
        rw [hsame]
        exact h.pageLe q (hsub.subset hq) }

/-- The control block of a page changes. A page that leaves the queue is clean and no
operation has changed it. -/
lemma OpsOk.setCtrl (h : OpsOk c z) {b} (himage : b.image = (z.ctrl p).image)
    (hro : b.readonly = (z.ctrl p).readonly)
    (hdirty : b.isDirty = true → (z.ctrl p).isDirty = true ∧ b.inCkpt = (z.ctrl p).inCkpt)
    (hckpt : b.inCkpt = (z.ctrl p).inCkpt ∨ b.readonly = none) {disk r} : OpsOk c { z with
      disk := disk
      round := r
      queue := queue
      ctrl := update z.ctrl p b } :=
  { h with
    image := fun q => (apply_update_eq himage q).trans (h.image q)
    readonly := fun q t => by
      rw [apply_update_eq hro]
      exact h.readonly q t
    changed := by
      intro t q hq
      refine (h.changed t q hq).imp_right fun hin => ?_
      rcases eq_or_ne q p with rfl | hqp
      · rcases hckpt with hc | hn
        · simpa [hc] using hin
        · cases (hro.symm.trans hn).symm.trans ((h.readonly q t).mpr hq)
      · simpa [hqp] using hin
    isDirty := by
      intro q hq
      rcases eq_or_ne q p with rfl | hqp
      · simp only [update_self] at hq ⊢
        rw [(hdirty hq).2]
        exact h.isDirty q (hdirty hq).1
      · simp only [update_of_ne hqp] at hq ⊢
        exact h.isDirty q hq
    owned := fun q ch hch => by
      rw [apply_update_eq hro]
      exact h.owned q ch hch }

lemma DiskOk.copyItem (h : DiskOk c z) (hops : OpsOk c z) {items}
    (hround : z.round = .preparing items) (hro : (z.ctrl p).readonly = none)
    (hunmarked : (z.ctrl p).isMarked = false) : DiskOk c { z with
      round := .preparing (items ++ [(p, (z.ctrl p).image)])
      queue := queue
      ctrl := update z.ctrl p
        { z.ctrl p with inCkpt := false, isMarked := true, isDirty := false } } := by
  have hitems : z.round.items = items := by rw [hround]; rfl
  have hfresh : p ∉ items.map fst := by
    intro hmem
    have := (h.marked p).mpr (hitems ▸ hmem)
    simp [hunmarked] at this
  have hcases : ∀ {q img}, (q, img) ∈ items ++ [(p, (z.ctrl p).image)] →
      q ≠ p ∧ (q, img) ∈ z.round.items ∨ q = p ∧ img = z.history p := by
    intro q img hmem
    rcases mem_append.mp hmem with hold | hlast
    · refine .inl ⟨fun hq => ?_, hitems ▸ hold⟩
      exact hfresh (hq ▸ mem_map_of_mem (f := fst) hold)
    · obtain ⟨rfl, rfl⟩ := mk.inj (mem_singleton.mp hlast)
      exact .inr ⟨rfl, hops.image q⟩
  constructor
  case marked =>
    intro q
    rcases eq_or_ne q p with rfl | hq
    · simp [Round.items]
    · have hmarked := h.marked q
      rw [hitems] at hmarked
      simpa [hq, Round.items] using hmarked
  case nodup =>
    have hn := h.nodup
    rw [hitems] at hn
    simpa [Round.items, concat_eq_append] using List.Nodup.concat hfresh hn
  case cleanItem =>
    intro q img hmem hclean
    rcases hcases hmem with ⟨hq, hold⟩ | ⟨rfl, rfl⟩
    · exact h.cleanItem q img hold (by simpa [hq] using hclean)
    · rfl
  case cleanDisk =>
    intro q hclean hmark
    rcases eq_or_ne q p with rfl | hq
    · simp at hmark
    · exact h.cleanDisk q (by simpa [hq] using hclean) (by simpa [hq] using hmark)
  case diskSub => exact h.diskSub
  case itemSub =>
    intro q img hmem ch hch
    rcases hcases hmem with ⟨_, hold⟩ | ⟨rfl, rfl⟩
    · exact h.itemSub q img hold ch hch
    · exact hch
  case itemWhole =>
    intro q img hmem ch hch
    rcases hcases hmem with ⟨_, hold⟩ | ⟨rfl, rfl⟩
    · exact h.itemWhole q img hold ch hch
    · exact h.diskSub q ch hch
  case itemLogged =>
    intro q img hmem ch hch
    rcases hcases hmem with ⟨_, hold⟩ | ⟨rfl, rfl⟩
    · obtain ⟨g, hg, _⟩ := h.itemLogged q img hold ch hch
      exact ⟨g, hg, trivial⟩
    · rcases hops.owned q ch hch with ⟨g, hg⟩ | ⟨hro', _⟩
      · exact ⟨g, hg, trivial⟩
      · cases hro.symm.trans hro'
  case diskLogged => exact h.diskLogged
  case covered =>
    intro q ch g hch hg
    rcases eq_or_ne q p with rfl | hq
    · refine .inr (.inl ⟨(z.ctrl q).image, mem_append_right _ mem_cons_self, ?_⟩)
      rw [hops.image]
      exact hch
    · refine (h.covered q ch g hch hg).imp id fun hc => hc.imp ?_ ?_
      · intro ⟨img, hmem, hin⟩
        exact ⟨img, mem_append_left _ (hitems ▸ hmem), hin⟩
      · simp [hq]

lemma SysOk.ckptCopyItem (h : SysOk c z) (hstep : ckptCopyItem z p = some z') : SysOk c z' := by
  unfold LogPoint.ckptCopyItem at hstep
  split at hstep
  case h_2 => cases hstep
  rename_i items hround
  obtain ⟨hfree, ⟨⟩⟩ := ite_none_right_eq_some.mp hstep
  exact
    { log := h.log
      ops := by apply h.ops.setCtrl <;> simp [hfree.1]
      queue := h.queue.pop rfl rfl
      points := { h.points with trunc := h.points.trunc }
      disk := h.disk.copyItem h.ops hround hfree.1 hfree.2
      rcy := h.rcy
      saved := h.saved
      point := trivial }

/-- The round goes on; only the points of the checkpoint and what the round knows change. -/
lemma SysOk.setRound (h : SysOk c z) {r} (hitems : r.items = z.round.items)
    (hknows : ∀ ch g, z.groupOf ch = some g → z.round.Knows c z.log.toArea g →
      r.Knows c z.log.toArea g) {lrp rcy} (hlrp : lrp ≤ z.log.lfn) (hrcy : rcy ≤ z.log.lfn)
    (hsafe : z.Safe rcy) (hpoint : PointOk r z.queue (z.Safe lrp)) :
    SysOk c { z with round := r, lrpPoint := lrp, rcyPoint := rcy } :=
  { log := h.log
    ops := { h.ops with image := h.ops.image }
    queue := h.queue
    points := { h.points with lrp := hlrp, rcy := hrcy }
    disk := h.disk.setRound hitems hknows _ _ _ _
    rcy := hsafe
    saved := h.saved
    point := hpoint }

lemma SysOk.nextRound (h : SysOk c z) {r} (hitems : r.items = z.round.items)
    (hknows : ∀ g, r.Knows c z.log.toArea g) (hpoint : PointOk r z.queue (z.Safe z.lrpPoint)) :
    SysOk c { z with round := r } :=
  h.setRound hitems (fun _ g _ _ => hknows g) h.points.lrp h.points.rcy h.rcy hpoint

/-- The flush of a checkpoint leaves no group of a copy in the set that is written to; if
there is nothing to flush, all of them are on disk. -/
lemma SysOk.ckptFlushPrepare (h : SysOk c z) (hstep : ckptFlushPrepare c z = some z') :
    SysOk c z' := by
  unfold LogPoint.ckptFlushPrepare at hstep
  split at hstep
  case h_2 => cases hstep
  rename_i items hround
  obtain ⟨x, hx, rfl⟩ := map_eq_some_iff.mp hstep
  obtain ⟨hmoves, hok⟩ := h.logStep (a := .flush none) hx (by simp) (by simp)
  have hitems : z.round.items = items := by rw [hround]; rfl
  unfold logFlush at hx
  simp only [bind_some] at hx
  obtain ⟨hflush, hx⟩ := ite_none_right_eq_some.mp hx
  split
  case isTrue hneed =>
    rw [if_pos hneed] at hx
    obtain ⟨-, ⟨⟩⟩ := ite_none_right_eq_some.mp hx
    refine hok.setRound (r := .flushing items) hitems.symm ?_ hok.points.lrp hok.points.rcy
      hok.rcy trivial
    intro ch g _ _
    simp [Round.Knows, h.log.area.open_empty_switchBuffer hflush none (c.log.bufId_lt _)]
  case isFalse hneed =>
    cases (if_neg hneed).symm.trans hx
    refine hok.setRound (r := .writing items) hitems.symm ?_
      (raisePoint_le hok.points.lrp hok.points.curr) hok.points.rcy hok.rcy trivial
    intro ch g hg _
    refine h.log.area.onDisk_of_closed (closing_of_flush_none hflush) (c.log.bufId_lt _)
      (h.located hg) ?_
    simp [h.log.area.open_empty_of_not_needFlush (Bool.eq_false_iff.mpr hneed) (c.log.bufId_lt _)]

lemma DiskOk.flushPage (h : DiskOk c z) {items i img} (hround : z.round = .writing items)
    (hi : items[i]? = some (p, img)) :
    DiskOk c { z with
      disk := update z.disk p img
      ctrl := update z.ctrl p { z.ctrl p with isMarked := false }
      round := .writing (items.eraseIdx i) } := by
  have hitems : z.round.items = items := by rw [hround]; rfl
  have hmem : (p, img) ∈ z.round.items := hitems ▸ mem_of_getElem? hi
  have hnodup : (items.map fst).Nodup := hitems ▸ h.nodup
  have hlogged : ∀ q img', (q, img') ∈ z.round.items → ∀ ch ∈ img',
      ∃ g, z.groupOf ch = some g ∧ z.log.OnDisk g := by
    have hlogged := h.itemLogged
    rw [hround] at hlogged ⊢
    exact hlogged
  have hkeys : (items.eraseIdx i).map fst = (items.map fst).erase p := by
    rw [← eraseIdx_map]
    have hkey : (items.map fst)[i]? = some p := by simp [hi]
    obtain ⟨hlt, hget⟩ := List.getElem?_eq_some_iff.mp hkey
    rw [← hget]
    exact (hnodup.erase_getElem i hlt).symm
  have hleft : ∀ {q img'}, (q, img') ∈ items.eraseIdx i → q ≠ p ∧ (q, img') ∈ z.round.items := by
    intro q img' hq
    refine ⟨?_, hitems ▸ mem_of_mem_eraseIdx hq⟩
    have hkey : q ∈ (items.map fst).erase p := hkeys ▸ mem_map_of_mem (f := fst) hq
    exact (hnodup.mem_erase_iff.mp hkey).1
  have hsplit : ∀ item ∈ z.round.items, item = (p, img) ∨ item ∈ items.eraseIdx i := by
    intro item hitem
    obtain ⟨j, hj⟩ := mem_iff_getElem?.mp (hitems ▸ hitem)
    by_cases hji : j = i
    · rw [hji, hi] at hj
      exact .inl (some.inj hj).symm
    · exact .inr (mem_eraseIdx_iff_getElem?.mpr ⟨j, hji, hj⟩)
  have hdisk : ∀ q ≠ p, update z.disk p img q = z.disk q :=
    fun q hq => update_of_ne hq _ _
  constructor
  case marked =>
    intro q
    simp only [Round.items, hkeys, hnodup.mem_erase_iff]
    rcases eq_or_ne q p with rfl | hq
    · simp
    · simpa [hq, hitems] using h.marked q
  case nodup =>
    simp only [Round.items, hkeys]
    exact hnodup.erase p
  case cleanItem =>
    intro q img' hq hclean
    obtain ⟨hne, hold⟩ := hleft hq
    exact h.cleanItem q img' hold (by simpa [hne] using hclean)
  case cleanDisk =>
    intro q hclean hmark
    rcases eq_or_ne q p with rfl | hq
    · simpa using h.cleanItem q img hmem (by simpa using hclean)
    · simpa [hq] using h.cleanDisk q (by simpa [hq] using hclean) (by simpa [hq] using hmark)
  case diskSub =>
    exact (forall_update_iff z.disk fun q d => ∀ ch ∈ d, ch ∈ z.history q).mpr
      ⟨h.itemSub p img hmem, fun q _ => h.diskSub q⟩
  case itemSub => exact fun q img' hq => h.itemSub q img' (hleft hq).2
  case itemWhole =>
    intro q img' hq
    obtain ⟨hne, hold⟩ := hleft hq
    simp only [hdisk q hne]
    exact h.itemWhole q img' hold
  case itemLogged => exact fun q img' hq => hlogged q img' (hleft hq).2
  case diskLogged =>
    exact (forall_update_iff z.disk fun _ d => ∀ ch ∈ d,
        ∃ g, z.groupOf ch = some g ∧ z.log.OnDisk g).mpr
      ⟨hlogged p img hmem, fun q _ => h.diskLogged q⟩
  case covered =>
    intro q ch g hch hg
    rcases h.covered q ch g hch hg with hd | ⟨img', hmem', hin⟩ | hin
    · rcases eq_or_ne q p with rfl | hq
      · exact .inl (by simpa using h.itemWhole q img hmem ch hd)
      · exact .inl (by simpa [hq] using hd)
    · rcases hsplit _ hmem' with heq | hrest
      · obtain ⟨rfl, rfl⟩ := mk.inj heq
        exact .inl (by simpa using hin)
      · exact .inr (.inl ⟨img', hrest, hin⟩)
    · refine .inr (.inr ?_)
      rcases eq_or_ne q p with rfl | hq
      · simpa using hin
      · simpa [hq] using hin

lemma SysOk.ckptFlushPage (h : SysOk c z) {i} (hstep : ckptFlushPage z i = some z') :
    SysOk c z' := by
  unfold LogPoint.ckptFlushPage at hstep
  split at hstep
  case h_2 => cases hstep
  rename_i items hround
  obtain ⟨⟨p, img⟩, hi, rfl⟩ := map_eq_some_iff.mp hstep
  have hmem : (p, img) ∈ z.round.items := by
    rw [hround]
    exact mem_of_getElem? hi
  -- a copy holds what the disk already has
  have hsafe : ∀ point, z.Safe point → ∀ q ch g, ch ∈ z.history q →
      ch ∉ update z.disk p img q → z.groupOf ch = some g → point < g.lfn := by
    intro point hp q ch g hch hd hg
    refine hp q ch g hch (fun hold => hd ?_) hg
    rcases eq_or_ne q p with rfl | hq
    · rw [update_self]
      exact h.disk.itemWhole q img hmem ch hold
    · rwa [update_of_ne hq]
  exact
    { log := h.log
      ops := by apply h.ops.setCtrl <;> simp
      queue := h.queue.congr (apply_update_eq rfl) (apply_update_eq rfl)
      points := { h.points with trunc := h.points.trunc }
      disk := h.disk.flushPage hround hi
      rcy := hsafe _ h.rcy
      saved := hsafe _ h.saved
      point := trivial }

/-- Between two rounds the truncate points of the queue bound what is missing on disk. -/
lemma SysOk.safe_of_queue (h : SysOk c z) (hitems : z.round.items = []) {point}
    (hle : ∀ q ∈ z.queue, point ≤ (z.ctrl q).truncPoint) : z.Safe point := by
  intro q ch g hch hdisk hg
  rcases h.disk.covered q ch g hch hg with hd | ⟨img, hmem, _⟩ | ⟨hin, hlt⟩
  · exact absurd hd hdisk
  · simp [hitems] at hmem
  · exact Nat.lt_of_le_of_lt (hle q ((h.queue.inCkpt q).mpr hin)) hlt

lemma SysOk.ckptUpdateLogPoint (h : SysOk c z) (hstep : ckptUpdateLogPoint c z = some z') :
    SysOk c z' := by
  have hpoint := h.point
  unfold LogPoint.ckptUpdateLogPoint at hstep
  split at hstep
  case h_3 => cases hstep
  case h_1 last hround =>
    obtain ⟨p, hp, rfl⟩ := map_eq_some_iff.mp hstep
    have hitems : z.round.items = [] := by rw [hround]; rfl
    obtain ⟨rest, hqueue⟩ := head?_eq_some_iff.mp hp
    have hpmem : p ∈ z.queue := by simp [hqueue]
    have hple := Nat.le_trans (h.queue.pageLe p hpmem) h.points.trunc
    -- the first page of the queue has the least truncate point
    have hleast : ∀ q ∈ z.queue, (z.ctrl p).truncPoint ≤ (z.ctrl q).truncPoint := by
      have hsorted := h.queue.sorted
      rw [hqueue] at hsorted ⊢
      exact forall_mem_cons.mpr ⟨Nat.le_refl _, (pairwise_cons.mp hsorted).1⟩
    refine h.setRound (r := .idle) hitems.symm (fun _ _ _ _ => trivial) ?_ hple
      (h.safe_of_queue hitems hleast) trivial
    split
    · exact hple
    · exact h.points.lrp
  case h_2 last hround =>
    cases hstep
    have hitems : z.round.items = [] := by rw [hround]; rfl
    rw [hround] at hpoint
    have hlrp : z.Safe z.lrpPoint := hpoint
    refine h.setRound (r := .idle) hitems.symm (fun _ _ _ _ => trivial) h.points.lrp ?_ ?_ trivial
    · have := h.points.lrp
      have := h.points.rcy
      split
      · omega
      · split <;> omega
    · split
      case isTrue hlt =>
        intro q ch g hch hdisk hg
        exact Nat.lt_trans hlt.2 (hlrp q ch g hch hdisk hg)
      case isFalse =>
        split
        · exact hlrp
        · exact h.rcy

lemma SysOk.readCount (h : SysOk c z) (hround : z.round = .performed) :
    SysOk c { z with round := .counted z.queue.isEmpty z.currPoint } := by
  have hitems : z.round.items = [] := by rw [hround]; rfl
  refine h.nextRound (r := .counted _ _) hitems.symm (fun _ => trivial) ?_
  cases hq : z.queue with
  | nil => exact h.safe_of_queue hitems (by simp [hq])
  | cons => simp [PointOk]

lemma SysOk.reload (h : SysOk c z) (hdirty : (z.ctrl p).isDirty = false)
    (hmarked : (z.ctrl p).isMarked = false) :
    SysOk c (z.setCtrl p { z.ctrl p with image := z.disk p }) := by
  have himage : ({ z.ctrl p with image := z.disk p } : Ctrl) = z.ctrl p := by
    rw [h.disk.cleanDisk p hdirty hmarked, ← h.ops.image p]
  have hsame : z.setCtrl p { z.ctrl p with image := z.disk p } = z := by
    rw [himage, Sys.setCtrl, update_eq_self]
  rw [hsame]
  exact h

lemma SysOk.step (h : SysOk c z) {a} (hstep : sysStep c z a = some z') : SysOk c z' := by
  cases a with
  | atomicOpBegin => exact h.atomicOpBegin hstep
  | leavePage => exact h.leavePage hstep
  | enquePage => exact h.ckptEnquePage hstep
  | logWrite => exact h.logWrite hstep
  | setPageLsn => exact h.logSetPageLsn hstep
  | log => exact h.logMove hstep
  | startRound | endRound =>
    obtain ⟨hround, ⟨⟩⟩ := ite_none_right_eq_some.mp hstep
    exact h.nextRound (by rw [hround]; rfl) (fun _ => trivial) trivial
  | copyItem => exact h.ckptCopyItem hstep
  | endPrepare | skipFlush | endPerform =>
    simp only [sysStep] at hstep
    split at hstep <;> cases hstep
    rename_i hround
    exact h.nextRound (by rw [hround]; rfl) (fun _ => trivial) trivial
  | flushPrepare => exact h.ckptFlushPrepare hstep
  | flushPage => exact h.ckptFlushPage hstep
  | readCount =>
    obtain ⟨hround, ⟨⟩⟩ := ite_none_right_eq_some.mp hstep
    exact h.readCount hround
  | updateLogPoint => exact h.ckptUpdateLogPoint hstep
  | saveCtrl =>
    cases hstep
    exact
      { log := h.log
        ops := { h.ops with image := h.ops.image }
        queue := h.queue
        points := { h.points with saved := h.points.rcy }
        disk := { h.disk with marked := h.disk.marked }
        rcy := h.rcy
        saved := h.rcy
        point := h.point }
  | reload =>
    obtain ⟨hclean, ⟨⟩⟩ := ite_none_right_eq_some.mp hstep
    exact h.reload hclean.1 hclean.2.1

end

lemma SysOk.fresh {c z} (h : z.Fresh) : SysOk c z where
  log := Log.CtxOk.fresh h.log
  ops :=
    { image := by simp [h.ctrl, h.history]
      logStage := by simp [h.op, h.log.sessions, LogStageOk, Log.Stage.inWrite]
      readonly := by simp [h.ctrl, h.op, Op.changedPages]
      changedNodup := by simp [h.op, Op.changedPages]
      dirtyNodup := by simp [h.op, Op.dirtyPages]
      dirty := by simp [h.op, Op.dirtyPages]
      changed := by simp [h.op, Op.changedPages]
      isDirty := by simp [h.ctrl]
      owned := by simp [h.history] }
  queue :=
    { inCkpt := by simp [h.queue, h.ctrl]
      nodup := by simp [h.queue]
      sorted := by simp [h.queue]
      pageLe := by simp [h.queue] }
  points :=
    { trunc := Nat.le_of_eq h.truncPoint
      curr := Nat.le_of_eq h.currPoint
      lrp := h.lrpPoint
      rcy := h.rcyPoint
      saved := h.savedPoint }
  disk :=
    { marked := by simp [h.ctrl, h.round, items]
      nodup := by simp [h.round, items]
      cleanItem := by simp [h.round, items]
      cleanDisk := by simp [h.disk, h.history]
      diskSub := by simp [h.disk]
      itemSub := by simp [h.round, items]
      itemWhole := by simp [h.round, items]
      itemLogged := by simp [h.round, items]
      diskLogged := by simp [h.disk]
      covered := by simp [h.history] }
  rcy := by simp [Sys.Safe, h.history]
  saved := by simp [Sys.Safe, h.history]
  point := by simp [PointOk, h.round]

lemma SysOk.of_reachable {c z} (h : Reachable (sysStep c) Sys.Fresh z) : SysOk c z :=
  h.invariant (fun _ hf => SysOk.fresh hf) fun _ _ _ _ hs hstep => hs.step hstep

/-- In every state: a change that the disk lacks although its redo group is in a batch on
disk has that batch after the saved recovery point; and a change that the disk has, has
its redo group in a batch on disk. -/
theorem checkpoint_keeps_needed_redo {c : Config} {z : Sys}
    (h : Reachable (sysStep c) Sys.Fresh z) :
    (∀ p, ∀ ch ∈ z.history p, ch ∉ z.disk p → ∀ g, z.groupOf ch = some g →
      ∀ b ∈ z.log.disk, g ∈ b.groups → z.savedPoint < b.lfn) ∧
    ∀ p, ∀ ch ∈ z.disk p, ∃ g, z.groupOf ch = some g ∧ ∃ b ∈ z.log.disk, g ∈ b.groups := by
  have hok := SysOk.of_reachable h
  constructor
  · intro p ch hch hdisk g hg b hb hmem
    rw [← (hok.log.area.diskOk b hb g hmem).1]
    exact hok.saved p ch g hch hdisk hg
  · exact hok.disk.diskLogged

def clean (lfn : Nat) : Sys where
  log := Log.started lfn
  ctrl _ := {}
  disk _ := []
  history _ := []
  op _ := .none
  queue := []
  truncPoint := lfn
  currPoint := lfn
  lrpPoint := lfn
  rcyPoint := lfn
  savedPoint := lfn
  round := .idle

lemma clean_fresh (lfn : Nat) : (clean lfn).Fresh where
  log := started_fresh lfn
  ctrl _ := rfl
  disk _ := rfl
  history _ := rfl
  op _ := rfl
  queue := rfl
  truncPoint := rfl
  currPoint := rfl
  lrpPoint := Nat.le_refl _
  rcyPoint := Nat.le_refl _
  savedPoint := Nat.le_refl _
  round := rfl

/-- An operation of session 0 on page 5, from `log_atomic_op_begin` to its end. -/
def changePage : List Action :=
  [.atomicOpBegin 0 20, .leavePage 0 5, .enquePage 0, .logWrite 0, .log (.writeTryLock 0),
    .log (.write 0), .log (.copy 0), .setPageLsn 0, .setPageLsn 0]

def flushLog : List Action :=
  [.log (.assemble 0), .log (.assemble 1), .log .flushToDisk, .log .flushEnd]

/-- A page changes again while the checkpoint writes its copy; the second change is
missing on disk, and its batch is after the recovery point that is saved. -/
theorem checkpoint_keeps_second_change : ∃ z : Sys,
    z.disk 5 = [⟨0, 0⟩] ∧ z.history 5 = [⟨0, 0⟩, ⟨0, 1⟩] ∧
    (∃ b ∈ z.log.disk, b.lfn = 9 ∧ ∃ g ∈ b.groups, z.groupOf ⟨0, 1⟩ = some g) ∧
    z.savedPoint = 8 ∧ z.savedPoint < 9 := by
  obtain ⟨z, hrun, hz⟩ := exists_of_run_map
    (sysStep { log := twoBuffers, cluster := true, ignoreCorrupted := false }) (clean 7)
    (changePage ++ [.startRound, .copyItem 5, .endPrepare, .flushPrepare] ++ flushLog ++
      changePage ++ [.flushPage 0, .log (.flush none)] ++ flushLog ++
      [.endPerform, .readCount, .updateLogPoint, .saveCtrl])
    (fun z => ((z.disk 5, z.history 5), (z.log.disk, z.groupOf ⟨0, 1⟩), z.savedPoint))
    (([⟨0, 0⟩], [⟨0, 0⟩, ⟨0, 1⟩]),
      ([⟨8, 1, [⟨0, 20, 1, 8⟩]⟩, ⟨9, 2, [⟨0, 20, 2, 9⟩]⟩], some ⟨0, 20, 2, 9⟩), 8)
    (by decide +kernel)
  obtain ⟨hpage, hz⟩ := mk.inj hz
  obtain ⟨hlog, hsaved⟩ := mk.inj hz
  obtain ⟨hdisk, hhistory⟩ := mk.inj hpage
  obtain ⟨hbatches, hgroup⟩ := mk.inj hlog
  have hreach := Reachable.of_run _ (.init (clean_fresh 7)) hrun
  have hlast : (⟨9, 2, [⟨0, 20, 2, 9⟩]⟩ : Log.Batch) ∈ z.log.disk := by simp [hbatches]
  refine ⟨z, hdisk, hhistory, ⟨_, hlast, rfl, _, mem_cons_self, hgroup⟩, hsaved, ?_⟩
  refine (checkpoint_keeps_needed_redo hreach).1 5 ⟨0, 1⟩ ?_ ?_ _ hgroup _ hlast
    mem_cons_self
  · simp [hhistory]
  · simp [hdisk]

/-- A crash loses no commit: when `log_commit` has returned, every change that the session
has made to a page is in the page on disk, or its redo group is in a batch on disk after
the saved recovery point. -/
theorem crash_keeps_committed_changes {c : Config} {z : Sys} {s : Nat}
    (h : Reachable (sysStep c) Sys.Fresh z) (hop : z.op s = .none)
    (hst : (z.log.sessions s).stage = .committed) :
    ∀ p, ∀ ch ∈ z.history p, ch.session = s → ch ∈ z.disk p ∨ ∃ g, z.groupOf ch = some g ∧
      ∃ b ∈ z.log.disk, g ∈ b.groups ∧ z.savedPoint < b.lfn := by
  have hok := SysOk.of_reachable h
  rintro p ch hch rfl
  obtain ⟨g, hg⟩ : ∃ g, z.groupOf ch = some g := by
    refine (hok.ops.owned p ch hch).resolve_right fun hpend => ?_
    simpa [Sys.Pending, hop] using hpend.2.1
  by_cases hdisk : ch ∈ z.disk p
  · exact .inl hdisk
  have hdurable := (hok.log.session ch.session).stage
  simp only [Log.StageOk, hst] at hdurable
  obtain ⟨b, hb, hmem⟩ := hdurable g (mem_of_getElem? hg)
  have hlfn := (hok.log.area.diskOk b hb g hmem).1
  exact .inr ⟨g, hg, b, hb, hmem, hlfn ▸ hok.saved p ch g hch hdisk hg⟩

lemma exists_copied : ∃ z, Reachable (sysStep ⟨twoBuffers, true, false⟩) Sys.Fresh z ∧
    (z.history 5 = [⟨0, 0⟩] ∧ z.disk 5 = []) ∧ (z.ctrl 5).image = [⟨0, 0⟩] ∧ z.op 0 = .none ∧
      (z.log.sessions 0).stage = .committed := by
  obtain ⟨z, hrun, hz⟩ := exists_of_run_map (sysStep ⟨twoBuffers, true, false⟩) (clean 7)
    (changePage ++ [.startRound, .copyItem 5, .log (.flush none)] ++ flushLog ++ [.log (.commit 0)])
    (fun z => ((z.history 5, z.disk 5), (z.ctrl 5).image, z.op 0, (z.log.sessions 0).stage))
    (([⟨0, 0⟩], []), [⟨0, 0⟩], .none, .committed) (by decide +kernel)
  exact ⟨z, .of_run _ (.init (clean_fresh 7)) hrun, by simpa only [Prod.mk.injEq] using hz⟩

theorem crash_keeps_copied_change : ∃ z : Sys, z.history 5 = [⟨0, 0⟩] ∧ z.disk 5 = [] ∧
    ∃ g, z.groupOf ⟨0, 0⟩ = some g ∧ ∃ b ∈ z.log.disk, g ∈ b.groups ∧ z.savedPoint < b.lfn := by
  obtain ⟨z, hreach, ⟨hhist, hdisk⟩, -, hop, hst⟩ := exists_copied
  have hkept := crash_keeps_committed_changes hreach hop hst 5 ⟨0, 0⟩ (by simp [hhist]) rfl
  exact ⟨z, hhist, hdisk, hkept.resolve_left (by simp [hdisk])⟩

/-- No dirty page is forgotten: the queue is in the order of the truncate points, is not
empty when `ckpt_update_log_point` takes its first page, and a page that differs from the
disk is in the queue, is copied, or is about to be put in the queue. -/
theorem dirty_page_is_known {c : Config} {z : Sys} (h : Reachable (sysStep c) Sys.Fresh z) :
    z.queue.Pairwise (fun p q => p ≠ q ∧ (z.ctrl p).truncPoint ≤ (z.ctrl q).truncPoint) ∧
    (∀ last, z.round = .counted false last → z.queue ≠ []) ∧
    ∀ p, (z.ctrl p).image ≠ z.disk p →
      p ∈ z.queue ∨ p ∈ z.round.items.map fst ∨ ∃ s, p ∈ (z.op s).dirtyPages := by
  have hok := SysOk.of_reachable h
  refine ⟨hok.queue.nodup.and hok.queue.sorted, fun last hround => ?_, fun p hp => ?_⟩
  · simpa [PointOk, hround] using hok.point
  by_cases hdirty : (z.ctrl p).isDirty = true
  · rcases hok.ops.isDirty p hdirty with hop | hckpt
    · exact .inr (.inr hop)
    · exact .inl ((hok.queue.inCkpt p).mpr hckpt)
  · refine .inr (.inl ((hok.disk.marked p).mp ?_))
    by_contra hmark
    simp only [Bool.not_eq_true] at hdirty hmark
    exact hp ((hok.ops.image p).trans (hok.disk.cleanDisk p hdirty hmark).symm)

theorem copied_page_is_known : ∃ z : Sys, (z.ctrl 5).image ≠ z.disk 5 ∧
    (5 ∈ z.queue ∨ 5 ∈ z.round.items.map fst ∨ ∃ s, 5 ∈ (z.op s).dirtyPages) := by
  obtain ⟨z, hreach, ⟨-, hdisk⟩, himage, -⟩ := exists_copied
  have hne : (z.ctrl 5).image ≠ z.disk 5 := by simp [himage, hdisk]
  exact ⟨z, hne, (dirty_page_is_known hreach).2.2 5 hne⟩

end Cantian.Ckpt.LogPoint
