import Cantian.Dcs.Handlers
import Cantian.Dcs.NodeStep

/-!
# Page protocol — single writer, many readers

Every step keeps the invariant of the lock view as long as no stale message
or thread is acted on. The module derives the invariant for all such runs,
and from it that an exclusive lock excludes every other lock and that the
directory's mode bounds the owner's.

Without the side condition both fail. The counterexamples are runs of the
handlers as they are.
-/

namespace Cantian.Dcs

open View Lib List Option State Node LockMode Function BufCtrl

/-! ## Every step -/

/-- No stale message or thread is acted on: a claim is accepted only for
the request that is converting; an invalidation thread goes on only while
its request is converting, and not after a failure; and an entry is
removed without invalidating its owner only when the owner has nothing. -/
def noStale (s : State) : Act → Bool
  | .deliver k =>
    match s.net[k]? with
    | some (.claim c _) =>
      s.dir.all fun e => e.converting.all fun r =>
        !drcIsSameClaimRequest r c || drcClaimInfoIsInvalid c e || r.rsn == c.rsn
    | some (.recycleOwner src time _ _) =>
      s.dir.all fun e => !recycledAtOnce e src time ||
        ((s.node src).lockMode == .null && (s.node src).pend.isNone)
    | _ => true
  | .invldDone k =>
    match s.tasks[k]? with
    | some t => if t.failed then !t.fromClaim else decide (s.view.conv = some t.req)
    | none => true
  | _ => true

/-- Entries are made only for exclusive requests. -/
def firstExclusive (s : State) : Act → Bool
  | .deliver k =>
    match s.net[k]? with
    | some (.askMaster r _) => s.dir.isSome || r.reqMode == .exclusive
    | _ => true
  | _ => true

variable {i : InstId} {n : Node} {rt : RecycleTask}

section
variable {strict : Prop} {s t : State} {cfg : Config}

/-- Giving up a request lowers nothing. -/
lemma Node.giveUp_lock (n : Node) :
    n.giveUp.lockMode = n.lockMode ∧ n.giveUp.isEdp = n.isEdp ∧ n.giveUp.pend = none := by
  unfold giveUp lockMode isEdp
  cases n.ctrl with
  | none => exact ⟨rfl, rfl, rfl⟩
  | some c => by_cases h : c.loadStatus = .isLoaded <;> simp [h]

lemma inv_giveUp (hs : s.view.Inv strict) (i : InstId) :
    (s.setNode i (s.node i).giveUp).view.Inv strict := by
  obtain ⟨hm, he, hp⟩ := (s.node i).giveUp_lock
  exact inv_setNode hs (hm ▸ le_refl _) (fun h => .inl (he ▸ h)) (.inr hp)

lemma inv_invalidated (hs : s.view.Inv strict)
    (h : n.lockMode = .null ∧ n.isEdp = (s.node i).isEdp ∧ n.pend = (s.node i).pend) :
    (s.setNode i n).view.Inv strict :=
  inv_setNode hs (h.1 ▸ null_le _) (fun _ => .inr h.1) (.inl h.2.2)

lemma Delivered.inv (hs : s.view.Inv strict) {k m} (hk : s.net[k]? = some m)
    (hok : noStale s (.deliver k) = true) (hx : strict → firstExclusive s (.deliver k) = true)
    (ht : Delivered cfg { s with net := s.net.eraseIdx k } m t) : t.view.Inv strict := by
  have hm : m ∈ s.net := mem_of_getElem? hk
  have hq : Quiet s.view { s with net := s.net.eraseIdx k }.view := quiet_drop s.view k
  have hs0 := inv_drop hs k
  cases ht with
  | @askMaster req isTry _ h =>
    refine h.inv hs0 (hq.freshOk (hs.fresh req (.inl ⟨isTry, hm⟩))) ?_ ?_
    · rintro r' (⟨b, hb⟩ | hr')
      · exact (pairwise_taken AskDistinct.symm hs.asks hk hb _ _ _ _ rfl rfl).symm
      · exact (hs.ask_queue req isTry hm r' hr').symm
    · intro hst hdir
      have h := hx hst
      simpa [firstExclusive, hk, show s.dir = none from hdir] using h
  | ignored => exact hs0
  | @needLoad i a _ y p n hp hn =>
    obtain ⟨hpend, rfl⟩ := awaited_some hp
    have hw : s.view.Waits i p.req.rsn := ⟨p, hpend, rfl⟩
    have hnl := hs.needLoad i a _ y hm hw
    obtain ⟨c, rfl⟩ := dcsHandleAckNeedLoad_some hn
    have hok := hq.needLoadOk hnl
    rw [view_granted _ i _ rfl]
    refine hs0.grant (.inl ⟨hok, fun rt hrt => ?_, fun hst => ?_⟩) (fun j a k y hj hw => ?_)
      (fun _ => rfl) nofun
    · by_contra hd
      obtain ⟨-, -, -, hdone⟩ := hs.recycle rt hrt
      exact ((hdone (by simpa using hd)).2.2 i hnl.1).2 a _ y hm hw
    · exact (hs.strictMode hst).2 i a _ y hm hw
    · exact some.inj ((hs0.needLoad j a k y hj hw).1.symm.trans hok.1)
  | @already i a _ md b p n m hp hn =>
    obtain ⟨hpend, rfl⟩ := awaited_some hp
    have hw : s.view.Waits i p.req.rsn := ⟨p, hpend, rfl⟩
    obtain ⟨hconv, hown⟩ := hs.already i a _ md b hm hw
    obtain ⟨c, c', hc, he, hc', rfl, rfl⟩ := dcsHandleAckAlreadyOwner_some hn
    have hc'' : c'.lockMode = (if md = .exclusive then .exclusive else .share) ∧
        c'.isEdp = false := by
      rcases dtcBufFinish_some hc' with ⟨-, -, rfl⟩ | ⟨-, rfl⟩ <;> exact ⟨rfl, he⟩
    refine inv_convGrant hs0 (hq.convOk hconv) hpend ?_ rfl (fun _ => hc''.2) (fun _ => hc''.2)
      (fun j a' k' y' hj hwj => ?_)
    · show c'.lockMode ≤ md
      rw [hc''.1]
      obtain ⟨⟨cvt, hcvt, -, -, hcm⟩, -⟩ := hconv
      have hnull := (hs.conv_ok cvt hcvt).2
      rw [hcm] at hnull
      revert hnull
      cases md <;> decide
    · have hj' := (hs0.needLoad j a' k' y' hj hwj).1
      exact some.inj (hj'.symm.trans hown)
  | error => exact inv_giveUp hs0 _
  | @askOwner o req isRetry hp =>
    exact inv_ownerTransfer hs0 hp (hs.key_lt _ hm _ rfl) fun hw => hs.ask o req isRetry hm hw
  | @ready m p n _ hp hn =>
    obtain ⟨hp, hrsn⟩ := awaited_some hp
    have hw : s.view.Waits m.dst m.rsn := ⟨p, hp, hrsn⟩
    obtain ⟨hconv, hown⟩ := hs.ready m hm hw
    obtain ⟨c, c1, c', -, -, hc1, hc', rfl, rfl⟩ := dcsHandleAckPageReady_some hn
    obtain ⟨hmode, -, -, hedp, -⟩ := dcsHandlePageFromOwner_some hc1
    have hc'' : c'.lockMode = m.mode ∧ c'.isEdp = c1.isEdp := by
      rcases dtcBufFinish_some hc' with ⟨-, -, rfl⟩ | ⟨-, rfl⟩ <;> exact ⟨hmode, rfl⟩
    refine inv_convGrant hs0 (hrsn ▸ hq.convOk hconv) hp ?_ rfl (fun hx => ?_)
      (fun h => absurd h hown) (fun j a' k' y' hj hwj => ?_)
    · show c'.lockMode ≤ m.mode
      rw [hc''.1]
      exact le_refl _
    · show c'.isEdp = false
      rw [hc''.2, hedp]
      simp [hx]
    · obtain ⟨-, -, hready, -⟩ := hs.needLoad j a' k' y' (mem_of_mem_eraseIdx hj) hwj
      exact absurd hw (hready m hm)
  | @claim c b _ h =>
    obtain ⟨hold, hnull⟩ := hs.claim_old c b hm
    refine h.inv hs0 hold hnull (fun hcur => ⟨?_, fun i a n y hi hw => ?_⟩)
      ?_
    · obtain ⟨h1, h2⟩ := hs.claim c b hm hcur
      exact ⟨h1, h2⟩
    · obtain ⟨cvt, hcvt, hci, hcn, -⟩ := hcur
      obtain ⟨-, -, -, hno⟩ := hs.needLoad i a n y (mem_of_mem_eraseIdx hi) hw
      exact hno c b hm cvt hcvt (Prod.ext hci hcn)
    · intro e cvt hdir hcvt hsame hval
      have hdir' : s.dir = some e := hdir
      simpa [noStale, hk, hdir', hcvt, hsame, hval] using hok
  | invld hp hn => exact inv_invalidated hs0 (bufInvalidatePageWithVersion_lock hn)
  | invldOwner hn =>
    obtain ⟨h1, h2, h3, -⟩ := bufInvalidatePageOwner_lock hn
    exact inv_invalidated hs0 ⟨h1, h2, h3⟩
  | @recycleOwner src time _ _ l c _ h =>
    have hclock : ({ s with net := s.net.eraseIdx k }.setNode cfg.master
        ((s.node cfg.master).dtcUpdate l c)).view.Inv strict :=
      inv_setNode hs0 (le_refl _) .inl (.inl rfl)
    refine h.inv hclock fun e hdir hgone => ?_
    have hdir' : s.dir = some e := hdir
    obtain ⟨hmode, hpend⟩ := node_dtcUpdate { s with net := s.net.eraseIdx k } cfg.master src l c
    rw [hmode, hpend]
    simpa [noStale, hk, hdir', hgone] using hok

/-- An instance that waits holds the ctrl it latched. -/
def PendCtrl (s : State) : Prop := ∀ i, (s.node i).pend.isSome → (s.node i).ctrl.isSome

lemma PendCtrl.pend_none (hs : PendCtrl s) (h : (s.node i).ctrl = none ∨ (s.node i).pend = none) :
    (s.node i).pend = none := by
  rcases h with h | h
  · by_contra hne
    have := hs i (isSome_iff_ne_none.mpr hne)
    simp [h] at this
  · exact h

section
variable (hs : s.view.Inv strict)
include hs

lemma inv_request {p b} (hm : n.lockMode = (s.node i).lockMode) (he : n.isEdp = (s.node i).isEdp)
    (hp : n.pend = some p) (hi : p.req.instId = i) (hn : p.req.rsn = s.now)
    (hmd : p.req.reqMode ≠ .null) :
    (({ s with now := s.now + 1 }.setNode i n).send [.askMaster p.req b]).view.Inv strict := by
  have hview : (({ s with now := s.now + 1 }.setNode i n).send [.askMaster p.req b]).view =
      { s.view with
        pend := update s.view.pend i (some p)
        net := s.view.net ++ [Msg.askMaster p.req b], now := s.view.now + 1 } := by
    have h := view_setNode_same { s with now := s.now + 1 } i n hm he
    rw [hp] at h
    exact congrArg (fun v : View => { v with net := v.net ++ [Msg.askMaster p.req b] }) h
  rw [hview]
  exact hs.request hi hn hmd

lemma inv_invldCopy {k : Nat} {t : InvldTask} (hk : s.tasks[k]? = some t)
    (hn : n.lockMode = .null ∧ n.isEdp = (s.node i).isEdp ∧ n.pend = (s.node i).pend) :
    ({ s with tasks := s.tasks.set k { t with
      waiting := waitingAfter cfg t.waiting i true } }.setNode i n).view.Inv strict := by
  have hs1 : (s.setNode i n).view.Inv strict := inv_invalidated hs hn
  have ht : t ∈ s.tasks := mem_of_getElem? hk
  refine hs1.setTasks (fun t' ht' => ?_) (fun t' ht' => ?_)
  · rcases mem_or_eq_of_mem_set ht' with h | rfl
    · exact hs1.task t' h
    obtain ⟨h1, h2, h3⟩ := hs1.task t ht
    refine ⟨h1, h2, fun hc hf j hj => ?_⟩
    have hji : j ≠ i := by
      rintro rfl
      rw [view_setNode] at hj
      simp [hn.1] at hj
    rcases h3 hc hf j hj with h | h | h
    · exact .inl h
    · exact .inr (.inl h)
    · exact .inr (.inr (by simpa [waitingAfter] using ⟨hji, h⟩))
  · rcases mem_or_eq_of_mem_set ht' with h | rfl
    · exact .inl ⟨t', h, rfl⟩
    · exact .inl ⟨t, ht, rfl⟩

lemma inv_invldFail {k : Nat} {t : InvldTask} {w : Finset InstId} (hk : s.tasks[k]? = some t) :
   { s with tasks := s.tasks.set k { t with waiting := w, failed := true } }.view.Inv strict := by
  have ht : t ∈ s.tasks := mem_of_getElem? hk
  refine hs.setTasks (fun t' ht' => ?_) (fun t' ht' => ?_)
  · rcases mem_or_eq_of_mem_set ht' with h | rfl
    · exact hs.task t' h
    · obtain ⟨h1, h2, -⟩ := hs.task t ht
      exact ⟨h1, h2, fun _ hf => by cases hf⟩
  · rcases mem_or_eq_of_mem_set ht' with h | rfl
    · exact .inl ⟨t', h, rfl⟩
    · exact .inl ⟨t, ht, rfl⟩

lemma inv_recycling {rt'} (hr : s.recycling = some rt) (hok : s.view.RecycleOk rt') :
    { s with recycling := some rt' }.view.Inv strict := by
  obtain ⟨-, hconv, -⟩ := hs.recycle rt hr
  refine hs.setRecycling (b := s.view.busy) hconv ?_
  rintro rt ⟨⟩
  exact hok

end

lemma dcsRequestPage_lock (n : Node) (i : InstId) (sid rsn : Nat) (mode : LockMode) :
    (dcsRequestPage n i sid rsn mode).1.lockMode = n.lockMode ∧
    (dcsRequestPage n i sid rsn mode).1.isEdp = n.isEdp := by
  cases hc : n.ctrl with
  | none => simp [dcsRequestPage, Node.lockMode, Node.isEdp, hc, BufCtrl.fresh]
  | some c =>
    by_cases hl : c.loadStatus = .loadFailed <;>
      simp [dcsRequestPage, Node.lockMode, Node.isEdp, hc, hl]

section
variable (hs : s.view.Inv strict)
include hs

lemma inv_recycleItems {e} (hdir : s.dir = some e) (hidle : bufResIsRecyclable e = true) : { s with
      dir := some { e with pending := true }
      recycling := some ⟨some e.readonlyCopies, e.readonlyCopies.erase e.claimedOwner,
        false, false⟩ }.view.Inv strict := by
  simp only [bufResIsRecyclable, Bool.and_eq_true, isNone_iff_eq_none] at hidle
  have hconv : s.view.conv = none := by simp [view, hdir, hidle.1]
  have hview : { s with
      dir := some { e with pending := true }
      recycling := some ⟨some e.readonlyCopies, e.readonlyCopies.erase e.claimedOwner,
        false, false⟩ }.view = { s.view with
      busy := true
      recycling := some ⟨some e.readonlyCopies, e.readonlyCopies.erase e.claimedOwner,
        false, false⟩ } := by
    simp [view, hdir]
  rw [hview]
  refine hs.setRecycling hconv ?_
  rintro rt ⟨⟩
  refine ⟨rfl, hconv, fun _ j hj hm => ?_, by rintro ⟨⟩⟩
  have hown : s.view.owner = some e.claimedOwner := by simp [view, hdir]
  rcases hs.holders j hm with h | h | ⟨c, hc, -⟩
  · exact absurd h hj
  · refine Finset.mem_erase.mpr ⟨fun h' => hj (h' ▸ hown), ?_⟩
    simpa [view, hdir] using h
  · cases hconv.symm.trans hc

section
variable (hr : s.recycling = some rt) (hen : invldEnabled cfg s rt.waiting i = true)
include hr hen

/-- While a copy is waited for, the owner is not invalidated. -/
lemma ownerDone_of_enabled : rt.ownerDone = true → False := by
  intro hd
  obtain ⟨-, -, -, hdone⟩ := hs.recycle rt hr
  have hmem := (invldEnabled_true hen).1
  rw [(hdone hd).2.1] at hmem
  cases hmem

lemma inv_recycleCopy (hn : bufInvalidatePageWithVersion (s.node i) = some n) :
    ({ s with recycling := some { rt with
      waiting := waitingAfter cfg rt.waiting i true } }.setNode i n).view.Inv strict := by
  have hl := bufInvalidatePageWithVersion_lock hn
  have hs1 : (s.setNode i n).view.Inv strict := inv_invalidated hs hl
  obtain ⟨hb, hc, hcopy, -⟩ := hs1.recycle rt hr
  refine inv_recycling hs1 hr
    ⟨hb, hc, fun hf j hj hm => ?_, fun hd => (ownerDone_of_enabled hs hr hen hd).elim⟩
  have hji : j ≠ i := by
    rintro rfl
    rw [view_setNode] at hm
    simp [hl.1] at hm
  simpa [waitingAfter] using ⟨hji, hcopy hf j hj hm⟩

end

lemma inv_recycleInvldOwner (hctrl : PendCtrl s) {e} (hdir : s.dir = some e)
    (hr : s.recycling = some rt) (hw : rt.waiting = ∅) (hf : rt.failed = false)
    (hn : bufInvalidatePageOwner (s.node e.claimedOwner) = some n) :
    ({ s with recycling := some { rt with ownerDone := true } }.setNode
      e.claimedOwner n).view.Inv strict := by
  obtain ⟨h1, h2, h3, h4⟩ := bufInvalidatePageOwner_lock hn
  have hs1 : (s.setNode e.claimedOwner n).view.Inv strict := inv_invalidated hs ⟨h1, h2, h3⟩
  obtain ⟨hb, hc, hcopy, -⟩ := hs1.recycle rt hr
  refine inv_recycling hs1 hr ⟨hb, hc, hcopy, fun _ => ⟨hf, hw, fun i hi => ?_⟩⟩
  have hown : s.view.owner = some e.claimedOwner := by simp [view, hdir]
  cases hi.symm.trans hown
  have hpend : n.pend = none := h3.trans (hctrl.pend_none h4)
  rw [view_setNode]
  refine ⟨by simpa using h1, ?_⟩
  rintro a k y - ⟨p, hp, -⟩
  simp [hpend] at hp

lemma inv_recycleDone {e} (hdir : s.dir = some e) (hr : s.recycling = some rt)
    (hd : rt.ownerDone = true) : { s with dir := none, recycling := none }.view.Inv strict := by
  obtain ⟨hb, hc, hcopy, hdone⟩ := hs.recycle rt hr
  obtain ⟨hf, hw, hown⟩ := hdone hd
  have ho : s.view.owner = some e.claimedOwner := by simp [view, hdir]
  obtain ⟨hnull, hack⟩ := hown _ ho
  have hview : { s with dir := none, recycling := none }.view = { s.view with
      owner := none, conv := none, readonly := ∅, queue := [], busy := false
      dirMode := .null, recycling := none } := rfl
  refine hs.removeEntry (fun j => ?_) hc (fun i a n y hm hwt => ?_)
  · by_contra hj
    by_cases hjo : s.view.owner = some j
    · obtain rfl : j = e.claimedOwner := some.inj (hjo.symm.trans ho)
      exact hj hnull
    · have := hcopy hf j hjo hj
      rw [hw] at this
      cases this
  · obtain rfl : i = e.claimedOwner :=
      some.inj ((hs.needLoad i a n y hm hwt).1.symm.trans ho)
    exact hack a n y hm hwt

lemma inv_step (hctrl : PendCtrl s) {a : Act} (hok : noStale s a = true)
    (hx : strict → firstExclusive s a = true) (ht : step cfg s a = some t) : t.view.Inv strict := by
  cases step_cases ht with
  | @request i sid mode hp hlt =>
    obtain ⟨hm, he⟩ := dcsRequestPage_lock (s.node i) i sid s.now mode
    refine inv_request hs hm he rfl rfl rfl fun h => ?_
    rw [show mode = .null from h] at hlt
    exact Nat.not_lt_zero _ hlt
  | @tryRequest i sid hp hc =>
    refine inv_request (p := ⟨⟨i, sid, s.now, .share, .null, 0⟩, true⟩) hs ?_ ?_ rfl rfl rfl ?_
    · simp [dcsTryGetPageShareOwner, Node.lockMode, hc, BufCtrl.fresh]
    · simp [dcsTryGetPageShareOwner, Node.isEdp, hc, BufCtrl.fresh]
    · rintro ⟨⟩
  | deliver hk hd => exact hd.inv hs hk hok hx
  | drop => exact inv_drop hs _
  | timeout => exact inv_giveUp hs _
  | invldFail hk => exact inv_invldFail hs hk
  | invldCopy hk hen hn => exact inv_invldCopy hs hk (bufInvalidatePageWithVersion_lock hn)
  | invldResend | recycleResend => exact inv_send hs ⟨by rintro k ⟨⟩, trivial⟩
  | @invldDone k x hk hw =>
    have hs1 : { s with tasks := s.tasks.eraseIdx k }.view.Inv strict :=
      hs.setTasks (fun t ht => hs.task t (mem_of_mem_eraseIdx ht))
        fun t ht => .inl ⟨t, mem_of_mem_eraseIdx ht, rfl⟩
    refine inv_invldEnd hs1 (hs.task x (mem_of_getElem? hk)) hw ?_
    simp only [noStale, hk] at hok
    have hconv : { s with tasks := s.tasks.eraseIdx k }.view.conv = s.view.conv := rfl
    rw [hconv]
    cases hf : x.failed <;> simpa [hf] using hok
  | recycleItems he hidle => exact inv_recycleItems hs he hidle
  | recycleFail hr hen =>
    obtain ⟨hb, hc, -⟩ := hs.recycle _ hr
    exact inv_recycling hs hr
      ⟨hb, hc, by rintro ⟨⟩, fun hd => (ownerDone_of_enabled hs hr hen hd).elim⟩
  | recycleCopy hr hen hn => exact inv_recycleCopy hs hr hen hn
  | ownerFail he hr hd =>
    obtain ⟨hb, hc, -⟩ := hs.recycle _ hr
    exact inv_recycling hs hr ⟨hb, hc, by rintro ⟨⟩, fun h => by cases hd.symm.trans h⟩
  | recycleInvldOwner he hr hw hf hd hn => exact inv_recycleInvldOwner hs hctrl he hr hw hf hn
  | recycleOwnerTimeout he hr hd =>
    obtain ⟨hb, hc, -⟩ := hs.recycle _ hr
    exact inv_send (inv_recycling hs hr ⟨hb, hc, by rintro ⟨⟩, fun h => by cases hd.symm.trans h⟩)
      ⟨by rintro k ⟨⟩, trivial⟩
  | @recycleFailed e rt he hr =>
    have hview : { s with dir := some { e with pending := false }, recycling := none }.view =
        { s.view with busy := false, recycling := none } := by
      simp [view, he]
    rw [hview]
    exact hs.setRecycling (hs.recycle _ hr).2.1 (by rintro rt ⟨⟩)
  | recycleDone he hr hd => exact inv_recycleDone hs he hr hd
  | write hc | flush hc =>
    refine inv_setNode hs ?_ (fun h => .inl ?_) (.inl rfl)
    · rw [lockMode_some hc]
      exact le_refl _
    · rw [isEdp_some hc]
      exact h
  | @evict i c =>
    have hs1 : { s with now := s.now + 1 }.view.Inv strict := hs.quiet (quiet_now s.view 1)
    have hs2 : ({ s with now := s.now + 1 }.setNode i { (s.node i) with ctrl := none }).view.Inv
        strict :=
      inv_setNode hs1 (null_le _) (fun h => by cases h) (.inl rfl)
    cases hown : c.isOwner
    · simpa [send, hown] using hs2
    · exact inv_send hs2 ⟨by rintro k ⟨⟩, trivial⟩
  | cleanEdp hc =>
    refine inv_setNode hs ?_ (fun h => by cases h) (.inl rfl)
    rw [lockMode_some hc]
    exact le_refl _
  | @cleanEdpMaster lsn e he =>
    have hview : { s with dir := some { e with edpMap := ∅ } }.view = s.view := by
      simp [view, he]
    rw [hview]
    exact hs
  | otherWork => exact inv_setNode hs (le_refl _) .inl (.inl rfl)
  | tick => exact hs.quiet (quiet_now s.view _)

end

/-- An instance that still waits holds the lock and the ctrl it had. -/
lemma step_waits {a} (ht : step cfg s a = some t) {p} (hp : (t.node i).pend = some p) :
    ((s.node i).pend = some p ∧ (t.node i).lockMode = (s.node i).lockMode ∧
      ((s.node i).ctrl.isSome → (t.node i).ctrl.isSome)) ∨
    (p.req.rsn = s.now ∧ p.req.instId = i ∧ t.now = s.now + 1 ∧ (t.node i).ctrl.isSome) := by
  rcases step_nodeAt ht i with h | ⟨n, hn, h⟩ <;> rw [h] at hp ⊢
  · exact .inl ⟨hp, rfl, id⟩
  cases hn with
  | request | tryRequest =>
    cases hp
    cases step_cases ht
    exact .inr ⟨rfl, rfl, rfl, rfl⟩
  | needLoad | already | ready | giveUp => cases hp
  | write hc | flush hc | cleanEdp hc =>
    exact .inl ⟨hp, by rw [lockMode_some hc]; rfl, fun _ => rfl⟩
  | transfer _ hidle | invalidate hidle | evict _ hidle => cases hidle.symm.trans hp
  | clocks => exact .inl ⟨hp, rfl, id⟩

lemma pendCtrl_step (hs : PendCtrl s) {a} (ht : step cfg s a = some t) : PendCtrl t := by
  intro i hi
  obtain ⟨p, hp⟩ := isSome_iff_exists.mp hi
  rcases step_waits ht hp with ⟨hp, -, hc⟩ | ⟨-, -, -, hc⟩
  · exact hc (hs i (by rw [hp]; rfl))
  · exact hc

end

/-! ## Runs -/

lemma Init.inv {s} (h : Init s) (strict : Prop) : s.view.Inv strict := by
  have hmode : ∀ i, s.view.mode i = .null := fun i => by
    simp [State.view, Node.lockMode, h.ctrl i]
  have hedp : ∀ i, s.view.edp i = false := fun i => by simp [State.view, Node.isEdp, h.ctrl i]
  have hpend : ∀ i, s.view.pend i = none := h.pend
  have hnet : s.view.net = [] := h.net
  have htasks : s.view.tasks = [] := h.tasks
  have hrec : s.view.recycling = none := h.recycling
  have hconv : s.view.conv = none := by simp [view, h.dir]
  have howner : s.view.owner = none := by simp [view, h.dir]
  have hqueue : s.view.queue = [] := by simp [view, h.dir]
  constructor <;> simp [hmode, hedp, hpend, hnet, htasks, hrec, hconv, howner, hqueue, View.Fresh,
    View.ModeOk]

/-- The page's lock is held exclusively by one instance, or shared. -/
def Swmr (s : State) : Prop :=
  ∀ i j, (s.node i).lockMode = .exclusive → j ≠ i → (s.node j).lockMode = .null

/-- The mode in the directory is at least the lock of the owner it names,
unless a request is converting or the owner has not handled its answer. -/
def ModeDominates (s : State) : Prop :=
  ∀ e, s.dir = some e → e.converting = none → (s.node e.claimedOwner).pend = none →
    (s.node e.claimedOwner).lockMode ≤ e.mode

section
variable {cfg : Config} {s : State}

lemma reachable_inv (strict : Prop) {ok}
    (hok : ∀ s a, ok s a → noStale s a = true ∧ (strict → firstExclusive s a = true))
    (h : ReachableBy (step cfg) Init ok s) : s.view.Inv strict := by
  have hinv : s.view.Inv strict ∧ PendCtrl s := by
    refine h.invariant (P := fun s => s.view.Inv strict ∧ PendCtrl s)
      (fun s hs => ⟨hs.inv strict, fun i hi => ?_⟩) fun s a t ha hs ht => ?_
    · simp [hs.pend i] at hi
    · exact ⟨inv_step hs.1 hs.2 (hok s a ha).1 (hok s a ha).2 ht, pendCtrl_step hs.2 ht⟩
  exact hinv.1

/-- As long as no stale message or thread is acted on, an exclusive lock
excludes every other lock. -/
theorem swmr_of_noStale (h : ReachableBy (step cfg) Init (fun s a => noStale s a = true) s) :
    Swmr s :=
  (reachable_inv False (fun _ _ ha => ⟨ha, False.elim⟩) h).swmr

/-- An exclusive lock that is handed over and back, with one read-only
copy invalidated on the way. -/
def handoverRun : List Act :=
  [.request 1 0 .share, .deliver 0, .deliver 0,
   .request 2 0 .share, .deliver 0, .deliver 0, .deliver 0, .deliver 0,
   .request 3 0 .exclusive, .deliver 0, .invldCopy 0 2, .invldDone 0, .deliver 0, .deliver 0,
   .deliver 0]

theorem swmr_handover : ∃ s, runOk (step ⟨0, 1000⟩) noStale start handoverRun = some s ∧
      (s.node 3).lockMode = .exclusive ∧ Swmr s := by
  obtain ⟨s, hs, hx⟩ := exists_of_runOk_map (step ⟨0, 1000⟩) noStale start
    handoverRun (fun s => (s.node 3).lockMode) .exclusive (by decide +kernel)
  exact ⟨s, hs, hx, swmr_of_noStale (.of_runOk _ (.init start_init) hs)⟩

/-- Instance 2 gets the page three times over a late invalidation of its
ownership, and claims it twice. The first claim is accepted for the second
request: `drc_is_same_claim_request` does not look at the request number.
When the second one arrives, instance 2 waits with a third request, which
the late claim ends; its retry is told that it already owns the page that
instance 1 has not given up. -/
def staleClaimRun : List Act :=
  [.request 2 0 .exclusive, .deliver 0, .deliver 0,
   .recycleItems, .recycleOwnerTimeout, .recycleDone,
   .request 1 0 .exclusive, .deliver 1, .deliver 1, .deliver 1, .deliver 1,
   .request 2 0 .exclusive, .deliver 1, .deliver 1, .deliver 1,
   .deliver 0,
   .request 2 0 .exclusive, .deliver 1, .deliver 1, .deliver 1,
   .deliver 0,
   .request 1 0 .exclusive, .deliver 1, .deliver 1, .deliver 1, .deliver 1,
   .request 2 0 .exclusive, .deliver 1,
   .deliver 0,
   .timeout 2, .request 2 0 .exclusive, .deliver 1, .deliver 1]

theorem staleClaim_two_writers :
    ∃ s, Reachable (step ⟨0, 1000⟩) Init s ∧ (s.node 1).lockMode = .exclusive ∧
      (s.node 2).lockMode = .exclusive := by
  obtain ⟨s, hs, hx⟩ := exists_of_run_map (step ⟨0, 1000⟩) start staleClaimRun
    (fun s => ((s.node 1).lockMode, (s.node 2).lockMode)) (.exclusive, .exclusive)
    (by decide +kernel)
  obtain ⟨h₁, h₂⟩ := Prod.mk.inj hx
  exact ⟨s, .of_run _ (.init start_init) hs, h₁, h₂⟩

/-- If moreover every entry is made for an exclusive request, the recorded
mode bounds the owner's lock. -/
theorem modeDominates_of_firstExclusive (h : ReachableBy (step cfg) Init
      (fun s a => (noStale s a && firstExclusive s a) = true) s) : ModeDominates s := by
  have hinv := reachable_inv True (fun s a ha => ?_) h
  · intro e he hconv _
    have howner : s.view.owner = some e.claimedOwner := by simp [view, he]
    have hcv : s.view.conv = none := by simp [view, he, hconv]
    rcases (hinv.strictMode trivial).1 _ howner with hle | ⟨c, hc, -⟩
    · simpa [view, he] using hle
    · cases hcv.symm.trans hc
  · rw [Bool.and_eq_true] at ha
    exact ⟨ha.1, fun _ => ha.2⟩

/-- The first request is exclusive, the page is then shared and upgraded. -/
def upgradeRun : List Act :=
  [.request 1 0 .exclusive, .deliver 0, .deliver 0,
   .request 2 0 .share, .deliver 0, .deliver 0, .deliver 0, .deliver 0,
   .request 1 0 .exclusive, .deliver 0, .invldCopy 0 2, .invldDone 0, .deliver 0, .deliver 0]

theorem modeDominates_upgrade :
    ∃ s, runOk (step ⟨0, 1000⟩) (fun s a => noStale s a && firstExclusive s a)
        start upgradeRun = some s ∧
      (s.node 1).lockMode = .exclusive ∧ ModeDominates s := by
  obtain ⟨s, hs, hx⟩ := exists_of_runOk_map (step ⟨0, 1000⟩)
    (fun s a => noStale s a && firstExclusive s a) start upgradeRun
    (fun s => (s.node 1).lockMode) .exclusive (by decide +kernel)
  exact ⟨s, hs, hx, modeDominates_of_firstExclusive (.of_runOk _ (.init start_init) hs)⟩

/-- One shared request for a page without entry: the master records S and
`dcs_set_ctrl4granted` takes X. -/
theorem firstShare_not_modeDominates :
    ∃ s, Reachable (step ⟨0, 1000⟩) Init s ∧ ¬ ModeDominates s := by
  obtain ⟨s, hs, hx⟩ := exists_of_run_map (step ⟨0, 1000⟩) start
    [.request 1 0 .share, .deliver 0, .deliver 0]
    (fun s => (s.dir.map fun e => (e.claimedOwner, e.converting, e.mode), (s.node 1).pend,
      (s.node 1).lockMode)) (some (1, none, .share), none, .exclusive) (by decide +kernel)
  refine ⟨s, .of_run _ (.init start_init) hs, fun hdom => ?_⟩
  simp only [Prod.mk.injEq, map_eq_some_iff] at hx
  obtain ⟨⟨e, he, howner, hconv, hmode⟩, hpend, hlock⟩ := hx
  have hle := hdom e he hconv (howner ▸ hpend)
  rw [howner, hlock, hmode] at hle
  exact absurd hle (by decide)

/-- As long as nothing stale is acted on, the directory knows every holder: it is the owner,
has a read-only copy, or makes the request that is converting; an exclusive holder is the
owner, or converting to that mode. -/
theorem directory_knows_holders
    (h : ReachableBy (step cfg) Init (fun s a => noStale s a = true) s) (i : InstId)
    (hi : (s.node i).lockMode ≠ .null) :
    ∃ e, s.dir = some e ∧
      (e.claimedOwner = i ∨ i ∈ e.readonlyCopies ∨ ∃ r, e.converting = some r ∧ r.instId = i) ∧
      ((s.node i).lockMode = .exclusive → e.claimedOwner = i ∨
        ∃ r, e.converting = some r ∧ r.instId = i ∧ r.reqMode = .exclusive) := by
  have hinv := reachable_inv False (fun _ _ ha => ⟨ha, False.elim⟩) h
  have hholder := hinv.holders i hi
  have hexcl := hinv.xholders i
  cases hdir : s.dir with
  | none => simp [view, hdir] at hholder
  | some e =>
    simp only [view, hdir, map_some, bind_some, elim_some, some.injEq] at hholder hexcl
    exact ⟨e, rfl, hholder, hexcl⟩

theorem directory_knows_new_owner : ∃ s,
    runOk (step ⟨0, 1000⟩) noStale start handoverRun = some s ∧
      ∃ e, s.dir = some e ∧ (e.claimedOwner = 3 ∨
        ∃ r, e.converting = some r ∧ r.instId = 3 ∧ r.reqMode = .exclusive) := by
  obtain ⟨s, hs, hx⟩ := exists_of_runOk_map (step ⟨0, 1000⟩) noStale start
    handoverRun (fun s => (s.node 3).lockMode) .exclusive (by decide +kernel)
  obtain ⟨e, hdir, -, hexcl⟩ := directory_knows_holders (.of_runOk _ (.init start_init) hs) 3
    (by simp [hx])
  exact ⟨s, hs, e, hdir, hexcl hx⟩

end

end Cantian.Dcs
