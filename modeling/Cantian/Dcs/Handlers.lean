import Cantian.Dcs.Master
import Cantian.Dcs.ViewStep

/-!
# Page protocol — handlers on the lock view

What the handlers do to the locks, the directory and the messages, said as
compositions of the elementary changes of `ViewStep`: the master's answer
to a request and to a claim, the end of an invalidation, the recycling of
an entry, a grant, a transfer by the owner. Where a handler can act on
something stale, its lemma has the condition under which it does not.
-/

namespace Cantian.Dcs

open View Function List Option Bool Finset State Node LockMode

/-! ## Views of changed states -/

section
variable (s : State) (i : InstId) (n : Node)

lemma view_setNode : (s.setNode i n).view = { s.view with
      mode := update s.view.mode i n.lockMode
      edp := update s.view.edp i n.isEdp
      pend := update s.view.pend i n.pend } := by
  have h : ∀ {β : Type} (f : Node → β),
      (fun j => f ((s.setNode i n).node j)) = update (fun j => f (s.node j)) i (f n) := by
    intro β f
    funext j
    rcases eq_or_ne j i with rfl | hj
    · simp [setNode]
    · simp [setNode, hj]
  simp only [view, h lockMode, h isEdp, h pend]
  rfl

lemma view_setNode_same (hm : n.lockMode = (s.node i).lockMode) (he : n.isEdp = (s.node i).isEdp) :
    (s.setNode i n).view = { s.view with pend := update s.view.pend i n.pend } := by
  have hmode : update s.view.mode i n.lockMode = s.view.mode := by
    rw [hm]
    exact update_eq_self i s.view.mode
  have hedp : update s.view.edp i n.isEdp = s.view.edp := by
    rw [he]
    exact update_eq_self i s.view.edp
  rw [view_setNode, hmode, hedp]

/-- Raised clocks leave every lock and every wait as it is. -/
lemma node_dtcUpdate (j : InstId) (l c : Nat) :
    ((s.setNode i ((s.node i).dtcUpdate l c)).node j).lockMode = (s.node j).lockMode ∧
      ((s.setNode i ((s.node i).dtcUpdate l c)).node j).pend = (s.node j).pend := by
  rcases eq_or_ne j i with rfl | hj
  · simp [setNode, dtcUpdate, lockMode]
  · simp [setNode, hj]

end

section
variable {strict : Prop} {s : State}

section
variable (hs : s.view.Inv strict)
include hs

lemma inv_drop (k : Nat) : { s with net := s.net.eraseIdx k }.view.Inv strict :=
  hs.quiet (quiet_drop s.view k)

/-- A handler that lowers the lock of an instance or ends its wait. -/
lemma inv_setNode {i n} (hm : n.lockMode ≤ (s.node i).lockMode)
    (he : n.isEdp = true → (s.node i).isEdp = true ∨ n.lockMode = .null)
    (hp : n.pend = (s.node i).pend ∨ n.pend = none) : (s.setNode i n).view.Inv strict := by
  rw [view_setNode]
  exact hs.quiet (quiet_node s.view hm he hp)

lemma inv_send {m} (hm : SendOk strict s.view m) : (s.send [m]).view.Inv strict :=
  hs.send hm

/-- An error answer to a request with an old number. -/
lemma inv_sendError {i a n} (hn : n < s.now) : (s.send [.errorMsg i a n]).view.Inv strict :=
  inv_send hs ⟨by rintro k ⟨⟩; exact hn, trivial⟩

end

end

/-! ## The master -/

variable {req : DrcReqInfo}

section
variable {strict : Prop} {s : State}

lemma dcsNotifyOwnerForPage_isReply (o : InstId) (r : DrcReqInfo) (isRetry isTry : Bool) :
    IsReply (some o) r (dcsNotifyOwnerForPage o r isRetry isTry) := by
  unfold dcsNotifyOwnerForPage
  split_ifs with h
  · exact .inl ⟨isTry, rfl, h ▸ rfl⟩
  · exact .inr ⟨o, isRetry, rfl, rfl⟩

lemma dcsNotifyAfterClaim_isReply (cfg : Config) (b : Bool) (o : InstId) (r : DrcReqInfo) :
    IsReply (some o) r (dcsNotifyAfterClaim cfg b o r) := by
  unfold dcsNotifyAfterClaim
  split
  · exact .inr ⟨o, false, rfl, rfl⟩
  · exact dcsNotifyOwnerForPage_isReply o r false false

section
variable (hs : s.view.Inv strict)
include hs

/-- The copies a conversion leaves to invalidate are all but the owner's
and the requester's. -/
lemma inv_notifyOrInvalidate {r reply o fromClaim} (hconv : s.view.conv = some r)
    (ho : s.view.owner = some o) (hreply : IsReply s.view.owner r reply) :
    (notifyOrInvalidate s r reply fromClaim
      ((s.view.readonly.erase r.instId).erase o)).view.Inv strict := by
  have hhold : ∀ j, s.view.mode j ≠ .null →
      s.view.owner = some j ∨ j = r.instId ∨ j ∈ (s.view.readonly.erase r.instId).erase o := by
    intro j hj
    rcases hs.holders j hj with h | h | ⟨c, hc, hci⟩
    · exact .inl h
    · by_cases hjr : j = r.instId
      · exact .inr (.inl hjr)
      · by_cases hjo : j = o
        · exact .inl (hjo ▸ ho)
        · exact .inr (.inr (mem_erase.mpr ⟨hjo, mem_erase.mpr ⟨hjr, h⟩⟩))
    · cases hconv.symm.trans hc
      exact .inr (.inl hci.symm)
  unfold notifyOrInvalidate
  split_ifs with hno
  · refine hs.setTasks (fun t ht => ?_) (fun t ht => ?_)
    · rcases mem_append.mp ht with ht | ht
      · exact hs.task t ht
      · rw [List.mem_singleton.mp ht]
        exact ⟨(hs.conv_ok r hconv).1, fun _ => hreply, fun _ _ => hhold⟩
    · rcases mem_append.mp ht with ht | ht
      · exact .inl ⟨t, ht, rfl⟩
      · rw [List.mem_singleton.mp ht]
        exact .inr hconv
  · refine inv_send hs (hreply.sendOk hs hconv fun hx j hj => ?_)
    have hempty : (s.view.readonly.erase r.instId).erase o = ∅ := by
      by_contra hne
      exact hno ⟨hne, hx⟩
    rcases hhold j hj with h | h | h
    · exact .inl h
    · exact .inr h
    · rw [hempty] at h
      cases h

/-- A request that must wait is queued, or replaces its older self there. -/
lemma inv_queued {e q} (hdir : s.dir = some e) (hr : s.view.FreshOk req)
    (hother : ∀ r', s.view.Fresh r' → r'.key ≠ req.key)
    (hq : q = drcReplaceItem req e.convertQ ∨ q = e.convertQ ++ [req]) :
    { s with dir := some { e with convertQ := q } }.view.Inv strict := by
  have hview : { s with dir := some { e with convertQ := q } }.view =
      { s.view with queue := q } := by
    simp [view, hdir]
  have hqueue : s.view.queue = e.convertQ := by
    simp [view, hdir]
  have hdist := hs.queue_distinct
  rw [hqueue] at hdist
  have hreq : ∀ r ∈ e.convertQ, req.key ≠ r.key ∧ r.key ≠ req.key := by
    intro r hr'
    have h := hother r (.inr (hqueue ▸ hr'))
    exact ⟨h.symm, h⟩
  have hmem : ∀ r ∈ q, r ∈ e.convertQ ∨ r = req := by
    intro r hr'
    rcases hq with rfl | rfl
    · exact drcReplaceItem_mem hr'
    · simpa using hr'
  rw [hview]
  refine hs.setQueue (fun r hr' => ?_) ?_ (fun r b hb r' hr' => ?_)
  · rcases hmem r hr' with h | rfl
    · exact hs.fresh r (.inr (hqueue ▸ h))
    · exact hr
  · rcases hq with rfl | rfl
    · exact drcReplaceItem_pairwise hdist hreq
    · refine pairwise_append.mpr ⟨hdist, pairwise_singleton _ _, fun r hr' r' h => ?_⟩
      rw [List.mem_singleton.mp h]
      exact (hreq r hr').2
  · rcases hmem r' hr' with h | rfl
    · exact hs.ask_queue r b hb r' (hqueue ▸ h)
    · exact hother r (.inl ⟨b, hb⟩)

/-- The entry of a request that starts its conversion. -/
lemma inv_converting {e} (hdir : s.dir = some e) (hbusy : e.pending = false)
    (htakes : takesSlot e req = true) (hle : ∀ c, e.converting = some c → c.rsn ≤ req.rsn)
    (hr : s.view.FreshOk req) (hother : ∀ r', s.view.Fresh r' → r'.key ≠ req.key) :
    { s with dir := some { e with
      converting := some (enters e req), cvtTime := req.rsn } }.view.Inv strict := by
  have hview : { s with dir := some { e with
      converting := some (enters e req), cvtTime := req.rsn } }.view =
      { s.view with conv := some (enters e req) } := by
    simp [view, hdir]
  obtain ⟨hinst, hrsn, -⟩ := enters_fields e req
  have hkey := enters_key e req
  rw [hview]
  refine hs.startConv (by simp [view, hdir, hbusy]) ?_ (hkey ▸ hother) fun c hconv => ?_
  · obtain ⟨h0, h1, h2, h3, h4, h5⟩ := hr
    exact ⟨hrsn ▸ h0, enters_reqMode e h1, by rw [hinst, hrsn]; exact h2, by rw [hkey]; exact h3,
      by rw [hkey]; exact h4, by rw [hkey]; exact h5⟩
  · have hconv : e.converting = some c := by simpa [view, hdir] using hconv
    have hi : c.instId = req.instId := by
      simp only [takesSlot, hconv, all_some, drcIsRetryRequest, and_eq_true, beq_iff_eq] at htakes
      exact htakes.1
    refine ⟨hi.trans hinst.symm, hrsn ▸ hle c hconv, ?_⟩
    simp only [enters, hconv]
    exact le_max_left _ _

lemma Asked.inv {t isTry} (ht : Asked s req isTry t) (hr : s.view.FreshOk req)
    (hother : ∀ r', s.view.Fresh r' → r'.key ≠ req.key)
    (hx : strict → s.dir = none → req.reqMode = .exclusive) : t.view.Inv strict := by
  cases ht with
  | refused => exact inv_sendError hs hr.1
  | @granted sync hdir =>
    obtain ⟨h1, h2, h3, h4⟩ : s.view.owner = none ∧ s.view.conv = none ∧ s.view.readonly = ∅ ∧
        s.view.busy = false := by
      simp [view, hdir]
    have hnew := hs.newEntry (i := req.instId) (a := req.instSid) (n := req.rsn) (y := sync)
      h1 h2 h3 h4 hr.1 fun hst => hx hst hdir
    have heq : ({ s with dir := some (drcNewBufRes req) }.send
        [.ackNeedLoad req.instId req.instSid req.rsn sync]).view = { s.view with
        owner := some req.instId, dirMode := req.reqMode
        net := s.view.net ++ [Msg.ackNeedLoad req.instId req.instSid req.rsn sync] } := by
      simp [hdir, drcNewBufRes, view, send]
    rw [heq]
    exact hnew
  | queued hdir ht hq => exact inv_queued hs hdir hr hother hq
  | @converting e isRetry hdir hp htakes hle =>
    have hinv := inv_converting hs hdir hp htakes hle hr hother
    rw [← (enters_fields e req).1]
    exact inv_notifyOrInvalidate hinv rfl rfl (dcsNotifyOwnerForPage_isReply ..)

/-- The entry after a claim of the converting request: the conversion has
ended, and the next queued request has begun its own. -/
lemma inv_claimed {c e cvt conflict q} (time : Nat) (hdir : s.dir = some e)
    (hcur : s.view.Current c.newId c.rsn c.mode) (hok : s.view.ClaimOk c)
    (hold : ¬ s.view.Waits c.newId c.rsn) (hnull : c.mode ≠ .null)
    (hload : ∀ i a n y, .ackNeedLoad i a n y ∈ s.net → ¬ s.view.Waits i n)
    (hsub : (cvt.toList ++ (conflict.toList ++ q)).Sublist e.convertQ) :
    (claimed s e c cvt time q conflict).view.Inv strict := by
  obtain ⟨o, ro, md, em, l, hclaim, hcase⟩ := drcClaimNewPageOwner_spec e c
  have hbusy : s.view.busy = false := by
    by_contra hb
    obtain ⟨cvt, hcvt, -⟩ := hcur
    cases hcvt.symm.trans (hs.busy_conv (by simpa using hb))
  have hqueue : s.view.queue = e.convertQ := by simp [view, hdir]
  rw [← hqueue] at hsub
  obtain ⟨-, hrest, hcq⟩ := pairwise_append.mp (hs.queue_distinct.sublist hsub)
  have hmem : ∀ r ∈ cvt.toList ++ (conflict.toList ++ q), r ∈ s.view.queue := fun r hr =>
    hsub.subset hr
  have hmemq : ∀ r ∈ q, r ∈ s.view.queue := fun r hr => hmem r (by simp [hr])
  set v1 : View := { s.view with conv := none, owner := some o, readonly := ro, dirMode := md }
    with hv1
  have h1 : v1.Inv strict :=
    hs.finishConv hcur hok hold hnull hload (by simpa [view, hdir] using hcase)
  have h2 : { v1 with queue := q }.Inv strict := by
    refine h1.setQueue (fun r hr => ?_) (pairwise_append.mp hrest).2.1 (fun r b hb r' hr' => ?_)
    · exact h1.fresh r (.inr (hmemq r hr))
    · exact h1.ask_queue r b hb r' (hmemq r' hr')
  have hview : { s with dir := some { drcClaimNewPageOwner e c with
      converting := cvt, cvtTime := time, convertQ := q } }.view =
      { v1 with queue := q, conv := cvt } := by
    simp [hclaim, hv1, view, hdir]
  have h3 : { s with dir := some { drcClaimNewPageOwner e c with
      converting := cvt, cvtTime := time, convertQ := q } }.view.Inv strict := by
    rw [hview]
    cases cvt with
    | none => exact h2
    | some r =>
      have hr : r ∈ s.view.queue := hmem r (by simp)
      refine h2.startConv hbusy (h1.fresh r (.inr hr)) (fun r' hr' => ?_) (by rintro c ⟨⟩)
      rcases hr' with ⟨b, hb⟩ | hr'
      · exact h1.ask_queue r' b hb r hr
      · exact (hcq r (by simp) r' (mem_append_right _ hr')).symm
  unfold claimed
  cases conflict with
  | none => simpa [send] using h3
  | some r => exact inv_sendError h3 (hs.fresh r (.inr (hmem r (by simp)))).1

lemma Claimed.inv {cfg t c} (ht : Claimed cfg s c t) (hold : ¬ s.view.Waits c.newId c.rsn)
    (hnull : c.mode ≠ .null)
    (hcl : s.view.Current c.newId c.rsn c.mode →
      s.view.ClaimOk c ∧ ∀ i a n y, .ackNeedLoad i a n y ∈ s.net → ¬ s.view.Waits i n)
    (hrsn : ∀ e cvt, s.dir = some e → e.converting = some cvt →
      drcIsSameClaimRequest cvt c = true → drcClaimInfoIsInvalid c e = false → cvt.rsn = c.rsn) :
    t.view.Inv strict := by
  cases ht with
  | ignored => exact hs
  | taken hdir hcvt hsame hval hsub ht =>
    have hn := hrsn _ _ hdir hcvt hsame hval
    simp only [drcIsSameClaimRequest, and_eq_true, beq_iff_eq] at hsame
    have hcur : s.view.Current c.newId c.rsn c.mode :=
      ⟨_, by simp [view, hdir, hcvt], hsame.1.1, hn, hsame.2⟩
    obtain ⟨hok, hload⟩ := hcl hcur
    have hinv := fun time => inv_claimed hs time hdir hcur hok hold hnull hload hsub
    rcases ht with ⟨rfl, rfl⟩ | ⟨r, b, rfl, rfl⟩
    · exact hinv _
    · exact inv_notifyOrInvalidate (hinv _) rfl rfl (dcsNotifyAfterClaim_isReply ..)

/-- An invalidation thread ends, with its request still converting unless
it ends in an error answer. -/
lemma inv_invldEnd {t} (ht : s.view.TaskOk t) (hw : t.waiting = ∅)
    (hok : if t.failed then t.fromClaim = false else s.view.conv = some t.req) :
    (invldEnd s t).view.Inv strict := by
  obtain ⟨hlt, hreply, hhold⟩ := ht
  unfold invldEnd
  cases hf : t.failed with
  | true =>
    simp only [hf, if_true] at hok ⊢
    rw [hok]
    exact inv_sendError hs hlt
  | false =>
    simp only [hf, false_eq_true, if_false] at hok ⊢
    have hh : ∀ j, s.view.mode j ≠ .null → s.view.owner = some j ∨ j = t.req.instId := by
      intro j hj
      rcases hhold hok hf j hj with h | h | h
      · exact .inl h
      · exact .inr h
      · rw [hw] at h
        cases h
    have hview :
        { s with dir := s.dir.map fun e : DrcBufRes => { e with readonlyCopies := ∅ } }.view =
          { s.view with readonly := ∅ } := by
      cases hdir : s.dir <;> simp [view, hdir]
    have h1 : { s with
        dir := s.dir.map fun e : DrcBufRes => { e with readonlyCopies := ∅ } }.view.Inv strict := by
      rw [hview]
      exact hs.clearReadonly fun j hj => (hh j hj).imp_right fun h => ⟨t.req, hok, h.symm⟩
    refine inv_send h1 (IsReply.sendOk h1 (r := t.req) ?_ ?_ ?_)
    · rw [hview]
      exact hreply hok
    · rw [hview]
      exact hok
    · rw [hview]
      exact fun _ => hh

end

section
variable {time : Nat} {src : InstId} (hs : s.view.Inv strict)
  (hgone : ∀ e, s.dir = some e → recycledAtOnce e src time = true →
    (s.node src).lockMode = .null ∧ (s.node src).pend = none)
include hs hgone

/-- The entry is removed, or marked for recycling, on an eviction message. -/
lemma Recycled.inv {t} (ht : Recycled s src time t) : t.view.Inv strict := by
  -- the copies of an entry that converts nothing
  have hcopies : ∀ e, s.dir = some e → e.claimedOwner = src → e.converting = none →
      s.view.conv = none ∧ s.view.owner = some src ∧
        ∀ j, s.view.owner ≠ some j → s.view.mode j ≠ .null → j ∈ e.readonlyCopies.erase src := by
    intro e hdir ho hidle
    have hconv : s.view.conv = none := by simp [view, hdir, hidle]
    have hown : s.view.owner = some src := by simp [view, hdir, ho]
    have hro : s.view.readonly = e.readonlyCopies := by simp [view, hdir]
    refine ⟨hconv, hown, fun j hj hm => ?_⟩
    rcases hs.holders j hm with h | h | ⟨c, hc', -⟩
    · exact absurd h hj
    · exact mem_erase.mpr ⟨fun h' => hj (h' ▸ hown), hro ▸ h⟩
    · cases hconv.symm.trans hc'
  cases ht with
  | kept => exact hs
  | @removed e hdir hnow hpend hidle =>
    have hgone := hgone e hdir hnow
    simp only [recycledAtOnce, and_eq_true, beq_iff_eq, decide_eq_true_eq, not_eq_true'] at hnow
    obtain ⟨⟨⟨⟨ho, -⟩, -⟩, -⟩, hempty⟩ := hnow
    obtain ⟨hconv, hown, hcopies⟩ := hcopies e hdir ho hidle
    have hnull : ∀ j, s.view.mode j = .null := by
      intro j
      by_contra hj
      rcases eq_or_ne j src with rfl | hjs
      · exact hj hgone.1
      · have := hcopies j (fun h => hjs (some.inj (h.symm.trans hown))) hj
        rw [hempty] at this
        cases this
    have hrecy : s.recycling = none :=
      eq_none_iff_forall_not_mem.mpr fun rt hrt =>
        hs.not_recycling (.inl (by simp [view, hdir, hpend])) rt hrt
    have hview : { s with dir := none }.view = { s.view with
        owner := none, conv := none, readonly := ∅, queue := [], busy := false
        dirMode := .null, recycling := none } := by
      simp [view, hrecy]
    rw [hview]
    refine hs.removeEntry hnull hconv fun i a n y hm hw => ?_
    cases (hs.needLoad i a n y hm hw).1.symm.trans hown
    obtain ⟨p, hp, -⟩ := hw
    cases hgone.2.symm.trans hp
  | @marked e hdir ho hidle =>
    obtain ⟨hconv, -, hcopies⟩ := hcopies e hdir ho hidle
    have hview : { s with
        dir := some { e with pending := true }
        recycling := some ⟨none, e.readonlyCopies.erase src, false, false⟩ }.view =
        { s.view with
          busy := true
          recycling := some ⟨none, e.readonlyCopies.erase src, false, false⟩ } := by
      simp [view, hdir]
    rw [hview]
    refine hs.setRecycling hconv ?_
    rintro rt ⟨⟩
    exact ⟨rfl, hconv, fun _ => hcopies, by rintro ⟨⟩⟩

end

end

/-! ## The requester -/

section
variable {strict : Prop} {s : State}

/-- The node of an instance that ends its wait with a lock. -/
lemma view_granted (s : State) (i : InstId) (n : Node) (hp : n.pend = none) :
    (s.setNode i n).view = { s.view with
      mode := update s.view.mode i n.lockMode
      edp := update s.view.edp i n.isEdp
      pend := update s.view.pend i none } := by
  rw [view_setNode, hp]

/-- An instance handles the end of its conversion and claims the page. -/
lemma inv_convGrant (hs : s.view.Inv strict) {i md n p c hasEdp}
    (hok : s.view.ConvOk i p.req.rsn md) (hp : s.view.pend i = some p) (hle : n.lockMode ≤ md)
    (hpend : n.pend = none) (hx : md = .exclusive → n.isEdp = false)
    (ho : s.view.owner = some i → n.isEdp = false)
    (hload : ∀ j a k y, .ackNeedLoad j a k y ∈ s.net → s.view.Waits j k → j = i) :
    ((s.setNode i n).send [claimOf p c hasEdp md]).view.Inv strict := by
  have hview := view_granted s i n hpend
  have hinv : (s.setNode i n).view.Inv strict := by
    rw [hview]
    refine hs.grant (.inr ⟨p.req.rsn, md, hok, ⟨p, hp, rfl⟩, hle⟩) hload (fun hmd => hx ?_)
      (fun h he => ?_)
    · exact eq_exclusive_of_le (hmd ▸ hle)
    · cases (ho h).symm.trans he
  have hi : p.req.instId = i := (hs.pend_ok i p hp).1
  obtain ⟨⟨cvt, hcvt, hci, hcn, hcm⟩, hxo, hso⟩ := hok
  have hnull : md ≠ .null := hcm ▸ (hs.conv_ok cvt hcvt).2
  have hwaits : ∀ {j k}, (s.setNode i n).view.Waits j k → j ≠ i ∧ s.view.Waits j k := by
    rintro j k ⟨q, hq, hk⟩
    rw [hview] at hq
    rcases eq_or_ne j i with rfl | hj
    · simp at hq
    · exact ⟨hj, q, by simpa [hj] using hq, hk⟩
  have hmode : ∀ j ≠ i, (s.setNode i n).view.mode j = s.view.mode j := by
    intro j hj
    rw [hview]
    exact update_of_ne hj _ _
  -- the facts every claim of this request has to meet
  have hclaim : ∀ (cl : ClaimInfo) (b : Bool), cl.newId = i → cl.rsn = p.req.rsn →
      (cl.mode = md ∨ cl.mode = .share) →
      SendOk strict (s.setNode i n).view (.claim cl b) := by
    intro cl b hcl hrsn hclm
    have hmdx : cl.mode ≠ .share → md = .exclusive := by
      intro hns
      rcases hclm with h | h
      · cases hm : md
        · exact absurd hm hnull
        · exact absurd (h.trans hm) hns
        · rfl
      · exact absurd h hns
    refine ⟨?_, ?_, ?_, ⟨fun hns => ⟨fun j hj => ?_, fun he => ?_⟩, fun j hj => ?_⟩, ?_, ?_⟩
    · rintro k ⟨⟩
      show cl.rsn < s.now
      rw [hrsn]
      exact (hs.pend_ok i p hp).2.1
    · exact fun h => (hwaits h).1 hcl
    · rcases hclm with h | h <;> rw [h]
      · exact hnull
      · decide
    · rw [hmode j (hcl ▸ hj)]
      exact hxo (hmdx hns) j (hcl ▸ hj)
    · rw [hview, hcl] at he
      simp [hx (hmdx hns)] at he
    · rw [hmode j (hcl ▸ hj)]
      exact hso j (hcl ▸ hj)
    · refine ⟨cvt, ?_, ?_⟩
      · exact hcvt
      · exact Prod.ext (hci.trans hcl.symm) (hcn.trans hrsn.symm)
    · exact fun j a k y hm hw => (hwaits hw).1 (hload j a k y hm (hwaits hw).2)
  unfold claimOf
  split
  · exact inv_send hinv (hclaim _ _ hi rfl (.inr rfl))
  · exact inv_send hinv (hclaim _ _ hi rfl (.inl rfl))

end

/-! ## The owner -/

section
variable {strict : Prop} {s : State}

lemma Node.lockMode_some {n : Node} {c : BufCtrl} (h : n.ctrl = some c) :
    n.lockMode = c.lockMode := by
  simp [lockMode, h]

lemma Node.isEdp_some {n : Node} {c : BufCtrl} (h : n.ctrl = some c) : n.isEdp = c.isEdp := by
  simp [isEdp, h]

/-- The owner answers a request: when the requester still waits for it,
the owner's own lock has become compatible with what it gives away. -/
lemma inv_ownerTransfer (hs : s.view.Inv strict) {o : InstId} {isRetry : Bool}
    (hpend : (s.node o).pend = none) (hlt : req.rsn < s.now)
    (hask : s.view.Waits req.instId req.rsn → s.view.AskOwnerOk o req) :
    ((s.setNode o (dcsOwnerTransferPage (s.node o) req isRetry).1).send
      [(dcsOwnerTransferPage (s.node o) req isRetry).2]).view.Inv strict := by
  -- a transferred page leaves the owner with a mode compatible to the answer
  have hsend : ∀ (n : Node) (m : PageReady), n.pend = none →
      n.lockMode ≤ (s.node o).lockMode →
      (n.isEdp = true → (s.node o).isEdp = true ∨ n.lockMode = .null) →
      ((s.node o).isEdp = false ∨ (s.node o).lockMode = .null →
        (req.reqMode = .exclusive → n.lockMode = .null) ∧ n.lockMode ≠ .exclusive) →
      m.dst = req.instId → m.rsn = req.rsn → m.mode = req.reqMode →
      ((s.setNode o n).send [.pageReady m]).view.Inv strict := by
    intro n m hp hle hedp hlow hdst hrsn hmd
    have hinv : (s.setNode o n).view.Inv strict := inv_setNode hs hle hedp (.inr hp)
    have hview := view_granted s o n hp
    have hpendv : (s.setNode o n).view.pend = s.view.pend := by
      rw [hview]
      exact update_eq_self_iff.mpr hpend.symm
    have hwaits : ∀ {j k}, (s.setNode o n).view.Waits j k ↔ s.view.Waits j k := by
      intro j k
      simp only [Waits, hpendv]
    refine inv_send hinv ⟨?_, fun hw => ?_⟩
    · rintro k ⟨⟩
      exact hrsn ▸ hlt
    rw [hwaits, hdst, hrsn] at hw
    obtain ⟨⟨cvt, hcvt, hci, hcn, hcm⟩, ho, hx⟩ := hask hw
    have hne : o ≠ req.instId := by
      rintro rfl
      obtain ⟨p, hp', -⟩ := hw
      cases hpend.symm.trans hp'
    have hlow' := hlow (by
      cases he : (s.node o).isEdp
      · exact .inl rfl
      · exact .inr (hs.edp_owner o ho he))
    have hmode : ∀ j,
        (s.setNode o n).view.mode j = if j = o then n.lockMode else s.view.mode j := by
      intro j
      rw [hview]
      simp only [update_apply]
    refine ⟨⟨⟨cvt, ?_, ?_, ?_, ?_⟩, fun hmx j hj => ?_, fun j hj => ?_⟩, ?_, ?_⟩
    · exact hcvt
    · exact hci.trans hdst.symm
    · exact hcn.trans hrsn.symm
    · exact hcm.trans hmd.symm
    · rw [hmode]
      split_ifs with hjo
      · exact hlow'.1 (hmd ▸ hmx)
      · exact hx (hmd ▸ hmx) j hjo (hdst ▸ hj)
    · rw [hmode]
      split_ifs with hjo
      · exact hlow'.2
      · intro hjx
        rcases hs.xholders j hjx with h | ⟨c', hc', hci', -⟩
        · exact hjo (some.inj (h.symm.trans ho))
        · cases hcvt.symm.trans hc'
          exact hj (hci'.symm.trans (hci.trans hdst.symm))
    · rw [hview, hdst]
      exact fun h => hne (some.inj (ho.symm.trans h))
    · intro j a k y hm hwj
      rw [hwaits] at hwj
      obtain rfl : j = o :=
        some.inj ((hs.needLoad j a k y hm hwj).1.symm.trans ho)
      obtain ⟨p, hp', -⟩ := hwj
      cases hpend.symm.trans hp'
  rcases dcsOwnerTransferPage_cases (s.node o) req isRetry with h | ⟨hc, m, h, h1, h2, h3, -⟩ |
    ⟨c, nl, r2x, hc, h, -⟩
  · rw [h]
    have hsame : (s.setNode o (s.node o)).view.Inv strict :=
      inv_setNode hs (le_refl _) .inl (.inl rfl)
    exact inv_sendError hsame hlt
  · rw [h]
    refine hsend _ m hpend (le_refl _) .inl (fun _ => ?_) h1 h2 h3
    simp [lockMode, hc]
  · rw [h]
    obtain ⟨hle, hlow, hedp⟩ := dcsAfterTransfer_lockMode c req.reqMode
    refine hsend _ _ hpend ?_ ?_ (fun hor => ?_) rfl rfl rfl
    · rw [lockMode_some hc]
      exact hle
    · rw [isEdp_some hc]
      exact hedp
    · rw [isEdp_some hc, lockMode_some hc] at hor
      rcases hor with he | hnull
      · exact hlow he
      · have : (dcsAfterTransfer c req.reqMode).lockMode = .null :=
          le_null.mp (hnull ▸ hle)
        simp [lockMode, this]

end

end Cantian.Dcs
