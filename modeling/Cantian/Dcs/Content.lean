import Cantian.Dcs.Token

/-!
# Page protocol — the content that is used

Whoever holds the page must see its last version. That version is on disk,
or in the buffer of the instance that will have to flush it, or on its way
to that instance. The module follows it through every step.

The way to the next holder is the weak place. An owner that sends the page
away forgets that it is newer than the disk, so a lost answer, or one that
nobody waits for any more, takes the version with it; and an older copy
can answer a retried request. `noLostPage` says which steps do not.
-/

namespace Cantian.Dcs

open Function List Option State Node BufCtrl Prod LockMode

/-! ## How the entry changes -/

variable {c : ClaimInfo} {m : PageReady} {k : Nat} {i : InstId}

variable {req : DrcReqInfo}

section
variable {cfg : Config} {s t : State}

lemma Asked.dir {isTry} (h : Asked s req isTry t) :
    (t.view.owner = s.view.owner ∧ t.view.conv = s.view.conv) ∨ s.dir = none ∨
    (t.view.owner = s.view.owner ∧
      ∀ c, s.view.conv = some c → c.instId = req.instId ∧ c.rsn ≤ req.rsn) := by
  cases h with
  | refused => exact .inl ⟨rfl, rfl⟩
  | granted hdir => exact .inr (.inl hdir)
  | queued hdir => exact .inl (by simp [view, hdir])
  | @converting e isRetry hdir hp htakes hle =>
    refine .inr (.inr ⟨?_, fun c hc => ?_⟩)
    · simp [view, notifyOrInvalidate_dir, hdir]
    · have hc : e.converting = some c := by simpa [view, hdir] using hc
      simp only [takesSlot, hc, all_some, drcIsRetryRequest, Bool.and_eq_true, beq_iff_eq] at htakes
      exact ⟨htakes.1, hle c hc⟩

/-- The owner after a claim has been taken. -/
def ClaimTaken (s t : State) (c : ClaimInfo) : Prop :=
  (c.mode ≠ .share ∧ t.view.owner = some c.newId) ∨
    (t.view.owner = s.view.owner ∧ (c.mode = .share ∨ s.view.owner = some c.newId))

lemma ClaimTaken.owner (h : ClaimTaken s t c) (hx : c.mode = .exclusive) :
    t.view.owner = some c.newId := by
  rcases h with ⟨-, h⟩ | ⟨h, hs | h'⟩
  · exact h
  · cases hx.symm.trans hs
  · exact h.trans h'

lemma Claimed.taken_dir (h : Claimed cfg s c t) :
    (drcClaimPageOwner cfg.timeout s.now s.dir c = none ∧ t = s) ∨
    ∃ e cvt, s.dir = some e ∧ e.converting = some cvt ∧ drcIsSameClaimRequest cvt c = true ∧
      drcClaimInfoIsInvalid c e = false ∧ ClaimTaken s t c := by
  cases h with
  | ignored hc => exact .inl ⟨hc, rfl⟩
  | @taken e cvt next time q conflict _ hdir hcvt hsame hval hsub ht =>
    refine .inr ⟨e, cvt, hdir, hcvt, hsame, hval, ?_⟩
    obtain ⟨o, ro, md, em, l, hclaim, hcase⟩ := drcClaimNewPageOwner_spec e c
    have hown : t.view.owner = some o := by
      rcases ht with ⟨rfl, rfl⟩ | ⟨r, b, rfl, rfl⟩
      · simp [claimed, view, send, hclaim]
      · simp [claimed, view, send, hclaim, notifyOrInvalidate_dir]
    unfold ClaimTaken
    rw [hown]
    rcases hcase with ⟨hs, rfl, -⟩ | ⟨hs, rfl, -⟩ | ⟨ho, rfl, -⟩
    · exact .inl ⟨hs, rfl⟩
    · exact .inr ⟨by simp [view, hdir], .inl hs⟩
    · exact .inr ⟨by simp [view, hdir], .inr (by simp [view, hdir, ho])⟩

/-- Owner and conversion change with a request, a claim, or the removal of
the entry. -/
lemma step_dir {a} (ht : step cfg s a = some t) :
    (t.view.owner = s.view.owner ∧ t.view.conv = s.view.conv) ∨
    (t.dir = none ∧ ∀ i, (t.node i).lockMode = (s.node i).lockMode) ∨
    (∃ k r b, a = .deliver k ∧ s.net[k]? = some (.askMaster r b) ∧
      (s.dir = none ∨ t.view.owner = s.view.owner ∧
        ∀ c, s.view.conv = some c → c.instId = r.instId ∧ c.rsn ≤ r.rsn)) ∨
    (∃ k c b e cvt, a = .deliver k ∧ s.net[k]? = some (.claim c b) ∧ s.dir = some e ∧
      e.converting = some cvt ∧ drcIsSameClaimRequest cvt c = true ∧
      drcClaimInfoIsInvalid c e = false ∧ ClaimTaken s t c) := by
  have hsame : ∀ {u : State}, u.dir = s.dir →
      u.view.owner = s.view.owner ∧ u.view.conv = s.view.conv := by
    intro u hu
    simp [view, hu]
  have hentry : ∀ {u : State} {e e' : DrcBufRes}, s.dir = some e → u.dir = some e' →
      e'.claimedOwner = e.claimedOwner → e'.converting = e.converting →
      u.view.owner = s.view.owner ∧ u.view.conv = s.view.conv := by
    intro u e e' he hu ho hc
    simp [view, he, hu, ho, hc]
  cases step_cases ht with
  | @deliver k m _ hk hd =>
    cases hd with
    | @askMaster r b _ h =>
      rcases h.dir with h | h | h
      · exact .inl h
      · exact .inr (.inr (.inl ⟨k, r, b, rfl, hk, .inl h⟩))
      · exact .inr (.inr (.inl ⟨k, r, b, rfl, hk, .inr h⟩))
    | @claim c b _ h =>
      rcases h.taken_dir with ⟨-, h⟩ | ⟨e, cvt, h⟩
      · exact .inl (hsame (by rw [h]))
      · exact .inr (.inr (.inr ⟨k, c, b, e, cvt, rfl, hk, h⟩))
    | recycleOwner h =>
      cases h with
      | kept => exact .inl (hsame rfl)
      | removed => exact .inr (.inl ⟨rfl, fun i => (node_dtcUpdate ..).1⟩)
      | marked he => exact .inl (hentry he rfl rfl rfl)
    | _ => exact .inl (hsame rfl)
  | invldDone =>
    unfold invldEnd
    split
    · exact .inl (hsame rfl)
    · refine .inl ?_
      simp only [view, send]
      cases s.dir <;> exact ⟨rfl, rfl⟩
  | recycleItems he | cleanEdpMaster he | recycleFailed he =>
    exact .inl (hentry he rfl rfl rfl)
  | recycleDone => exact .inr (.inl ⟨rfl, fun _ => rfl⟩)
  | _ => exact .inl (hsame rfl)

end

/-! ## Steps that do not lose the page -/

/-- Is the message an exclusive page that its requester waits for? -/
def State.isXReady (s : State) : Msg → Bool
  | .pageReady m => m.mode == .exclusive && (s.awaited m.dst m.rsn).isSome
  | _ => false

/-- Is the message the claim of the exclusive request that is converting? -/
def State.isXClaim (s : State) : Msg → Bool
  | .claim c _ => c.mode == .exclusive && s.view.conv.any fun r =>
      r.instId == c.newId && r.rsn == c.rsn && r.reqMode == .exclusive
  | _ => false

/-- Is the page of an invalidated copy written by somebody else, or not at all? -/
def Node.isCleanCopy (n : Node) : Bool :=
  n.ctrl.all fun c => c.lockMode == .exclusive || (!c.isRemoteDirty && (!c.isDirty || c.isEdp))

/-- The page is not lost on its way: an exclusive page that is waited for
is neither lost nor given up; the claim of the converting request is
neither lost nor refused, and its instance does not ask again before it
arrives; an owner sends the page away only to somebody who waits for it,
and not from an older copy; and no copy is invalidated that has to be
flushed. -/
def noLostPage (s : State) : Act → Bool
  | .drop k => s.net[k]?.all fun m => !s.isXReady m && !s.isXClaim m
  | .timeout i => s.net.all fun m =>
      !s.isXReady m || m.key.all fun x => x.1 != i
  | .deliver k =>
    match s.net[k]? with
    | some (.askMaster r _) =>
      s.view.conv.all fun c => c.instId != r.instId || decide (r.rsn < c.rsn) ||
        !s.net.any s.isXClaim
    | some (.claim c b) =>
      !s.isXClaim (.claim c b) || s.dir.any fun e => e.converting.any fun r =>
        drcIsSameClaimRequest r c && !drcClaimInfoIsInvalid c e
    | some (.askOwner o r _) =>
      if (s.awaited r.instId r.rsn).isSome then !(s.node o).isEdp else r.reqMode != .exclusive
    | some (.invldReq i) => (s.node i).isCleanCopy
    | _ => true
  | .invldCopy _ i | .recycleCopy i => (s.node i).isCleanCopy
  | _ => true

/-! ## Where the last version is -/

/-- An exclusive page is on its way to its requester. -/
def State.XReady (s : State) (m : PageReady) : Prop :=
  .pageReady m ∈ s.net ∧ s.view.Waits m.dst m.rsn ∧ m.mode = .exclusive

/-- The claim of the exclusive request that is converting is on its way. -/
def State.XClaim (s : State) (c : ClaimInfo) : Prop :=
  (∃ b, .claim c b ∈ s.net) ∧ c.mode = .exclusive ∧ s.view.Current c.newId c.rsn .exclusive

/-- Instance `i` owns the page, or its claim is on the way. -/
def State.Resp (s : State) (i : InstId) : Prop :=
  s.view.owner = some i ∨ ∃ c, s.XClaim c ∧ c.newId = i

/-- The instance holds a page it will have to flush. -/
def Node.Keeps (n : Node) : Prop :=
  ∃ c, n.ctrl = some c ∧ c.lockMode ≠ .null ∧ (c.isDirty = true ∨ c.isRemoteDirty = true) ∧
    c.isEdp = false

/-- Whoever holds the page has loaded version `ver`; whoever holds nothing
will load it, and has nothing to flush but an older copy. -/
def Node.Fine (ver : Nat) (n : Node) : Prop :=
  ∀ c, n.ctrl = some c →
    (c.lockMode ≠ .null → c.loadStatus = .isLoaded ∧ c.page.ver = ver) ∧
    (c.lockMode = .null → (c.isDirty = true → c.isEdp = true) ∧ c.isRemoteDirty = false ∧
      c.loadStatus = if n.pend.isSome then .needLoad else .loadFailed)

/-- The answer brings the last version, or sends the requester to it. -/
def State.ReadyOk (s : State) (m : PageReady) : Prop :=
  (m.needLoad = true → s.disk.ver = s.ver) ∧
  (m.needLoad = false → m.readonly2X = false → m.page.ver = s.ver) ∧
  (m.readonly2X = true → m.needLoad = false ∧ (s.node m.dst).lockMode ≠ .null)

/-- The last version is on disk, with an instance that will flush it, or
on its way to one. -/
def State.Kept (s : State) : Prop :=
  s.disk.ver = s.ver ∨ (∃ i, s.Resp i ∧ (s.node i).Keeps) ∨
    ∃ m, s.XReady m ∧ m.needLoad = false ∧ (m.dirty = true ∨ m.remoteDirty = true)

structure Content (s : State) : Prop where
  fine : ∀ i, (s.node i).Fine s.ver
  ready : ∀ m, .pageReady m ∈ s.net → s.view.Waits m.dst m.rsn → s.ReadyOk m
  resp : ∀ i, (s.node i).lockMode = .exclusive → s.Resp i
  kept : s.Kept

variable {n : Node}

section
variable {cfg : Config} {s t : State} {a : Act} {strict : Prop} {b : Bool} (hs : Content s)
  (hv : s.view.Inv strict) (hv' : t.view.Inv strict) (htok : TokInv s) (hst : noStale s a = true)
  (hok : noLostPage s a = true) (ht : step cfg s a = some t)

lemma awaited_of_waits {rsn} (hw : s.view.Waits i rsn) : ∃ p, s.awaited i rsn = some p := by
  obtain ⟨p, hp, hn⟩ := hw
  have hp : (s.node i).pend = some p := hp
  exact ⟨p, by simp [awaited, hp, hn]⟩

lemma isXReady_of_waits (hx : m.mode = .exclusive) (hw : s.view.Waits m.dst m.rsn) :
    s.isXReady (.pageReady m) = true := by
  obtain ⟨p, hp⟩ := awaited_of_waits hw
  simp [isXReady, hx, hp]

lemma isXClaim_of_current (hx : c.mode = .exclusive)
    (hcur : s.view.Current c.newId c.rsn .exclusive) : s.isXClaim (.claim c b) = true := by
  simpa [isXClaim, View.Current, Option.any_eq_true, and_assoc, hx] using hcur

lemma current_key {j rsn rsn' md md'} (h : s.view.Current i rsn md)
    (h' : s.view.Current j rsn' md') : some (j, rsn') = some (i, rsn) := by
  obtain ⟨r, hr, rfl, rfl, -⟩ := h
  obtain ⟨r', hr', rfl, rfl, -⟩ := h'
  cases hr.symm.trans hr'
  rfl

include htok

/-- The two ways to the next holder exclude each other and themselves:
there is one converting request, and it has one token. -/
lemma xClaim_token (h : s.XClaim c) {rsn md x} (hcur : s.view.Current i rsn md) (hx : x ∈ s.net)
    (hkey : x.key = some (i, rsn)) : ∃ b, x = .claim c b := by
  obtain ⟨⟨b, hb⟩, -, hcur'⟩ := h
  exact ⟨b, htok.unique hx hb hkey (current_key hcur hcur')⟩

include hok ht in
lemma xReady_step (h : s.XReady m) :
    t.XReady m ∨ ∃ k, a = .deliver k ∧ s.net[k]? = some (.pageReady m) := by
  obtain ⟨hm, hw, hx⟩ := h
  have hxr : s.isXReady (.pageReady m) = true := isXReady_of_waits hx hw
  obtain ⟨p, hp, hn⟩ := hw
  have hnet : .pageReady m ∈ t.net ∨ ∃ k, a = .deliver k ∧ s.net[k]? = some (.pageReady m) := by
    rcases step_net ht hm with h | ⟨k, rfl | rfl, hk⟩
    · exact .inl h
    · simp [noLostPage, hk, hxr] at hok
    · exact .inr ⟨k, rfl, hk⟩
  rcases hnet with hnet | h
  · rcases step_pend ht hp with h | rfl | ⟨k, m', rfl, hk, hkey⟩
    · exact .inl ⟨hnet, ⟨p, h, hn⟩, hx⟩
    · simp only [noLostPage, List.all_eq_true] at hok
      have := hok _ hm
      simp [hxr, Msg.key] at this
    · obtain rfl : m' = .pageReady m := by
        refine htok.unique (mem_of_getElem? hk) hm hkey ?_
        rw [hn]
        rfl
      exact .inr ⟨k, rfl, hk⟩
  · exact .inr h

include hv

include hv' hst hok ht in
/-- Ownership and the claim to it survive, unless there is no lock. -/
lemma resp_step (h : s.Resp i) (hl : (s.node i).lockMode ≠ .null) : t.Resp i := by
  rcases step_dir ht with ⟨ho, hc⟩ | ⟨hd, hlock⟩ | ⟨k, r, b, rfl, hk, hcase⟩ |
    ⟨k, c, b, e, cvt, rfl, hk, hdir, hcvt, hsame, hval, htaken⟩
  · rcases h with h | ⟨c, ⟨⟨b, hb⟩, hx, hcur⟩, rfl⟩
    · exact .inl (ho.trans h)
    have hxc : s.isXClaim (.claim c b) = true := isXClaim_of_current hx hcur
    have hcur' : t.view.Current c.newId c.rsn .exclusive := by
      simpa only [View.Current, hc] using hcur
    rcases step_net ht hb with hm | ⟨k, rfl | rfl, hk⟩
    · exact .inr ⟨c, ⟨⟨b, hm⟩, hx, hcur'⟩, rfl⟩
    · simp [noLostPage, hk, hxc] at hok
    · -- the claim is delivered: the condition says that it is taken
      simp only [noLostPage, hk, hxc, Bool.not_true, Bool.false_or, Option.any_eq_true,
        Bool.and_eq_true, Bool.not_eq_true'] at hok
      obtain ⟨e, hdir, cvt, hcvt, hsame, hval⟩ := hok
      simp only [step, hk] at ht
      cases ht
      rcases (dcsProcessClaim_cases cfg { s with net := s.net.eraseIdx k } c b).taken_dir with
        ⟨h, -⟩ | ⟨-, -, -, -, -, -, h⟩
      · simp [drcClaimPageOwner, hdir, hcvt, hsame, hval] at h
      · exact .inl (h.owner hx)
  · -- the entry is removed: there is no lock left
    have hnull : t.view.mode i = .null := by
      by_contra hne
      have := hv'.holders i hne
      simp [view, hd] at this
    exact absurd ((hlock i).symm.trans hnull) hl
  · rcases hcase with hd | ⟨ho, hconv⟩
    · rcases h with h | ⟨c, ⟨-, -, r', hr', -⟩, -⟩
      · simp [view, hd] at h
      · simp [view, hd] at hr'
    rcases h with h | ⟨c, ⟨⟨b', hb⟩, hx, hcur⟩, rfl⟩
    · exact .inl (ho.trans h)
    · have hxc : s.isXClaim (.claim c b') = true := isXClaim_of_current hx hcur
      obtain ⟨r', hr', -⟩ := hcur
      obtain ⟨hi, hn⟩ := hconv r' hr'
      have hany : s.net.any s.isXClaim = true := any_eq_true.mpr ⟨_, hb, hxc⟩
      simp [noLostPage, hk, hr', hi, hany] at hok
      omega
  · have hcb : .claim c b ∈ s.net := mem_of_getElem? hk
    have hconv : s.view.conv = some cvt := by simp [view, hdir, hcvt]
    have hcur : s.view.Current c.newId c.rsn c.mode := by
      have hrsn : cvt.rsn = c.rsn := by simpa [noStale, hk, hdir, hcvt, hsame, hval] using hst
      simp only [drcIsSameClaimRequest, Bool.and_eq_true, beq_iff_eq] at hsame
      exact ⟨cvt, hconv, hsame.1.1, hrsn, hsame.2⟩
    rcases h with h | ⟨c', hc', rfl⟩
    · rcases htaken with ⟨hs, ho⟩ | ⟨ho, -⟩
      · by_cases hi : i = c.newId
        · exact .inl (hi ▸ ho)
        · exact absurd (((hv.claim c b hcb hcur).1 hs).1 i hi) hl
      · exact .inl (ho.trans h)
    · obtain ⟨b', h⟩ := xClaim_token htok hc' hcur hcb rfl
      cases h
      exact .inl (htaken.owner hc'.2.1)

/-! ## One node -/

include hs in
/-- While the answer to the converting request is still to be given, an
owner that keeps nothing means that the disk has the last version. -/
lemma Content.disk_of_token {rsn md m} (hcur : s.view.Current i rsn md) (hm : m ∈ s.net)
    (hkey : m.key = some (i, rsn)) (hready : ∀ r, m ≠ .pageReady r)
    (hclaim : ∀ r b, m ≠ .claim r b) (hown : ∀ o, s.view.owner = some o → ¬ (s.node o).Keeps) :
    s.disk.ver = s.ver := by
  rcases hs.kept with h | ⟨i, hi | ⟨r, hr, rfl⟩, hkeep⟩ | ⟨r, hr, -⟩
  · exact h
  · exact absurd hkeep (hown i hi)
  · obtain ⟨b, h⟩ := xClaim_token htok hr hcur hm hkey
    exact absurd h (hclaim r b)
  · have hcur' := (hv.ready r hr.1 hr.2.1).1.1
    exact absurd (htok.unique hm hr.1 hkey (current_key hcur hcur')) (hready r)

omit hv htok

lemma Node.Keeps.lock (h : n.Keeps) : n.lockMode ≠ .null := by
  obtain ⟨c, hc, hl, -⟩ := h
  rw [lockMode_some hc]
  exact hl

variable {p : PendReq}

lemma dtcBufFinish_fine {disk c c'} (ver : Nat) (h : dtcBufFinish disk c = some c')
    (hload : c.loadStatus = .needLoad → disk.ver = ver)
    (hheld : c.loadStatus ≠ .needLoad → c.loadStatus = .isLoaded ∧ c.page.ver = ver) :
    c'.loadStatus = .isLoaded ∧ c'.page.ver = ver ∧ c'.lockMode = c.lockMode ∧
      c'.isDirty = c.isDirty ∧ c'.isRemoteDirty = c.isRemoteDirty ∧ c'.isEdp = c.isEdp := by
  rcases dtcBufFinish_some h with ⟨hl, -, rfl⟩ | ⟨hl, rfl⟩
  · exact ⟨rfl, hload hl, rfl, rfl, rfl, rfl⟩
  · exact ⟨(hheld hl).1, (hheld hl).2, rfl, rfl, rfl, rfl⟩

variable {ver : Nat}

lemma Node.Fine.of_held {c} (hc : n.ctrl = some c) (hl : c.lockMode ≠ .null)
    (hload : c.loadStatus = .isLoaded) (hver : c.page.ver = ver) : n.Fine ver := by
  intro c' hc'
  cases hc.symm.trans hc'
  exact ⟨fun _ => ⟨hload, hver⟩, fun h => absurd h hl⟩

lemma Node.Fine.of_null {c} (ver : Nat) (hc : n.ctrl = some c) (hl : c.lockMode = .null)
    (hd : c.isDirty = true → c.isEdp = true) (hr : c.isRemoteDirty = false)
    (hload : c.loadStatus = if n.pend.isSome then .needLoad else .loadFailed) : n.Fine ver := by
  intro c' hc'
  cases hc.symm.trans hc'
  exact ⟨fun h => absurd hl h, fun _ => ⟨hd, hr, hload⟩⟩

/-- A request, and its end, change the load status of a ctrl without a lock. -/
lemma Node.Fine.reload {c} {n' : Node} (hn : n.Fine ver) (hc : n.ctrl = some c)
    (hheld : c.loadStatus = .isLoaded → n'.ctrl = some c)
    (hnull : c.loadStatus = (if n.pend.isSome then .needLoad else .loadFailed) →
      n'.ctrl = some { c with loadStatus := if n'.pend.isSome then .needLoad else .loadFailed }) :
    n'.Fine ver := by
  obtain ⟨hheld', hnull'⟩ := hn c hc
  by_cases hl : c.lockMode = .null
  · obtain ⟨hd, hr, hload⟩ := hnull' hl
    exact .of_null ver (hnull hload) hl hd hr rfl
  · obtain ⟨hload, hver⟩ := hheld' hl
    exact .of_held (hheld hload) hl hload hver

lemma dcsRequestPage_fine (hn : n.Fine ver) (hp : n.pend = none) (i : InstId) (sid rsn : Nat)
    (mode : LockMode) : (dcsRequestPage n i sid rsn mode).1.Fine ver := by
  cases hc : n.ctrl with
  | none =>
    refine .of_null ver (c := .fresh) ?_ rfl (by simp [fresh]) rfl rfl
    simp [dcsRequestPage, hc, fresh]
  | some c =>
    refine hn.reload hc (fun hload => ?_) fun hload => ?_
    · simp [dcsRequestPage, hc, hload]
    · simp [dcsRequestPage, hc, hload, hp]

lemma Node.giveUp_fine (hn : n.Fine ver) : n.giveUp.Fine ver := by
  cases hc : n.ctrl with
  | none =>
    intro c h
    simp [giveUp, hc] at h
  | some c =>
    refine hn.reload hc (fun hload => ?_) fun hload => ?_
    · simp [giveUp, hc, hload]
    · have hne : c.loadStatus ≠ .isLoaded := by
        rw [hload]
        split <;> simp
      simp [giveUp, hc, hne]

lemma dcsAfterTransfer_fine {c} (hn : n.Fine ver) (hp : n.pend = none) (hc : n.ctrl = some c)
    (mode : LockMode) : { n with ctrl := some (dcsAfterTransfer c mode) }.Fine ver := by
  obtain ⟨hheld, hnull⟩ := hn c hc
  unfold dcsAfterTransfer
  split
  · rename_i hown
    simp only [isOwner, Bool.and_eq_true, bne_iff_ne] at hown
    split
    · refine .of_null ver rfl rfl ?_ rfl ?_
      · intro h
        exact Bool.or_eq_true_iff.mpr (.inr h)
      · simp [hp]
    · exact .of_held rfl (by simp) (hheld hown.1).1 (hheld hown.1).2
  · intro c' hc'
    obtain rfl : c = c' := some.inj hc'
    exact ⟨hheld, hnull⟩

include hs hv

lemma ready_fine {c c₁ c'}
    (hk : s.net[k]? = some (.pageReady m)) (hw : s.awaited m.dst m.rsn = some p)
    (hc : (s.node m.dst).ctrl = some c) (hle : p.req.reqMode ≤ m.mode)
    (hfrom : dcsHandlePageFromOwner c m = some c₁) (hfin : dtcBufFinish s.disk c₁ = some c') :
    c'.lockMode = m.mode ∧ m.mode ≠ .null ∧ c'.loadStatus = .isLoaded ∧ c'.page.ver = s.ver ∧
      (m.mode = .exclusive → c'.isEdp = false ∧ c'.isRemoteDirty = (m.dirty || m.remoteDirty)) := by
  obtain ⟨hp, hn⟩ := awaited_some hw
  have hwait : s.view.Waits m.dst m.rsn := ⟨p, hp, hn⟩
  obtain ⟨hload, hpage, hr2x⟩ := hs.ready m (mem_of_getElem? hk) hwait
  obtain ⟨hlock, hst, hpg, hedp, hrd⟩ := dcsHandlePageFromOwner_some hfrom
  have hmode : m.mode ≠ .null := by
    intro hnull
    rw [hnull] at hle
    exact (hv.pend_ok m.dst p hp).2.2 (le_null.mp hle)
  have hstatus := dtcBufFinish_fine s.ver hfin ?_ ?_
  · obtain ⟨h1, h2, h3, -, h5, h6⟩ := hstatus
    refine ⟨h3.trans hlock, hmode, h1, h2, fun hx => ⟨?_, ?_⟩⟩
    · rw [h6, hedp]
      simp [hx]
    · rw [h5, hrd]
      simp [hx]
  · intro hl
    refine hload ?_
    by_contra hne
    rw [hst] at hl
    simp [hne] at hl
  · intro hl
    have hnl : m.needLoad = false := by
      by_contra hne
      rw [hst] at hl
      simp [hne] at hl
    refine ⟨by simp [hst, hnl], ?_⟩
    rw [hpg, hnl]
    cases hx : m.readonly2X with
    | false => simpa [hx] using hpage hnl hx
    | true =>
      have hne := (hr2x hx).2
      rw [lockMode_some hc] at hne
      simpa using ((hs.fine m.dst c hc).1 hne).2

include htok

lemma already_fine {sid rsn mode c c'}
    (hk : s.net[k]? = some (.ackAlreadyOwner i sid rsn mode b)) (hw : s.awaited i rsn = some p)
    (hc : (s.node i).ctrl = some c) (hfin : dtcBufFinish s.disk { c with
      lockMode := if mode = .exclusive then .exclusive else .share } = some c') :
    c'.lockMode ≠ .null ∧ c'.loadStatus = .isLoaded ∧ c'.page.ver = s.ver ∧
      c'.isDirty = c.isDirty ∧ c'.isRemoteDirty = c.isRemoteDirty ∧ c'.isEdp = c.isEdp := by
  obtain ⟨hp, hn⟩ := awaited_some hw
  have hm := mem_of_getElem? hk
  obtain ⟨⟨hcur, -⟩, hown⟩ := hv.already i sid rsn mode b hm ⟨p, hp, hn⟩
  obtain ⟨hheld, hnull⟩ := hs.fine i c hc
  have hstatus := dtcBufFinish_fine s.ver hfin ?_ ?_
  · obtain ⟨h1, h2, h3, h4, h5, h6⟩ := hstatus
    refine ⟨?_, h1, h2, h4, h5, h6⟩
    rw [h3]
    split <;> simp
  · -- a load from disk: the owner held nothing, so the disk has the last version
    intro hl
    have hl : c.loadStatus = .needLoad := hl
    refine hs.disk_of_token hv htok hcur hm rfl (by simp) (by simp) fun o ho hkeep => ?_
    cases hown.symm.trans ho
    have hne := hkeep.lock
    rw [lockMode_some hc] at hne
    cases ((hheld hne).1).symm.trans hl
  · intro hl
    have hl : c.loadStatus ≠ .needLoad := hl
    refine hheld fun hnl => hl ?_
    rw [(hnull hnl).2.2]
    simp [hp]

omit hs hv htok
include hok

lemma isCleanCopy_of_invalidates (ha : a.invalidates s i = true) :
    (s.node i).isCleanCopy = true := by
  cases a with
  | deliver =>
    simp only [Act.invalidates, beq_iff_eq] at ha
    simpa [noLostPage, ha] using hok
  | invldCopy k j | recycleCopy j =>
    obtain rfl : j = i := by simpa [Act.invalidates] using ha
    exact hok
  | _ => cases ha

omit hok in
lemma clean_of_recyclable {c : BufCtrl} (h : c.recyclable = true) :
    c.isRemoteDirty = false ∧ c.isDirty = false := by
  simp only [recyclable, Bool.and_eq_true, Bool.not_eq_true'] at h
  exact ⟨h.1.2, h.1.1⟩

/-- A page that is invalidated has nothing to be flushed. -/
lemma clean_of_invalidated {c} (hc : (s.node i).ctrl = some c)
    (h : a.invalidates s i = true ∧ c.lockMode ≠ .exclusive ∨ c.recyclable = true) :
    c.isRemoteDirty = false ∧ (c.isDirty = true → c.isEdp = true) := by
  rcases h with ⟨ha, hx⟩ | hr
  · have hclean : (s.node i).isCleanCopy = true := isCleanCopy_of_invalidates hok ha
    simp only [isCleanCopy, hc, all_some, Bool.or_eq_true, Bool.and_eq_true,
      beq_iff_eq, Bool.not_eq_true'] at hclean
    obtain ⟨hr, hd⟩ := hclean.resolve_left hx
    exact ⟨hr, fun hdirty => hd.resolve_left (by simp [hdirty])⟩
  · obtain ⟨hr, hd⟩ := clean_of_recyclable hr
    exact ⟨hr, fun hdirty => by cases hd.symm.trans hdirty⟩

include hs hv htok

lemma NodeStep.fine (h : NodeStep s a i n) :
    n.Fine s.ver ∨ a = .write i := by
  have hi := hs.fine i
  cases h with
  | request hp => exact .inl (dcsRequestPage_fine hi hp _ _ _ _)
  | tryRequest =>
    exact .inl (.of_null s.ver (c := .fresh) rfl rfl (by simp [fresh]) rfl rfl)
  | needLoad hk hw hx hl hpage =>
    -- while a first grant is on its way nobody holds anything
    have hdisk : s.disk.ver = s.ver := by
      obtain ⟨-, hnull, hready, -⟩ := hv.needLoad _ _ _ _ (mem_of_getElem? hk)
        ⟨_, (awaited_some hw).1, (awaited_some hw).2⟩
      rcases hs.kept with h | ⟨j, -, hkeep⟩ | ⟨m, hm, -⟩
      · exact h
      · exact absurd (hnull j) hkeep.lock
      · exact absurd hm.2.1 (hready m hm.1)
    exact .inl (.of_held rfl (by simp [hx]) hl (hpage ▸ hdisk))
  | already hk hw hc hfin =>
    obtain ⟨hl, hload, hver, -⟩ := already_fine hs hv htok hk hw hc hfin
    exact .inl (.of_held rfl hl hload hver)
  | ready hk hw hc hle hfrom hfin =>
    obtain ⟨hl, hmode, hload, hver, -⟩ := ready_fine hs hv hk hw hc hle hfrom hfin
    exact .inl (.of_held rfl (hl ▸ hmode) hload hver)
  | giveUp => exact .inl (giveUp_fine hi)
  | transfer hk hp hc => exact .inl (dcsAfterTransfer_fine hi hp hc _)
  | invalidate hp hc h =>
    obtain ⟨hr, hd⟩ := clean_of_invalidated hok hc h
    exact .inl (.of_null s.ver rfl rfl hd hr (by simp [invalidated, hp]))
  | write => exact .inr rfl
  | evict =>
    refine .inl fun c' hc' => ?_
    cases hc'
  | flush hc | cleanEdp hc =>
    rename_i c _
    obtain ⟨hheld, hnull⟩ := hi c hc
    refine .inl fun c' hc' => ?_
    cases hc'
    exact ⟨hheld, fun hl => ⟨by simp [dcsBufCleanCtrlEdp], rfl, (hnull hl).2.2⟩⟩
  | clocks => exact .inl hi

/-- What becomes of a page that has to be flushed: it stays, it is flushed,
or it is sent away with its flags. -/
lemma NodeStep.keeps (h : NodeStep s a i n) (hresp : s.Resp i)
    (hkeep : (s.node i).Keeps) : n.Keeps ∨ a = .flush i ∨
      ∃ k req b m, a = .deliver k ∧ s.net[k]? = some (.askOwner i req b) ∧
        (dcsOwnerTransferPage (s.node i) req b).2 = .pageReady m ∧ m.mode = .exclusive ∧
        m.needLoad = false ∧ (m.dirty = true ∨ m.remoteDirty = true) := by
  have hkeep' := hkeep
  obtain ⟨c, hc, hl, hd, he⟩ := hkeep
  have hload := ((hs.fine i c hc).1 hl).1
  have hctrl : ∀ {c' : BufCtrl}, (s.node i).ctrl = some c' → c' = c := fun h =>
    some.inj (h.symm.trans hc)
  cases h with
  | request =>
    refine .inl ⟨c, ?_, hl, hd, he⟩
    simp [dcsRequestPage, hc, hload]
  | tryRequest hp hc' => cases hc'.symm.trans hc
  | needLoad hk hw =>
    obtain ⟨hp, hn⟩ := awaited_some hw
    obtain ⟨-, hnull, -⟩ := hv.needLoad _ _ _ _ (mem_of_getElem? hk) ⟨_, hp, hn⟩
    exact absurd (hnull i) hkeep'.lock
  | already hk hw hc' hfin =>
    obtain rfl := hctrl hc'
    obtain ⟨hl', -, -, h4, h5, h6⟩ := already_fine hs hv htok hk hw hc hfin
    exact .inl ⟨_, rfl, hl', by rw [h4, h5]; exact hd, by rw [h6]; exact he⟩
  | ready hk hw =>
    -- the requester neither owns the page nor has claimed it
    obtain ⟨hp, hn⟩ := awaited_some hw
    have hm := mem_of_getElem? hk
    obtain ⟨⟨hcur, -⟩, hown⟩ := hv.ready _ hm ⟨_, hp, hn⟩
    rcases hresp with h | ⟨cl, hcl, hi⟩
    · exact absurd h hown
    · obtain ⟨b, h⟩ := xClaim_token htok hcl hcur hm rfl
      cases h
  | giveUp =>
    refine .inl ⟨c, ?_, hl, hd, he⟩
    simp [Node.giveUp, hc, hload]
  | @transfer k i req b c₀ nl r2x hk hp hc' hm hnl =>
    obtain rfl := hctrl hc'
    have hown : c₀.isOwner = true := by simp [isOwner, hl, he]
    by_cases hx : req.reqMode = .exclusive
    · refine .inr (.inr ⟨k, req, b, _, rfl, hk, hm, hx, ?_, hd⟩)
      by_contra hne
      have := hnl (by simpa [pageReadyOf] using hne)
      cases hload.symm.trans this
    · exact .inl ⟨{ c₀ with lockMode := .share }, by simp [dcsAfterTransfer, hown, hx],
        by simp, hd, he⟩
  | invalidate hp hc' h =>
    obtain rfl := hctrl hc'
    obtain ⟨hr, hdirty⟩ := clean_of_invalidated hok hc h
    rcases hd with hd | hd
    · cases he.symm.trans (hdirty hd)
    · cases hr.symm.trans hd
  | write hc' =>
    obtain rfl := hctrl hc'
    exact .inl ⟨_, rfl, hl, .inl rfl, he⟩
  | flush => exact .inr (.inl rfl)
  | evict hc' hp hrec =>
    obtain rfl := hctrl hc'
    obtain ⟨hr, hdirty⟩ := clean_of_recyclable hrec
    simp [hr, hdirty] at hd
  | cleanEdp hc' he' =>
    obtain rfl := hctrl hc'
    cases he.symm.trans he'
  | clocks => exact .inl hkeep'

omit hok in
/-- The owner's answer to a request that is waited for. -/
lemma transfer_ready {o} (hok : noLostPage s (.deliver k) = true)
    (hk : s.net[k]? = some (.askOwner o req b)) (hp : (s.node o).pend = none)
    (hw : s.view.Waits req.instId req.rsn)
    (h : (dcsOwnerTransferPage (s.node o) req b).2 = .pageReady m) : s.ReadyOk m := by
  have hm := mem_of_getElem? hk
  obtain ⟨hcur, hown, -⟩ := hv.ask o req b hm hw
  have hedp : (s.node o).isEdp = false := by
    obtain ⟨p, hp⟩ := awaited_of_waits hw
    simpa [noLostPage, hk, hp] using hok
  have hdisk : (∀ c, (s.node o).ctrl = some c → c.lockMode = .null) → s.disk.ver = s.ver := by
    intro hnull
    refine hs.disk_of_token hv htok hcur hm rfl (by simp) (by simp) fun o' ho' hkeep => ?_
    cases hown.symm.trans ho'
    obtain ⟨c, hc, hl, -⟩ := hkeep
    exact hl (hnull c hc)
  rcases dcsOwnerTransferPage_cases (s.node o) req b with
    h' | ⟨hn, m', h', -, -, -, hnl, hr2x⟩ | ⟨c, nl, r2x, hc, h', hnl, hpage⟩
  · rw [h'] at h
    cases h
  · rw [h'] at h
    obtain rfl : m' = m := by simpa using h
    refine ⟨fun _ => hdisk ?_, fun hf => ?_, fun hx => ?_⟩
    · intro c hc
      cases hn.symm.trans hc
    · cases hnl.symm.trans hf
    · cases hr2x.symm.trans hx
  · rw [h'] at h
    obtain rfl : pageReadyOf (s.node o) c req nl r2x = m := by simpa using h
    obtain ⟨hheld, hnull⟩ := hs.fine o c hc
    have hedpc : c.isEdp = false := by
      rw [isEdp_some hc] at hedp
      exact hedp
    refine ⟨fun h1 => hdisk ?_, fun h1 h2 => ?_, fun h1 => ?_⟩
    · intro c' hc'
      cases hc.symm.trans hc'
      by_contra hne
      have := (hnl h1).1
      cases ((hheld hne).1).symm.trans this
    · -- an owner without a lock would have sent the requester to the disk
      have hne : c.lockMode ≠ .null := by
        intro hl
        obtain ⟨hd, hrd, hload⟩ := hnull hl
        refine (hpage h1).2.2.2 ⟨by simp [hload, hp], ?_⟩
        have hnd : c.isDirty = false := by
          by_contra hd'
          cases (hd (by simpa using hd')).symm.trans hedpc
        simp [recyclable, hnd, hrd, hedpc]
      exact (hheld hne).2
    · have hr2x : r2x = true := h1
      have hnlf : nl = false := by
        by_contra hne
        have := (hnl (by simpa using hne)).2.2
        cases hr2x.symm.trans this
      have hcurr := htok.curr req (.inr (.inr (.inr ⟨o, b, hm⟩))) hw
      rw [((hpage hnlf).2.2.1.mp hr2x).1] at hcurr
      refine ⟨hnlf, ?_⟩
      show (s.node req.instId).lockMode ≠ .null
      rw [← hcurr]
      simp

omit hs hv htok hok

/-! ## One step -/

include ht in
lemma step_store :
    (t.disk = s.disk ∧ t.ver = s.ver ∧ ∀ i, a ≠ .flush i ∧ a ≠ .write i) ∨
    (∃ i c, a = .flush i ∧ (s.node i).ctrl = some c ∧ c.isEdp = false ∧
      (c.isDirty = true ∨ c.isOwner = true) ∧ t.disk = c.page ∧ t.ver = s.ver) ∨
    ∃ i c, a = .write i ∧ (s.node i).ctrl = some c ∧ c.lockMode = .exclusive ∧
      (s.node i).pend = none ∧ t.ver = s.ver + 1 ∧
      t.node = (s.setNode i ((s.node i).modify c (s.ver + 1))).node := by
  cases step_cases ht with
  | deliver hk hd => exact .inl ⟨hd.globals.1, hd.globals.2, by simp⟩
  | flush hc hp he hd => exact .inr (.inl ⟨_, _, rfl, hc, he, hd, rfl, rfl⟩)
  | write hc hp hx => exact .inr (.inr ⟨_, _, rfl, hc, hx, hp, rfl, rfl⟩)
  | invldDone => exact .inl ⟨(invldEnd_framed ..).disk, (invldEnd_framed ..).ver, by simp⟩
  | _ => exact .inl ⟨rfl, rfl, by simp⟩

/-- An owner answers when it does not wait itself. -/
lemma deliver_askOwner {o} (ht : step cfg s (.deliver k) = some t)
    (hk : s.net[k]? = some (.askOwner o req b)) : (s.node o).pend = none ∧
      t = ({ s with net := s.net.eraseIdx k }.setNode o
        (dcsOwnerTransferPage (s.node o) req b).1).send
          [(dcsOwnerTransferPage (s.node o) req b).2] := by
  simp only [step, hk, deliverMsg] at ht
  split at ht
  · cases ht
  · rename_i hp
    exact ⟨by simpa using hp, (some.inj ht).symm⟩

lemma deliver_pageReady (ht : step cfg s (.deliver k) = some t)
    (hk : s.net[k]? = some (.pageReady m)) (hw : s.awaited m.dst m.rsn = some p) :
    ∃ n x, dcsHandleAckPageReady s.disk (s.node m.dst) p m = some (n, x) ∧
      t = ({ s with net := s.net.eraseIdx k }.setNode m.dst n).send [x] := by
  have hw' : { s with net := s.net.eraseIdx k }.awaited m.dst m.rsn = some p := hw
  simp only [step, hk, deliverMsg, hw'] at ht
  obtain ⟨⟨n, x⟩, hh, rfl⟩ := map_eq_some_iff.mp ht
  exact ⟨n, x, hh, rfl⟩

include hs in
/-- A page that is flushed is the last version. -/
lemma flushed_ver {c} (hc : (s.node i).ctrl = some c) (he : c.isEdp = false)
    (hd : c.isDirty = true ∨ c.isOwner = true) : c.page.ver = s.ver := by
  obtain ⟨hheld, hnull⟩ := hs.fine i c hc
  refine (hheld fun hl => ?_).2
  rcases hd with hd | hd
  · cases he.symm.trans ((hnull hl).1 hd)
  · simp [isOwner, hl] at hd

include hs hv htok hok ht

lemma content_fine (j : InstId) : (t.node j).Fine t.ver := by
  have hkeep : t.ver = s.ver → (∀ i, a ≠ .write i) → (t.node j).Fine t.ver := by
    intro hver hnw
    rw [hver]
    rcases step_nodeAt ht j with h | ⟨n, hn, h⟩ <;> rw [h]
    · exact hs.fine j
    · rcases hn.fine hs hv htok hok with h | h
      · exact h
      · exact absurd h (hnw j)
  rcases step_store ht with ⟨-, hver, hnw⟩ | ⟨_, _, rfl, -, -, -, -, hver⟩ |
    ⟨i, c, rfl, hc, hx, -, hver, hnode⟩
  · exact hkeep hver fun i => (hnw i).2
  · exact hkeep hver (by simp)
  · rw [hver, hnode]
    rcases eq_or_ne j i with rfl | hj
    · simp only [setNode, update_self]
      have hheld := (hs.fine j c hc).1 (by simp [hx])
      exact .of_held rfl (by simp [hx]) hheld.1 rfl
    · -- everybody else holds nothing
      simp only [setNode, update_of_ne hj]
      have hnull : (s.node j).lockMode = .null :=
        hv.swmr i j (by rw [← hx, ← lockMode_some hc]; rfl) hj
      intro c' hc'
      rw [lockMode_some hc'] at hnull
      exact ⟨fun h => absurd hnull h, ((hs.fine j) c' hc').2⟩

lemma content_ready (hm : .pageReady m ∈ t.net) (hw : t.view.Waits m.dst m.rsn) : t.ReadyOk m := by
  obtain ⟨p, hp, hn⟩ := hw
  have hlt : m.rsn < s.now → s.view.Waits m.dst m.rsn ∧
     (t.node m.dst).lockMode = (s.node m.dst).lockMode := by
    intro hlt
    obtain ⟨hp', hl, -⟩ := (step_waits ht hp).resolve_right fun h => by omega
    exact ⟨⟨p, hp', hn⟩, hl⟩
  have hold : m.rsn < s.now → s.ReadyOk m → (∀ i, a = .write i → .pageReady m ∈ s.net) →
      t.ReadyOk m := by
    intro hrsn ⟨h1, h2, h3⟩ hmem
    obtain ⟨hw', hl⟩ := hlt hrsn
    unfold State.ReadyOk
    rw [hl]
    rcases step_store ht with ⟨hd, hver, -⟩ | ⟨i, c, -, hc, he, hdirty, hd, hver⟩ |
      ⟨i, c, rfl, hc, hx, hidle, hver, hnode⟩
    · rw [hd, hver]
      exact ⟨h1, h2, h3⟩
    · rw [hd, hver]
      exact ⟨fun _ => flushed_ver hs hc he hdirty, h2, h3⟩
    · -- nobody writes while an answer is on its way
      obtain ⟨-, -, hnx⟩ := (hv.ready m (hmem i rfl) hw').1
      have hne : i ≠ m.dst := by
        rintro rfl
        obtain ⟨q, hq, -⟩ := hw'
        cases hidle.symm.trans hq
      refine absurd ?_ (hnx i hne)
      show (s.node i).lockMode = .exclusive
      rw [lockMode_some hc]
      exact hx
  rcases step_pending ht (.inl hm) with (h | ⟨x, hx, h⟩) | h | ⟨k, o, req, b, rfl, hk, h⟩
  · have hrsn : m.rsn < s.now := hv.key_lt _ h _ rfl
    exact hold hrsn (hs.ready m h (hlt hrsn).1) fun _ _ => h
  · rcases htok.reply x hx with ⟨b, h'⟩ | ⟨o, b, h'⟩ <;> cases h'.symm.trans h
  · cases h
  replace h := h.symm
  obtain ⟨hdst, hrsn', -⟩ := dcsOwnerTransferPage_ready h
  have hrsn : m.rsn < s.now := by
    rw [hrsn']
    exact hv.key_lt _ (mem_of_getElem? hk) _ rfl
  have hidle := (deliver_askOwner ht hk).1
  have hwait := (hlt hrsn).1
  rw [hdst, hrsn'] at hwait
  exact hold hrsn (transfer_ready hs hv htok hok hk hidle hwait h) fun _ h => by cases h

omit hs hv htok hok ht

/-- Only an answer raises a lock to exclusive. -/
lemma NodeStep.raises (h : NodeStep s a i n) (hx : n.lockMode = .exclusive) :
    (s.node i).lockMode = .exclusive ∨
    (∃ k sid rsn sync p, a = .deliver k ∧ s.net[k]? = some (.ackNeedLoad i sid rsn sync) ∧
      s.awaited i rsn = some p) ∨
    (∃ k sid rsn mode b p, a = .deliver k ∧
      s.net[k]? = some (.ackAlreadyOwner i sid rsn mode b) ∧ s.awaited i rsn = some p) ∨
    ∃ k m p, a = .deliver k ∧ s.net[k]? = some (.pageReady m) ∧ m.dst = i ∧
      s.awaited m.dst m.rsn = some p ∧ m.mode = .exclusive := by
  cases h with
  | request =>
    rw [(dcsRequestPage_lock ..).1] at hx
    exact .inl hx
  | tryRequest => cases hx
  | needLoad hk hw => exact .inr (.inl ⟨_, _, _, _, _, rfl, hk, hw⟩)
  | already hk hw => exact .inr (.inr (.inl ⟨_, _, _, _, _, _, rfl, hk, hw⟩))
  | ready hk hw hc hle hfrom hfin =>
    obtain ⟨hlock, -⟩ := dcsHandlePageFromOwner_some hfrom
    refine .inr (.inr (.inr ⟨_, _, _, rfl, hk, rfl, hw, ?_⟩))
    rcases dtcBufFinish_some hfin with ⟨-, -, rfl⟩ | ⟨-, rfl⟩ <;> exact hlock ▸ hx
  | giveUp =>
    rw [(s.node i).giveUp_lock.1] at hx
    exact .inl hx
  | transfer hk hp hc =>
    refine .inl (eq_exclusive_of_le (hx ▸ ?_))
    rw [lockMode_some hc]
    exact (dcsAfterTransfer_lockMode ..).1
  | write hc hx' =>
    rw [lockMode_some hc]
    exact .inl hx'
  | flush hc | cleanEdp hc =>
    rw [lockMode_some hc]
    exact .inl hx
  | evict | invalidate => cases hx
  | clocks => exact .inl hx

include hv'

/-- An answer that is handled leaves the entry alone. -/
lemma answer_dir {m} (ht : step cfg s (.deliver k) = some t)
    (hk : s.net[k]? = some m) (hask : ∀ r b, m ≠ .askMaster r b) (hclaim : ∀ c b, m ≠ .claim c b)
    (hl : (t.node i).lockMode ≠ .null) :
    t.view.owner = s.view.owner ∧ t.view.conv = s.view.conv := by
  rcases step_dir ht with h | ⟨hd, -⟩ | ⟨k', r, b, hk', hm, -⟩ | ⟨k', c, b, e, cvt, hk', hm, -⟩
  · exact h
  · have := hv'.holders i hl
    simp [view, hd] at this
  · cases hk'
    exact absurd (some.inj (hk.symm.trans hm)) (hask r b)
  · cases hk'
    exact absurd (some.inj (hk.symm.trans hm)) (hclaim c b)

include hv htok

/-- The requester claims the page the owner sent. -/
lemma ready_claims (ht : step cfg s (.deliver k) = some t) (hk : s.net[k]? = some (.pageReady m))
    (hw : s.awaited m.dst m.rsn = some p) (hx : m.mode = .exclusive)
    (hl : (t.node m.dst).lockMode = .exclusive) : t.Resp m.dst := by
  obtain ⟨hp, hn⟩ := awaited_some hw
  have hm := mem_of_getElem? hk
  obtain ⟨⟨⟨r, hr, hri, hrn, hrm⟩, -⟩, hown⟩ := hv.ready m hm ⟨p, hp, hn⟩
  obtain ⟨-, hconv⟩ := answer_dir hv' ht hk (by simp) (by simp) (i := m.dst) (by simp [hl])
  -- a prefetch is never sent to the owner
  have htry : p.isTry = false := by
    by_contra htry
    refine hown (hri ▸ htok.tryConv r p hr ?_ ?_ (by simpa using htry))
    · rw [hri]
      exact hp
    · rw [hrn]
      exact hn
  obtain ⟨n, claim, hh, rfl⟩ := deliver_pageReady ht hk hw
  obtain ⟨c, c1, c', -, -, -, -, -, rfl⟩ := dcsHandleAckPageReady_some hh
  have hinst : p.req.instId = m.dst := (hv.pend_ok m.dst p hp).1
  refine .inr ⟨⟨p.req.instId, p.req.instSid, m.mode, m.dirty, c1.latestLsn, p.req.rsn⟩,
    ⟨⟨false, mem_append_right _ ?_⟩, hx, ?_⟩, hinst⟩
  · simp [claimOf, htry]
  · exact ⟨r, hconv.trans hr, hri.trans hinst.symm, hrn.trans hn.symm, hrm.trans hx⟩

include hs hst hok ht

lemma content_resp (hx : (t.node i).lockMode = .exclusive) : t.Resp i := by
  have hold : (s.node i).lockMode = .exclusive → t.Resp i := fun h =>
    resp_step hv hv' htok hst hok ht (hs.resp i h) (by simp [h])
  rcases step_nodeAt ht i with h | ⟨n, hn, h⟩
  · rw [h] at hx
    exact hold hx
  rcases hn.raises (h ▸ hx) with h | ⟨k, sid, rsn, sync, p, rfl, hk, hw⟩ |
    ⟨k, sid, rsn, mode, b, p, rfl, hk, hw⟩ | ⟨k, m, p, rfl, hk, rfl, hw, hmode⟩
  · exact hold h
  · obtain ⟨hp, hr⟩ := awaited_some hw
    have hown := (hv.needLoad _ _ _ _ (mem_of_getElem? hk) ⟨p, hp, hr⟩).1
    obtain ⟨ho, -⟩ := answer_dir hv' ht hk (by simp) (by simp) (i := i) (by simp [hx])
    exact .inl (ho.trans hown)
  · obtain ⟨hp, hr⟩ := awaited_some hw
    have hown := (hv.already _ _ _ _ _ (mem_of_getElem? hk) ⟨p, hp, hr⟩).2
    obtain ⟨ho, -⟩ := answer_dir hv' ht hk (by simp) (by simp) (i := i) (by simp [hx])
    exact .inl (ho.trans hown)
  · exact ready_claims hv hv' htok ht hk hw hmode hx

omit hs hv hv' htok hst in
/-- The page the owner sends away is on its way. -/
lemma transfer_sends {o} (ha : a = .deliver k) (hk : s.net[k]? = some (.askOwner o req b))
    (h : (dcsOwnerTransferPage (s.node o) req b).2 = .pageReady m) (hx : m.mode = .exclusive) :
    t.XReady m := by
  subst ha
  obtain ⟨hdst, hrsn, hmode⟩ := dcsOwnerTransferPage_ready h
  have haw : (s.awaited req.instId req.rsn).isSome = true := by
    by_contra hne
    simp [noLostPage, hk, hne, hmode.symm.trans hx] at hok
  obtain ⟨p, hp⟩ := isSome_iff_exists.mp haw
  obtain ⟨hpend, hn⟩ := awaited_some hp
  obtain ⟨hidle, rfl⟩ := deliver_askOwner ht hk
  have hne : req.instId ≠ o := by
    rintro rfl
    cases hidle.symm.trans hpend
  refine ⟨mem_append_right _ (by simp [h]), ⟨p, ?_, hn.trans hrsn.symm⟩, hx⟩
  show (update s.node o _ m.dst).pend = some p
  rw [hdst, update_of_ne hne]
  exact hpend

lemma content_kept : t.Kept := by
  have hresp := fun i => content_resp (i := i) hs hv hv' htok hst hok ht
  rcases hs.kept with hdisk | ⟨i, hi, hkeep⟩ | ⟨m, hm, hnl, hflag⟩
  · rcases step_store ht with ⟨hd, hver, -⟩ | ⟨i, c, -, hc, he, hdirty, hd, hver⟩ |
      ⟨i, c, rfl, hc, hx, hidle, hver, hnode⟩
    · exact .inl (by rw [hd, hver]; exact hdisk)
    · exact .inl (by rw [hd, hver]; exact flushed_ver hs hc he hdirty)
    · have hctrl : (t.node i).ctrl =
          some { c with page := ⟨(s.node i).lsn + 1, s.ver + 1⟩, isDirty := true } := by
        rw [hnode]
        simp [State.setNode, Node.modify]
      have hedp : c.isEdp = false := by
        have : (s.node i).isEdp = false := hv.edp_excl i (by
          show (s.node i).lockMode = .exclusive
          rw [lockMode_some hc]
          exact hx)
        rwa [isEdp_some hc] at this
      refine .inr (.inl ⟨i, hresp i ?_, _, hctrl, by simp [hx], .inl rfl, hedp⟩)
      rw [lockMode_some hctrl]
      exact hx
  · have ht' := resp_step hv hv' htok hst hok ht hi hkeep.lock
    rcases step_nodeAt ht i with h | ⟨n, hn, h⟩
    · exact .inr (.inl ⟨i, ht', by rw [h]; exact hkeep⟩)
    rcases hn.keeps hs hv htok hok hi hkeep with hk | rfl | ⟨k, req, b, m, ha, hk, hm, hmx, hnl, hf⟩
    · exact .inr (.inl ⟨i, ht', by rw [h]; exact hk⟩)
    · rcases step_store ht with ⟨-, -, hno⟩ | ⟨j, c, -, hc, he, hdirty, hd, hver⟩ |
        ⟨_, _, hno, -⟩
      · exact absurd rfl (hno i).1
      · exact .inl (by rw [hd, hver]; exact flushed_ver hs hc he hdirty)
      · cases hno
    · exact .inr (.inr ⟨m, transfer_sends hok ht ha hk hm hmx, hnl, hf⟩)
  · rcases xReady_step htok hok ht hm with h | ⟨k, rfl, hk⟩
    · exact .inr (.inr ⟨m, h, hnl, hflag⟩)
    obtain ⟨-, hw, hx⟩ := hm
    obtain ⟨p, hw⟩ := awaited_of_waits hw
    obtain ⟨n, claim, hh, ht'⟩ := deliver_pageReady ht hk hw
    have hnode : t.node m.dst = n := by simp [ht', setNode, send]
    obtain ⟨c, c₁, c', hc, hle, hfrom, hfin, rfl, -⟩ := dcsHandleAckPageReady_some hh
    obtain ⟨hl, -, -, -, hfl⟩ := ready_fine hs hv hk hw hc hle hfrom hfin
    obtain ⟨hedp, hrd⟩ := hfl hx
    have hlx : c'.lockMode = .exclusive := hl.trans hx
    refine .inr (.inl ⟨m.dst, hresp _ ?_, c', by rw [hnode], by simp [hlx], .inr ?_, hedp⟩)
    · rw [hnode]
      exact hlx
    · rw [hrd]
      simpa using hflag

/-- A step that acts on nothing stale and loses no page keeps the last
version in its place. -/
lemma content_step : Content t where
  fine := content_fine hs hv htok hok ht
  ready _ hm hw := content_ready hs hv htok hok ht hm hw
  resp _ hx := content_resp hs hv hv' htok hst hok ht hx
  kept := content_kept hs hv hv' htok hst hok ht

omit hs hv hv' htok hst hok ht in
lemma Init.content (h : Init s) : Content s where
  fine i c hc := by cases (h.ctrl i).symm.trans hc
  ready m hm := by
    rw [h.net] at hm
    cases hm
  resp i hx := by
    rw [Node.lockMode, h.ctrl i] at hx
    cases hx
  kept := .inl h.ver

end

/-! ## Runs -/

/-- Every instance that holds the page uses its last version. -/
def LatestHeld (s : State) : Prop :=
  ∀ i c, (s.node i).ctrl = some c → c.lockMode ≠ .null → c.page.ver = s.ver

/-- As long as nothing stale is acted on and no page is lost on its way,
every holder uses the content its last writer left. -/
theorem latestHeld_of_noLostPage {cfg : Config} {s : State}
    (h : Lib.ReachableBy (step cfg) Init (fun s a => (noStale s a && noLostPage s a) = true) s) :
    LatestHeld s := by
  have hinv : (s.view.Inv False ∧ PendCtrl s) ∧ TokInv s ∧ Content s := by
    refine h.invariant (P := fun s => (s.view.Inv False ∧ PendCtrl s) ∧ TokInv s ∧ Content s)
      (fun s hs => ⟨⟨hs.inv False, fun i hi => ?_⟩, hs.tokInv, hs.content⟩) ?_
    · simp [hs.pend i] at hi
    · intro s a t ha ⟨⟨hv, hp⟩, htok, hc⟩ ht
      obtain ⟨hst, hok⟩ := Bool.and_eq_true_iff.mp ha
      have hv' := inv_step hv hp hst False.elim ht
      exact ⟨⟨hv', pendCtrl_step hp ht⟩, tokInv_step htok hv ht,
        content_step hc hv hv' htok hst hok ht⟩
  exact fun i c hc hl => ((hinv.2.2.fine i c hc).1 hl).2

/-- A modified page is handed over twice, without a flush in between. -/
def relayRun : List Act :=
  [.request 1 0 .exclusive, .deliver 0, .deliver 0, .write 1,
   .request 2 0 .exclusive, .deliver 0, .deliver 0, .deliver 0, .deliver 0,
   .request 3 0 .exclusive, .deliver 0, .deliver 0, .deliver 0, .deliver 0]

theorem latestHeld_relay :
    ∃ s, Lib.runOk (step ⟨0, 1000⟩) (fun s a => noStale s a && noLostPage s a) start relayRun =
        some s ∧
      (s.node 3).lockMode = .exclusive ∧ s.disk.ver < s.ver ∧ LatestHeld s := by
  obtain ⟨s, hs, hx⟩ := Lib.exists_of_runOk_map (step ⟨0, 1000⟩)
    (fun s a => noStale s a && noLostPage s a) start relayRun
    (fun s => ((s.node 3).lockMode, s.disk.ver, s.ver)) (.exclusive, 0, 1) (by decide +kernel)
  obtain ⟨hl, hd, hver⟩ := by simpa only [Prod.mk.injEq] using hx
  exact ⟨s, hs, hl, by omega, latestHeld_of_noLostPage (.of_runOk _ (.init start_init) hs)⟩

/-- Instance 1 modifies the page and instance 2 takes it over, without
changing it. Its answer to instance 3 is lost. Since it has forgotten that
the page is newer than the disk, it tells the retry to load from disk. -/
def lostPageRun : List Act :=
  [.request 1 0 .exclusive, .deliver 0, .deliver 0, .write 1,
   .request 2 0 .exclusive, .deliver 0, .deliver 0, .deliver 0, .deliver 0,
   .request 3 0 .exclusive, .deliver 0, .deliver 0, .drop 0, .timeout 3,
   .request 3 0 .exclusive, .deliver 0, .deliver 0, .deliver 0]

theorem lostPage_not_latestHeld : ∃ s, Lib.Reachable (step ⟨0, 1000⟩) Init s ∧ ¬ LatestHeld s := by
  obtain ⟨s, hs, hx⟩ := Lib.exists_of_run_map (step ⟨0, 1000⟩) start lostPageRun
    (fun s => ((s.node 3).ctrl.map fun c => (c.lockMode, c.page.ver), s.ver))
    (some (.exclusive, 0), 1) (by decide +kernel)
  refine ⟨s, .of_run _ (.init start_init) hs, fun h => ?_⟩
  simp only [Prod.mk.injEq, map_eq_some_iff] at hx
  obtain ⟨⟨c, hc, hl, hpage⟩, hver⟩ := hx
  have := h 3 c hc (by simp [hl])
  omega

end Cantian.Dcs
