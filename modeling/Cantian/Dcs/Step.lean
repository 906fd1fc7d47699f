import Cantian.Dcs.Drc
import Cantian.Lib.Transition

/-!
# Page protocol — the steps

The handlers of `dtc_dcs.c` and `knl_buffer_access.c` that a request, an
answer, an invalidation or a recycled entry runs on one instance, and the
step function that interleaves them. An action is `none` when its guard
fails or when the code panics, which ends a run without crash.

A local call of the master (`dcs_ask_master4page_l`) is a message of the
master to itself, and loading the page from disk happens together with
the answer that asks for it: the requester holds the page latch through
both. `ENTER_PAGE_NO_READ`, which skips the load of a page about to be
formatted, is left out.
-/

namespace Cantian.Dcs

open Option

/-- What does not change during a run: the page's master, and
`DCS_WAIT_MSG_TIMEOUT` in the unit of request times. -/
structure Config where
  master : InstId
  timeout : Nat

/-! ## Requester -/

/-- `dtc_update_lsn` and `dtc_update_scn`. -/
def Node.dtcUpdate (n : Node) (lsn scn : Nat) : Node :=
  { n with lsn := Nat.max n.lsn lsn, scn := Nat.max n.scn scn }

def dcsBufCleanCtrlEdp (c : BufCtrl) : BufCtrl :=
  { c with isDirty := false, isRemoteDirty := false, isEdp := false }

/-- `dcs_set_ctrl4granted`: the first load of a page gives X directly. -/
def dcsSetCtrl4granted (c : BufCtrl) : Option BufCtrl :=
  if c.isEdp && !c.isDirty then none
  else
    let c := if c.isEdp then dcsBufCleanCtrlEdp c else c
    some { c with loadStatus := .needLoad, lockMode := .exclusive }

def dcsSetCtrl4alreadyOwner (c : BufCtrl) (reqMode : LockMode) : Option BufCtrl :=
  if c.isEdp then none
  else some { c with lockMode := if reqMode = .exclusive then .exclusive else .share }

/-- `dcs_handle_page_from_owner`, the ctrl part. -/
def dcsHandlePageFromOwner (c : BufCtrl) (m : PageReady) : Option BufCtrl :=
  let hasPage := !m.needLoad && !m.readonly2X
  if c.lockMode = .exclusive then none
  else if hasPage && decide (m.page.lsn < c.page.lsn) then none
  else
    let c := if hasPage then { c with page := m.page } else c
    -- the clean edp message may come later
    let c := if m.needLoad && c.isEdp then dcsBufCleanCtrlEdp c else c
    let c :=
      if m.mode = .exclusive then
        { c with isEdp := false, isRemoteDirty := m.dirty || m.remoteDirty }
      else { c with isRemoteDirty := false }
    some { c with lockMode := m.mode, loadStatus := if m.needLoad then .needLoad else .isLoaded }

/-- `buf_load_page`, for `dtc_buf_finish`: the page on disk must not be
older than the one the ctrl held. -/
def dtcBufFinish (disk : Page) (c : BufCtrl) : Option BufCtrl :=
  if c.loadStatus = .needLoad then
    if disk.lsn < c.page.lsn then none
    else some { c with page := disk, loadStatus := .isLoaded }
  else some c

/-- The claim of `DRC_SET_CLAIM_INFO` for the request `p`, with the ctrl
as the answer left it. -/
def claimOf (p : PendReq) (c : BufCtrl) (hasEdp : Bool) (mode : LockMode) : Msg :=
  -- a batch claims share mode, with no LSN, whatever the ack said
  if p.isTry then
    .claim { newId := p.req.instId, instSid := p.req.instSid, mode := .share, hasEdp := false,
             lsn := 0, rsn := p.req.rsn } true
  else
    .claim { newId := p.req.instId, instSid := p.req.instSid, mode := mode, hasEdp := hasEdp,
             lsn := c.latestLsn, rsn := p.req.rsn } false

/-- `dcs_request_page`, up to sending the request: the latch that the
requester takes turns a failed load into one to be done again. -/
def dcsRequestPage (n : Node) (i : InstId) (instSid rsn : Nat) (mode : LockMode) : Node × Msg :=
  let c := n.ctrl.getD .fresh
  let c := if c.loadStatus = .loadFailed then { c with loadStatus := .needLoad } else c
  let req : DrcReqInfo :=
    { instId := i, instSid := instSid, rsn := rsn, reqMode := mode, currMode := c.lockMode,
      lsn := c.page.lsn }
  ({ n with ctrl := some c, pend := some ⟨req, false⟩ }, .askMaster req false)

/-- One page of `dcs_try_get_page_share_owner`: only pages that are not in
the buffer are prefetched. -/
def dcsTryGetPageShareOwner (n : Node) (i : InstId) (instSid rsn : Nat) : Node × Msg :=
  let req : DrcReqInfo :=
    { instId := i, instSid := instSid, rsn := rsn, reqMode := .share, currMode := .null, lsn := 0 }
  ({ n with ctrl := some .fresh, pend := some ⟨req, true⟩ }, .askMaster req true)

/-- The requester gives up (timeout or error answer). -/
def Node.giveUp (n : Node) : Node :=
  { n with
    pend := none
    ctrl := n.ctrl.map fun c =>
      if c.loadStatus = .isLoaded then c else { c with loadStatus := .loadFailed } }

/-- `dcs_handle_ack_need_load`, or a granted page of the batch. -/
def dcsHandleAckNeedLoad (disk : Page) (n : Node) (sync : Option (Nat × Nat)) : Option Node :=
  match n.ctrl with
  | none => none
  | some c =>
    let n := match sync with
      | some (lsn, scn) => n.dtcUpdate lsn scn
      | none => n
    (dcsSetCtrl4granted c).bind fun c' => (dtcBufFinish disk c').map fun c'' =>
      { n with ctrl := some c'', pend := none }

/-- `dcs_handle_ack_already_owner`, or that result for a page of the
batch: the node and its claim. -/
def dcsHandleAckAlreadyOwner (disk : Page) (n : Node) (p : PendReq) (reqMode : LockMode) :
    Option (Node × Msg) :=
  match n.ctrl with
  | none => none
  | some c =>
    if !p.isTry && !decide (p.req.reqMode ≤ reqMode) then none
    else (dcsSetCtrl4alreadyOwner c reqMode).bind fun c' => (dtcBufFinish disk c').map fun c'' =>
      ({ n with ctrl := some c'', pend := none }, claimOf p c' false reqMode)

/-- `dcs_handle_ack_page_ready`: the node and its claim. -/
def dcsHandleAckPageReady (disk : Page) (n : Node) (p : PendReq) (m : PageReady) :
    Option (Node × Msg) :=
  match n.ctrl with
  | none => none
  | some c =>
    if !decide (p.req.reqMode ≤ m.mode) then none
    else (dcsHandlePageFromOwner c m).bind fun c' => (dtcBufFinish disk c').map fun c'' =>
      ({ n.dtcUpdate m.lsn m.scn with ctrl := some c'', pend := none },
        claimOf p c' m.dirty m.mode)

/-! ### What an answer does to the requester -/

section
variable {disk : Page} {n n' : Node} {p : PendReq} {c c' : BufCtrl} {msg : Msg}

lemma dtcBufFinish_some (h : dtcBufFinish disk c = some c') :
    (c.loadStatus = .needLoad ∧ c.page.lsn ≤ disk.lsn ∧
      c' = { c with page := disk, loadStatus := .isLoaded }) ∨
    (c.loadStatus ≠ .needLoad ∧ c' = c) := by
  unfold dtcBufFinish at h
  split at h
  · rename_i hs
    split at h
    · cases h
    · rename_i hl
      cases h
      exact .inl ⟨hs, Nat.le_of_not_lt hl, rfl⟩
  · rename_i hs
    cases h
    exact .inr ⟨hs, rfl⟩

/-- A grant gives X, whatever was asked for, and the page from disk. -/
lemma dcsHandleAckNeedLoad_some {sync} (h : dcsHandleAckNeedLoad disk n sync = some n') :
    ∃ c : BufCtrl,
      n' = { (sync.elim n fun x => n.dtcUpdate x.1 x.2) with
        ctrl := some { lockMode := .exclusive, loadStatus := .isLoaded, page := disk
                       isDirty := c.isDirty && !c.isEdp
                       isRemoteDirty := c.isRemoteDirty && !c.isEdp, isEdp := false }
        pend := none } := by
  unfold dcsHandleAckNeedLoad at h
  split at h
  · cases h
  rename_i c hc
  obtain ⟨c', hc', h⟩ := bind_eq_some_iff.mp h
  obtain ⟨c'', hc'', rfl⟩ := map_eq_some_iff.mp h
  have hset : c' = { lockMode := .exclusive, loadStatus := .needLoad, page := c.page
                     isDirty := c.isDirty && !c.isEdp
                     isRemoteDirty := c.isRemoteDirty && !c.isEdp, isEdp := false } := by
    unfold dcsSetCtrl4granted at hc'
    split at hc'
    · cases hc'
    · cases hc'
      cases he : c.isEdp <;> simp [dcsBufCleanCtrlEdp, he]
  subst hset
  rcases dtcBufFinish_some hc'' with ⟨-, -, rfl⟩ | ⟨hs, -⟩
  · refine ⟨c, ?_⟩
    cases sync <;> rfl
  · exact absurd rfl hs

/-- The owner gets the mode it is told; its page is read from disk when
it has none. -/
lemma dcsHandleAckAlreadyOwner_some {reqMode}
    (h : dcsHandleAckAlreadyOwner disk n p reqMode = some (n', msg)) :
    ∃ c c', n.ctrl = some c ∧ c.isEdp = false ∧
      dtcBufFinish disk { c with
        lockMode := if reqMode = .exclusive then .exclusive else .share } = some c' ∧
      n' = { n with ctrl := some c', pend := none } ∧
      msg = claimOf p { c with
        lockMode := if reqMode = .exclusive then .exclusive else .share } false reqMode := by
  unfold dcsHandleAckAlreadyOwner at h
  split at h
  · cases h
  rename_i c hc
  split at h
  · cases h
  rename_i hmd
  obtain ⟨c1, hc1, h⟩ := bind_eq_some_iff.mp h
  obtain ⟨c2, hc2, h⟩ := map_eq_some_iff.mp h
  obtain ⟨rfl, rfl⟩ := Prod.mk.inj h
  unfold dcsSetCtrl4alreadyOwner at hc1
  split at hc1
  · cases hc1
  rename_i he
  cases hc1
  exact ⟨c, c2, hc, by simpa using he, hc2, rfl, rfl⟩

/-- The ctrl after an answer of the owner: the page in the message, or its
own content, or none yet. -/
lemma dcsHandlePageFromOwner_some {m} (h : dcsHandlePageFromOwner c m = some c') :
    c'.lockMode = m.mode ∧
    c'.loadStatus = (if m.needLoad then .needLoad else .isLoaded) ∧
    c'.page = (if m.needLoad || m.readonly2X then c.page else m.page) ∧
    c'.isEdp = (c.isEdp && !m.needLoad && decide (m.mode ≠ .exclusive)) ∧
    c'.isRemoteDirty = (decide (m.mode = .exclusive) && (m.dirty || m.remoteDirty)) := by
  unfold dcsHandlePageFromOwner at h
  simp only at h
  split at h
  · cases h
  split at h
  · cases h
  cases h
  refine ⟨rfl, rfl, ?_⟩
  cases hn : m.needLoad <;> cases hr : m.readonly2X <;> cases he : c.isEdp <;>
    by_cases hm : m.mode = .exclusive <;>
    simp_all [dcsBufCleanCtrlEdp]

lemma dcsHandleAckPageReady_some {m} (h : dcsHandleAckPageReady disk n p m = some (n', msg)) :
    ∃ c c1 c', n.ctrl = some c ∧ p.req.reqMode ≤ m.mode ∧
      dcsHandlePageFromOwner c m = some c1 ∧ dtcBufFinish disk c1 = some c' ∧
      n' = { n.dtcUpdate m.lsn m.scn with ctrl := some c', pend := none } ∧
      msg = claimOf p c1 m.dirty m.mode := by
  unfold dcsHandleAckPageReady at h
  split at h
  · cases h
  rename_i c hc
  split at h
  · cases h
  rename_i hmd
  obtain ⟨c1, hc1, h⟩ := bind_eq_some_iff.mp h
  obtain ⟨c2, hc2, h⟩ := map_eq_some_iff.mp h
  obtain ⟨rfl, rfl⟩ := Prod.mk.inj h
  exact ⟨c, c1, c2, hc, by simpa using hmd, hc1, hc2, rfl, rfl⟩

end

/-! ## Owner -/

/-- What `dcs_read_local_page4transfer` finds. -/
inductive LocalPage where
  | error
  /-- Not usable here: the requester loads the page from disk. -/
  | needLoad (ctrl : Option BufCtrl)
  | page (ctrl : BufCtrl)

def dcsReadLocalPage4transfer (ctrl : Option BufCtrl) (req : DrcReqInfo) (isRetry : Bool) :
    LocalPage :=
  match ctrl with
  | none => .needLoad none
  | some c =>
    if c.loadStatus = .loadFailed ∧ c.recyclable then .needLoad (some c)
    else if c.loadStatus = .loadFailed ∧ c.page.lsn < req.lsn then .error
    -- the requester retried and an old message came later
    else if !c.isOwner && !isRetry then .error
    else if req.currMode = .exclusive then .error
    else .page c

/-- The ctrl after the page was sent away. -/
def dcsAfterTransfer (c : BufCtrl) (reqMode : LockMode) : BufCtrl :=
  if c.isOwner then
    if reqMode = .exclusive then
      { c with lockMode := .null, loadStatus := .loadFailed, isEdp := c.isEdp || c.isDirty,
               isRemoteDirty := false }
    else { c with lockMode := .share }
  else c

/-- The `PAGE_READY` of a ctrl. -/
def pageReadyOf (n : Node) (c : BufCtrl) (req : DrcReqInfo) (needLoad readonly2X : Bool) :
    PageReady :=
  { dst := req.instId, instSid := req.instSid, rsn := req.rsn, mode := req.reqMode,
    needLoad := needLoad, readonly2X := readonly2X, dirty := c.isDirty,
    remoteDirty := c.isRemoteDirty, page := c.page, lsn := n.lsn, scn := n.scn }

/-- `dcs_owner_transfer_page`: the owner's node and the answer. Without a
ctrl the answer carries no clocks. -/
def dcsOwnerTransferPage (n : Node) (req : DrcReqInfo) (isRetry : Bool) : Node × Msg :=
  match dcsReadLocalPage4transfer n.ctrl req isRetry with
  | .error => (n, .errorMsg req.instId req.instSid req.rsn)
  | .needLoad none =>
    (n, .pageReady
      { dst := req.instId, instSid := req.instSid, rsn := req.rsn, mode := req.reqMode,
        needLoad := true, readonly2X := false, dirty := false, remoteDirty := false,
        page := ⟨0, 0⟩, lsn := 0, scn := 0 })
  | .needLoad (some c) =>
    ({ n with ctrl := some (dcsAfterTransfer c req.reqMode) },
      .pageReady (pageReadyOf n c req true false))
  | .page c =>
    let upgrade := req.currMode = .share ∧ req.reqMode = .exclusive
    if upgrade ∧ c.lockMode ≠ .share ∧ !isRetry then
      (n, .errorMsg req.instId req.instSid req.rsn)
    else if c.page.lsn < req.lsn then (n, .errorMsg req.instId req.instSid req.rsn)
    else
      ({ n with ctrl := some (dcsAfterTransfer c req.reqMode) },
        .pageReady (pageReadyOf n c req false (decide upgrade)))

/-- What the owner does with a request: an error, a request to load from
disk, or the page. -/
lemma dcsOwnerTransferPage_cases (n : Node) (req : DrcReqInfo) (isRetry : Bool) :
    (dcsOwnerTransferPage n req isRetry = (n, .errorMsg req.instId req.instSid req.rsn)) ∨
    (n.ctrl = none ∧ ∃ m, dcsOwnerTransferPage n req isRetry = (n, .pageReady m) ∧
      m.dst = req.instId ∧ m.rsn = req.rsn ∧ m.mode = req.reqMode ∧ m.needLoad = true ∧
      m.readonly2X = false) ∨
    (∃ c needLoad readonly2X, n.ctrl = some c ∧ dcsOwnerTransferPage n req isRetry =
        ({ n with ctrl := some (dcsAfterTransfer c req.reqMode) },
          .pageReady (pageReadyOf n c req needLoad readonly2X)) ∧
      (needLoad = true → c.loadStatus = .loadFailed ∧ c.recyclable = true ∧ readonly2X = false) ∧
      (needLoad = false → (c.isOwner = true ∨ isRetry = true) ∧ req.lsn ≤ c.page.lsn ∧
        (readonly2X = true ↔ req.currMode = .share ∧ req.reqMode = .exclusive) ∧
        ¬ (c.loadStatus = .loadFailed ∧ c.recyclable = true))) := by
  unfold dcsOwnerTransferPage
  cases hc : n.ctrl with
  | none =>
    refine .inr (.inl ⟨rfl, ?_⟩)
    exact ⟨_, rfl, rfl, rfl, rfl, rfl, rfl⟩
  | some c =>
    simp only [dcsReadLocalPage4transfer]
    by_cases h1 : c.loadStatus = .loadFailed ∧ c.recyclable = true
    · rw [if_pos h1]
      exact .inr (.inr ⟨c, true, false, rfl, rfl, fun _ => ⟨h1.1, h1.2, rfl⟩, by rintro ⟨⟩⟩)
    rw [if_neg h1]
    by_cases h2 : c.loadStatus = .loadFailed ∧ c.page.lsn < req.lsn
    · rw [if_pos h2]
      exact .inl rfl
    rw [if_neg h2]
    by_cases h3 : (!c.isOwner && !isRetry) = true
    · rw [if_pos h3]
      exact .inl rfl
    rw [if_neg h3]
    by_cases h4 : req.currMode = .exclusive
    · rw [if_pos h4]
      exact .inl rfl
    rw [if_neg h4]
    simp only
    split
    · exact .inl rfl
    split
    · exact .inl rfl
    rename_i h₅ h₆
    refine .inr (.inr ⟨c, false, _, rfl, rfl, by rintro ⟨⟩,
      fun _ => ⟨?_, Nat.le_of_not_lt h₆, ?_, h1⟩⟩)
    · simpa [or_iff_not_imp_left] using h3
    · simp

lemma dcsOwnerTransferPage_ready {n req isRetry m}
    (h : (dcsOwnerTransferPage n req isRetry).2 = .pageReady m) :
    m.dst = req.instId ∧ m.rsn = req.rsn ∧ m.mode = req.reqMode := by
  rcases dcsOwnerTransferPage_cases n req isRetry with
    h' | ⟨-, m, h', hd, hr, hm, -⟩ | ⟨c, nl, r2x, -, h', -⟩ <;> rw [h'] at h <;> cases h
  · exact ⟨hd, hr, hm⟩
  · exact ⟨rfl, rfl, rfl⟩

/-- After an exclusive transfer the owner holds nothing, after a shared
one at most S; only a ctrl that already was an older copy keeps its lock. -/
lemma dcsAfterTransfer_lockMode (c : BufCtrl) (reqMode : LockMode) :
    (dcsAfterTransfer c reqMode).lockMode ≤ c.lockMode ∧
    (c.isEdp = false → (reqMode = .exclusive → (dcsAfterTransfer c reqMode).lockMode = .null) ∧
      (dcsAfterTransfer c reqMode).lockMode ≠ .exclusive) ∧
    ((dcsAfterTransfer c reqMode).isEdp = true →
      c.isEdp = true ∨ (dcsAfterTransfer c reqMode).lockMode = .null) := by
  unfold dcsAfterTransfer BufCtrl.isOwner
  cases hm : c.lockMode <;> cases he : c.isEdp <;> by_cases hx : reqMode = .exclusive <;>
    simp [hm, he, hx, LockMode.le_def, LockMode.rank]

/-! ## Invalidation -/

/-- The ctrl after an invalidation. -/
def BufCtrl.invalidated (c : BufCtrl) : BufCtrl :=
  { c with lockMode := .null, loadStatus := .loadFailed }

/-- `buf_invalidate_page_with_version`; `none` is `CT_ERROR`. -/
def bufInvalidatePageWithVersion (n : Node) : Option Node :=
  match n.ctrl with
  | none => some n
  | some c => if c.lockMode = .exclusive then none else some { n with ctrl := some c.invalidated }

/-- `buf_invalidate_page_owner`; `none` is `CT_ERROR`. A ctrl that a
requester holds latched cannot be evicted, which is checked first. -/
def bufInvalidatePageOwner (n : Node) : Option Node :=
  match n.ctrl with
  | none => some n
  | some c =>
    if n.pend.isSome || !c.recyclable then none
    else if c.lockMode = .null then some n
    else some { n with ctrl := some c.invalidated }

/-! ## Master -/

def dcsNotifyOwnerForPage (owner : InstId) (req : DrcReqInfo) (isRetry isTry : Bool) : Msg :=
  if owner = req.instId then
    .ackAlreadyOwner req.instId req.instSid req.rsn req.reqMode isTry
  else .askOwner owner req isRetry

/-- The message to the owner after a claim. `dcs_claim_ownership_internal`
serves the master's own claims and those of a batch, and asks a local
owner (`dcs_notify_local_owner4page`) without looking at the requester. -/
def dcsNotifyAfterClaim (cfg : Config) (internal : Bool) (owner : InstId) (req : DrcReqInfo) :
    Msg :=
  if internal && owner == cfg.master then .askOwner owner req false
  else dcsNotifyOwnerForPage owner req false false

/-- Send `reply` at once, or first invalidate the copies in `readonly`
when the request is exclusive. -/
def notifyOrInvalidate (s : State) (req : DrcReqInfo) (reply : Msg) (fromClaim : Bool)
    (readonly : Finset InstId) : State :=
  if readonly ≠ ∅ ∧ req.reqMode = .exclusive then
    { s with tasks := s.tasks ++ [⟨req, reply, fromClaim, readonly, false⟩] }
  else s.send [reply]

/-- `dcs_process_ask_master_for_page`, and one page of
`dcs_process_try_ask_master_for_page`: a batch answers every page. -/
def dcsProcessAskMaster (cfg : Config) (s : State) (req : DrcReqInfo) (isTry : Bool) : State :=
  match drcRequestPageOwner s.dir req isTry with
  | .error => s.send [.errorMsg req.instId req.instSid req.rsn]
  | .granted e =>
    let m := s.node cfg.master
    { s with dir := some e }.send
      [.ackNeedLoad req.instId req.instSid req.rsn (if isTry then none else some (m.lsn, m.scn))]
  | .waiting e =>
    { s with dir := some e }.send
      (if isTry then [.errorMsg req.instId req.instSid req.rsn] else [])
  | .alreadyOwner e req' isRetry readonly | .converting e req' isRetry readonly =>
    notifyOrInvalidate { s with dir := some e } req'
      (dcsNotifyOwnerForPage e.claimedOwner req' isRetry isTry) false readonly

/-- `dcs_process_claim_ownership_req` and `dcs_claim_ownership_internal`. -/
def dcsProcessClaim (cfg : Config) (s : State) (c : ClaimInfo) (batch : Bool) : State :=
  match drcClaimPageOwner cfg.timeout s.now s.dir c with
  | none => s
  | some (e, conflict) =>
    let s' := { s with dir := some e }.send
      (conflict.toList.map fun r : DrcReqInfo => .errorMsg r.instId r.instSid r.rsn)
    match e.converting with
    | none => s'
    | some r =>
      notifyOrInvalidate s' r
        (dcsNotifyAfterClaim cfg (batch || c.newId == cfg.master) e.claimedOwner r) true
        ((e.readonlyCopies.erase r.instId).erase e.claimedOwner)

/-- `drc_buf_res_recycle` up to the point where it releases the bucket
lock; without read-only copies the entry goes away at once. -/
def drcBufResRecycle (s : State) (src : InstId) (time : Nat) : State :=
  match s.dir with
  | none => s
  | some e =>
    if e.claimedOwner = src ∧ e.pending = false ∧ e.cvtTime < time ∧ bufResIsRecyclable e then
      let readonly := e.readonlyCopies.erase src
      if readonly = ∅ then { s with dir := none }
      else
        { s with
          dir := some { e with pending := true }
          recycling := some ⟨none, readonly, false, false⟩ }
    else s

def dcsProcessRecycleOwner (cfg : Config) (s : State) (src : InstId) (time lsn scn : Nat) : State :=
  let s := if src = cfg.master then s
    else s.setNode cfg.master ((s.node cfg.master).dtcUpdate lsn scn)
  drcBufResRecycle s src time

/-! ## The step function -/

/-- The request instance `i` waits for, when it has number `rsn` (`mes_recv`
compares the serial number). -/
def State.awaited (s : State) (i : InstId) (rsn : Nat) : Option PendReq :=
  (s.node i).pend.filter fun p => p.req.rsn == rsn

/-- Handle a message that has been taken out of the network. Answers to a
request the instance no longer waits for are dropped. -/
def deliverMsg (cfg : Config) (s : State) : Msg → Option State
  | .askMaster req isTry => some (dcsProcessAskMaster cfg s req isTry)
  | .ackNeedLoad dst _ rsn sync =>
    match s.awaited dst rsn with
    | none => some s
    | some _ => (dcsHandleAckNeedLoad s.disk (s.node dst) sync).map (s.setNode dst)
  | .ackAlreadyOwner dst _ rsn reqMode _ =>
    match s.awaited dst rsn with
    | none => some s
    | some p => (dcsHandleAckAlreadyOwner s.disk (s.node dst) p reqMode).map fun (n, claim) =>
        (s.setNode dst n).send [claim]
  | .errorMsg dst _ rsn =>
    match s.awaited dst rsn with
    | none => some s
    | some _ => some (s.setNode dst (s.node dst).giveUp)
  | .askOwner owner req isRetry =>
    if (s.node owner).pend.isSome then none
    else
      let (n, answer) := dcsOwnerTransferPage (s.node owner) req isRetry
      some ((s.setNode owner n).send [answer])
  | .pageReady m =>
    match s.awaited m.dst m.rsn with
    | none => some s
    | some p => (dcsHandleAckPageReady s.disk (s.node m.dst) p m).map fun (n, claim) =>
        (s.setNode m.dst n).send [claim]
  | .claim c batch => some (dcsProcessClaim cfg s c batch)
  | .invldReq dst =>
    if (s.node dst).pend.isSome then none
    else match bufInvalidatePageWithVersion (s.node dst) with
      | none => some s
      | some n => some (s.setNode dst n)
  | .invldOwnerReq dst =>
    match bufInvalidatePageOwner (s.node dst) with
    | none => some s
    | some n => some (s.setNode dst n)
  | .recycleOwner src time lsn scn => some (dcsProcessRecycleOwner cfg s src time lsn scn)

/-- The actions of a run. -/
inductive Act where
  /-- A session latches the page and asks for `mode`. -/
  | request (i : InstId) (instSid : Nat) (mode : LockMode)
  /-- The page is prefetched in a batch. -/
  | tryRequest (i : InstId) (instSid : Nat)
  /-- The `k`-th message in flight is handled. -/
  | deliver (k : Nat)
  /-- The `k`-th message in flight is lost. -/
  | drop (k : Nat)
  /-- A requester stops waiting. -/
  | timeout (i : InstId)
  /-- Copy `i` handles the invalidation of thread `k`. -/
  | invldCopy (k : Nat) (i : InstId)
  /-- Thread `k` sends its invalidation again, an old copy of it stays in flight. -/
  | invldResend (k : Nat) (i : InstId)
  /-- Thread `k` has all answers and goes on. -/
  | invldDone (k : Nat)
  /-- `drc_recycle_items` picks the entry. -/
  | recycleItems
  | recycleCopy (i : InstId)
  | recycleResend (i : InstId)
  /-- The owner handles the invalidation of a recycled entry. -/
  | recycleInvldOwner
  /-- The master stops waiting for the owner; its message stays in flight. -/
  | recycleOwnerTimeout
  | recycleDone
  /-- The page is modified. -/
  | write (i : InstId)
  /-- A checkpoint writes the page to disk. -/
  | flush (i : InstId)
  /-- The page leaves the buffer. -/
  | evict (i : InstId)
  | cleanEdp (i : InstId)
  | cleanEdpMaster (lsn : Nat)
  /-- Commits and work on other pages raise the clocks. -/
  | otherWork (i : InstId) (lsn scn : Nat)
  | tick (d : Nat)
  deriving DecidableEq, Repr

/-- May copy `i` be invalidated next? The master's own copy is first, and
the page must not be latched by a requester. -/
def invldEnabled (cfg : Config) (s : State) (waiting : Finset InstId) (i : InstId) : Bool :=
  decide (i ∈ waiting) && (decide (cfg.master ∉ waiting) || i == cfg.master)
    && (s.node i).pend.isNone

/-- The copies still to answer after `i` did: a failure on the master
itself ends `dcs_invalidate_readonly_copy` at once. -/
def waitingAfter (cfg : Config) (waiting : Finset InstId) (i : InstId) (ok : Bool) :
    Finset InstId :=
  if !ok && i == cfg.master then ∅ else waiting.erase i

/-- The end of an invalidation thread. Only the request path turns a
failure into an error answer; after a claim the owner is notified anyway. -/
def invldEnd (s : State) (t : InvldTask) : State :=
  if t.failed then
    s.send [if t.fromClaim then t.reply else .errorMsg t.req.instId t.req.instSid t.req.rsn]
  else
    { s with dir := s.dir.map fun e : DrcBufRes => { e with readonlyCopies := ∅ } }.send [t.reply]

/-- The modification of the page on instance `i`: `log_write` draws the
next LSN and the page gets it. -/
def Node.modify (n : Node) (c : BufCtrl) (ver : Nat) : Node :=
  { n with
    lsn := n.lsn + 1
    ctrl := some { c with page := ⟨n.lsn + 1, ver⟩, isDirty := true } }

/-- One step of the protocol. -/
def step (cfg : Config) (s : State) : Act → Option State
  | .request i sid mode =>
    let n := s.node i
    if n.pend.isSome ∨ ¬ n.lockMode < mode then none
    else
      let (n', m) := dcsRequestPage n i sid s.now mode
      some ({ s with now := s.now + 1 }.setNode i n' |>.send [m])
  | .tryRequest i sid =>
    let n := s.node i
    if n.pend.isSome ∨ n.ctrl.isSome then none
    else
      let (n', m) := dcsTryGetPageShareOwner n i sid s.now
      some ({ s with now := s.now + 1 }.setNode i n' |>.send [m])
  | .deliver k =>
    match s.net[k]? with
    | none => none
    | some m => deliverMsg cfg { s with net := s.net.eraseIdx k } m
  | .drop k => if k < s.net.length then some { s with net := s.net.eraseIdx k } else none
  | .timeout i =>
    if (s.node i).pend.isSome then some (s.setNode i (s.node i).giveUp) else none
  | .invldCopy k i =>
    match s.tasks[k]? with
    | none => none
    | some t =>
      if !invldEnabled cfg s t.waiting i then none
      else match bufInvalidatePageWithVersion (s.node i) with
        | none =>
          let t' := { t with waiting := waitingAfter cfg t.waiting i false, failed := true }
          some { s with tasks := s.tasks.set k t' }
        | some n =>
          let t' := { t with waiting := waitingAfter cfg t.waiting i true }
          some ({ s with tasks := s.tasks.set k t' }.setNode i n)
  | .invldResend k i =>
    match s.tasks[k]? with
    | none => none
    | some t => if i ∈ t.waiting ∧ i ≠ cfg.master then some (s.send [.invldReq i]) else none
  | .invldDone k =>
    match s.tasks[k]? with
    | none => none
    | some t =>
      if t.waiting ≠ ∅ then none else some (invldEnd { s with tasks := s.tasks.eraseIdx k } t)
  | .recycleItems =>
    match s.dir with
    | none => none
    | some e =>
      if e.pending || !bufResIsRecyclable e then none
      else
        some { s with
          dir := some { e with pending := true }
          recycling := some ⟨some e.readonlyCopies, e.readonlyCopies.erase e.claimedOwner,
            false, false⟩ }
  | .recycleCopy i =>
    match s.recycling with
    | none => none
    | some rt =>
      if !invldEnabled cfg s rt.waiting i then none
      else match bufInvalidatePageWithVersion (s.node i) with
        | none =>
          let rt' := { rt with waiting := waitingAfter cfg rt.waiting i false, failed := true }
          some { s with recycling := some rt' }
        | some n =>
          let rt' := { rt with waiting := waitingAfter cfg rt.waiting i true }
          some ({ s with recycling := some rt' }.setNode i n)
  | .recycleResend i =>
    match s.recycling with
    | none => none
    | some rt => if i ∈ rt.waiting ∧ i ≠ cfg.master then some (s.send [.invldReq i]) else none
  | .recycleInvldOwner =>
    match s.dir, s.recycling with
    | some e, some rt =>
      if rt.waiting ≠ ∅ ∨ rt.failed ∨ rt.ownerDone then none
      else match bufInvalidatePageOwner (s.node e.claimedOwner) with
        | none => some { s with recycling := some { rt with failed := true } }
        | some n => some ({ s with
            recycling := some { rt with ownerDone := true } }.setNode e.claimedOwner n)
    | _, _ => none
  | .recycleOwnerTimeout =>
    match s.dir, s.recycling with
    | some e, some rt =>
      if rt.waiting ≠ ∅ ∨ rt.failed ∨ rt.ownerDone ∨ e.claimedOwner = cfg.master then none
      else some ({ s with recycling := some { rt with failed := true } }.send
        [.invldOwnerReq e.claimedOwner])
    | _, _ => none
  | .recycleDone =>
    match s.dir, s.recycling with
    | some e, some rt =>
      -- drc_recycle_items panics when the entry changed meanwhile
      if rt.check.any (· ≠ e.readonlyCopies) then none
      else if rt.failed ∧ rt.waiting = ∅ then
        some { s with dir := some { e with pending := false }, recycling := none }
      else if rt.ownerDone then some { s with dir := none, recycling := none }
      else none
    | _, _ => none
  | .write i =>
    match (s.node i).ctrl with
    | none => none
    | some c =>
      if (s.node i).pend.isSome ∨ c.lockMode ≠ .exclusive ∨ c.loadStatus ≠ .isLoaded then none
      else some { s.setNode i ((s.node i).modify c (s.ver + 1)) with ver := s.ver + 1 }
  | .flush i =>
    match (s.node i).ctrl with
    | none => none
    | some c =>
      -- a local dirty page, or the owner asked by an instance with an older copy
      if (s.node i).pend.isSome ∨ c.isEdp ∨ ¬ (c.isDirty ∨ c.isOwner) then none
      else
        let c' := { c with isDirty := false, isRemoteDirty := false }
        some { s.setNode i { (s.node i) with ctrl := some c' } with disk := c.page }
  | .evict i =>
    match (s.node i).ctrl with
    | none => none
    | some c =>
      if (s.node i).pend.isSome ∨ !c.recyclable then none
      else
        let n := s.node i
        some ({ s with now := s.now + 1 }.setNode i { n with ctrl := none } |>.send
          (if c.isOwner then [.recycleOwner i s.now n.lsn n.scn] else []))
  | .cleanEdp i =>
    match (s.node i).ctrl with
    | none => none
    | some c =>
      if (s.node i).pend.isSome ∨ !c.isEdp ∨ s.disk.lsn < c.page.lsn then none
      else some (s.setNode i { (s.node i) with ctrl := some (dcsBufCleanCtrlEdp c) })
  | .cleanEdpMaster lsn =>
    match s.dir with
    | none => none
    | some e =>
      if s.disk.lsn < lsn ∨ lsn < e.lsn then none
      else some { s with dir := some { e with edpMap := ∅ } }
  | .otherWork i a b =>
    let n := s.node i
    some (s.setNode i { n with lsn := n.lsn + a, scn := n.scn + b })
  | .tick d => some { s with now := s.now + d }

/-- The states a run starts in: the page is in no buffer, the disk has its
newest version, and no instance's LSN is behind it. -/
structure Init (s : State) : Prop where
  dir : s.dir = none
  ctrl : ∀ i, (s.node i).ctrl = none
  pend : ∀ i, (s.node i).pend = none
  net : s.net = []
  tasks : s.tasks = []
  recycling : s.recycling = none
  ver : s.disk.ver = s.ver
  lsn : ∀ i, s.disk.lsn ≤ (s.node i).lsn

/-- A fresh cluster. -/
def start : State :=
  { dir := none, node := fun _ => ⟨none, none, 0, 0⟩, net := [], tasks := [],
    recycling := none, now := 0, disk := ⟨0, 0⟩, ver := 0 }

lemma start_init : Init start :=
  ⟨rfl, fun _ => rfl, fun _ => rfl, rfl, rfl, rfl, rfl, fun _ => le_refl 0⟩

end Cantian.Dcs
