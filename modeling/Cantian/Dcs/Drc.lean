import Cantian.Dcs.Types

/-!
# Page protocol — the directory

The functions of `dtc_drc.c` that run under the bucket lock of the page's
entry. Branches that only a reform takes (no claimed owner, remaster in
progress) are left out, and so is the pool that entries come from.
-/

namespace Cantian.Dcs

open List Bool

/-- `drc_check_new_req`: `true` is `CT_SUCCESS`. A request conflicts with
the converting one when the owner is upgrading and the requester holds a
read-only copy the owner must invalidate, or when the requester is the
owner and another instance is converting. -/
def drcCheckNewReq (e : DrcBufRes) (cvt req : DrcReqInfo) : Bool :=
  !(cvt.instId == e.claimedOwner && (e.mode == .share && cvt.reqMode == .exclusive)
      && req.instId != e.claimedOwner && decide (req.instId ∈ e.readonlyCopies))
  && !(req.instId == e.claimedOwner && req.instId != cvt.instId)

def drcIsRetryRequest (l r : DrcReqInfo) : Bool :=
  l.instId == r.instId && l.reqMode != r.currMode

def drcIsSameClaimRequest (cvt : DrcReqInfo) (c : ClaimInfo) : Bool :=
  cvt.instId == c.newId && cvt.instSid == c.instSid && cvt.reqMode == c.mode

/-- `drc_claim_info_is_invalid`, for an entry that has an owner. -/
def drcClaimInfoIsInvalid (c : ClaimInfo) (e : DrcBufRes) : Bool :=
  (c.mode != .share && c.hasEdp && !(c.mode == .exclusive && c.lsn != 0))
  || decide (0 < c.lsn ∧ c.lsn < e.lsn)

/-- Replace the first queued request that `req` retries
(`drc_search_item_by_reqid` and the assignment after it). -/
def drcReplaceItem (req : DrcReqInfo) : List DrcReqInfo → List DrcReqInfo
  | [] => []
  | item :: q =>
    if drcIsRetryRequest item req then req :: q else item :: drcReplaceItem req q

/-- What `drc_keep_requester_wait` decides. -/
inductive WaitResult where
  | error
  /-- The request is now the converting one, with the mode it got. -/
  | converting (e : DrcBufRes) (req : DrcReqInfo) (isRetry : Bool)
  | waiting (e : DrcBufRes)

def drcKeepRequesterWait (e : DrcBufRes) (req : DrcReqInfo) (isTry : Bool) : WaitResult :=
  match e.converting with
  | none =>
    -- only prefetch for pages granted to, or already owned by, the requester
    if isTry && e.claimedOwner != req.instId then .waiting e
    else .converting { e with converting := some req, cvtTime := req.rsn } req false
  | some cvt =>
    if isTry then .waiting e
    else if !drcCheckNewReq e cvt req then .error
    else if drcIsRetryRequest cvt req then
      if cvt.rsn ≤ req.rsn then
        -- the old owner may already have converted its lock mode
        let req' := { req with reqMode := cvt.reqMode.max req.reqMode }
        .converting { e with converting := some req', cvtTime := req'.rsn } req' true
      else .error
    else
      match e.convertQ.find? (drcIsRetryRequest · req) with
      | some item =>
        if item.lsn ≠ req.lsn then .error
        else .waiting { e with convertQ := drcReplaceItem req e.convertQ }
      | none => .waiting { e with convertQ := e.convertQ ++ [req] }

/-- `drc_req_owner_result_t` with the entry the call leaves behind. -/
inductive OwnerResult where
  | error
  | granted (e : DrcBufRes)
  | alreadyOwner (e : DrcBufRes) (req : DrcReqInfo) (isRetry : Bool) (readonly : Finset InstId)
  | converting (e : DrcBufRes) (req : DrcReqInfo) (isRetry : Bool) (readonly : Finset InstId)
  | waiting (e : DrcBufRes)

/-- The entry made for the first request of a page nobody has. -/
def drcNewBufRes (req : DrcReqInfo) : DrcBufRes :=
  { claimedOwner := req.instId, mode := req.reqMode, readonlyCopies := ∅, edpMap := ∅,
    pending := false, lsn := 0, converting := none, cvtTime := req.rsn, convertQ := [] }

/-- `drc_request_page_owner` up to the point where it releases the bucket
lock. `readonly` are the copies to invalidate before an exclusive request
may go on. -/
def drcRequestPageOwner (dir : Option DrcBufRes) (req : DrcReqInfo) (isTry : Bool) : OwnerResult :=
  match dir with
  | none => .granted (drcNewBufRes req)
  | some e =>
    if e.pending then .error
    else match drcKeepRequesterWait e req isTry with
      | .error => .error
      | .waiting e' => .waiting e'
      | .converting e' req' isRetry =>
        let readonly := (e'.readonlyCopies.erase req'.instId).erase e'.claimedOwner
        if e'.claimedOwner = req'.instId then .alreadyOwner e' req' isRetry readonly
        else .converting e' req' isRetry readonly

def drcClaimNewPageOwner (e : DrcBufRes) (c : ClaimInfo) : DrcBufRes :=
  if c.mode ≤ e.mode ∧ e.claimedOwner = c.newId then e
  else
    let e' :=
      if c.mode = .share then
        { e with mode := .share, readonlyCopies := insert c.newId e.readonlyCopies }
      else
        { e with
          claimedOwner := c.newId, mode := c.mode, readonlyCopies := ∅
          edpMap :=
            if c.hasEdp then insert e.claimedOwner (e.edpMap.erase c.newId)
            else e.edpMap.erase c.newId }
    if 0 < c.lsn then { e' with lsn := c.lsn } else e'

/-- The loop of `drc_convert_next_request`: queued requests older than
`timeout` are skipped. Returns the new converting request, the `req_time`
left in `converting`, and the rest of the queue. -/
def drcPopConvertQ (timeout now : Nat) :
    Nat → List DrcReqInfo → Option DrcReqInfo × Nat × List DrcReqInfo
  | t, [] => (none, t, [])
  | _, r :: q =>
    if r.rsn + timeout ≤ now then drcPopConvertQ timeout now r.rsn q else (some r, r.rsn, q)

/-- `drc_check_first_req_in_convert_queue`: the first queued request, taken
out when it conflicts with the converting one. -/
def drcCheckFirstReqInConvertQueue (e : DrcBufRes) : DrcBufRes × Option DrcReqInfo :=
  match e.converting, e.convertQ with
  | some cvt, r :: q =>
    if drcCheckNewReq e cvt r then (e, none) else ({ e with convertQ := q }, some r)
  | _, _ => (e, none)

/-- `drc_convert_next_request`: the entry, and the conflicting request to
be answered with an error. -/
def drcConvertNextRequest (timeout now : Nat) (e : DrcBufRes) : DrcBufRes × Option DrcReqInfo :=
  let (cvt, t, q) := drcPopConvertQ timeout now e.cvtTime e.convertQ
  drcCheckFirstReqInConvertQueue { e with converting := cvt, cvtTime := t, convertQ := q }

/-- The part of `drc_claim_page_owner` under the bucket lock; `none` when
the claim is ignored. -/
def drcClaimPageOwner (timeout now : Nat) (dir : Option DrcBufRes) (c : ClaimInfo) :
    Option (DrcBufRes × Option DrcReqInfo) :=
  match dir with
  | none => none
  | some e =>
    match e.converting with
    | none => none
    | some cvt =>
      if !drcIsSameClaimRequest cvt c then none
      else if drcClaimInfoIsInvalid c e then none
      else some (drcConvertNextRequest timeout now (drcClaimNewPageOwner e c))

def bufResIsRecyclable (e : DrcBufRes) : Bool :=
  e.converting.isNone && decide (e.edpMap = ∅)

/-! ## What the functions can do -/

/-- The request `req` does not have to wait in the queue. -/
def takesSlot (e : DrcBufRes) (req : DrcReqInfo) : Bool :=
  e.converting.all fun cvt => drcIsRetryRequest cvt req

/-- The request as it enters the slot. -/
def enters (e : DrcBufRes) (req : DrcReqInfo) : DrcReqInfo :=
  match e.converting with
  | none => req
  | some cvt => { req with reqMode := cvt.reqMode.max req.reqMode }

lemma enters_fields (e : DrcBufRes) (req : DrcReqInfo) :
    (enters e req).instId = req.instId ∧ (enters e req).rsn = req.rsn ∧
      (enters e req).currMode = req.currMode := by
  unfold enters
  split <;> exact ⟨rfl, rfl, rfl⟩

lemma enters_key (e : DrcBufRes) (req : DrcReqInfo) : (enters e req).key = req.key :=
  Prod.ext (enters_fields e req).1 (enters_fields e req).2.1

lemma enters_reqMode (e : DrcBufRes) {r} (hr : r.reqMode ≠ .null) :
    (enters e r).reqMode ≠ .null := by
  unfold enters
  split
  · exact hr
  · exact fun h => hr (LockMode.le_null.mp (h ▸ LockMode.le_max_right _ _))

/-- What `drc_keep_requester_wait` can decide. A prefetch never waits in
the queue, and is converted only for the owner. -/
inductive Waited (e : DrcBufRes) (req : DrcReqInfo) (isTry : Bool) : WaitResult → Prop where
  | error : Waited e req isTry .error
  | left (ht : isTry = true) : Waited e req isTry (.waiting e)
  | queued {q : List DrcReqInfo} (ht : isTry = false)
      (hq : q = drcReplaceItem req e.convertQ ∨ q = e.convertQ ++ [req]) :
      Waited e req isTry (.waiting { e with convertQ := q })
  | converting {isRetry : Bool} (htakes : takesSlot e req = true)
      (hle : ∀ c, e.converting = some c → c.rsn ≤ req.rsn)
      (htry : isTry = true → e.claimedOwner = req.instId) :
      Waited e req isTry (.converting
        { e with converting := some (enters e req), cvtTime := req.rsn } (enters e req) isRetry)

lemma drcKeepRequesterWait_cases (e : DrcBufRes) (req : DrcReqInfo) (isTry : Bool) :
    Waited e req isTry (drcKeepRequesterWait e req isTry) := by
  have hconv : ∀ {e' r'} isRetry, takesSlot e req = true →
      (∀ c, e.converting = some c → c.rsn ≤ req.rsn) →
      (isTry = true → e.claimedOwner = req.instId) → r' = enters e req →
      e' = { e with converting := some (enters e req), cvtTime := req.rsn } →
      Waited e req isTry (.converting e' r' isRetry) := by
    rintro _ _ isRetry htakes hle htry rfl rfl
    exact .converting htakes hle htry
  unfold drcKeepRequesterWait
  split
  · rename_i hc
    split_ifs with h
    · exact .left (and_eq_true_iff.mp h).1
    · refine hconv _ ?_ ?_ (fun ht => ?_) ?_ ?_
      · simp [takesSlot, hc]
      · simp [hc]
      · simpa [ht] using h
      · simp [enters, hc]
      · simp [enters, hc]
  · rename_i cvt hc
    split
    · rename_i ht
      exact .left ht
    rename_i ht
    split
    · exact .error
    split
    · rename_i hretry
      split_ifs with hle
      · refine hconv _ ?_ ?_ (fun h => absurd h ht) ?_ ?_
        · simp [takesSlot, hc, hretry]
        · intro c hc'
          cases hc.symm.trans hc'
          exact hle
        · simp [enters, hc]
        · simp [enters, hc]
      · exact .error
    split
    · split
      · exact .error
      · exact .queued (by simpa using ht) (.inl rfl)
    · exact .queued (by simpa using ht) (.inr rfl)

lemma drcReplaceItem_mem {req r q} (hr : r ∈ drcReplaceItem req q) : r ∈ q ∨ r = req := by
  induction q with
  | nil => cases hr
  | cons a q ih =>
    simp only [drcReplaceItem] at hr
    split at hr
    · rcases mem_cons.mp hr with rfl | hr
      · exact .inr rfl
      · exact .inl (mem_cons_of_mem _ hr)
    · rcases mem_cons.mp hr with rfl | hr
      · exact .inl mem_cons_self
      · exact (ih hr).imp_left (mem_cons_of_mem _)

lemma drcReplaceItem_pairwise {R req q} (hq : q.Pairwise R) (hreq : ∀ r ∈ q, R req r ∧ R r req) :
    (drcReplaceItem req q).Pairwise R := by
  induction q with
  | nil => exact .nil
  | cons a q ih =>
    obtain ⟨ha, hq⟩ := pairwise_cons.mp hq
    simp only [drcReplaceItem]
    split
    · exact pairwise_cons.mpr ⟨fun r hr => (hreq r (mem_cons_of_mem _ hr)).1, hq⟩
    · refine pairwise_cons.mpr
        ⟨fun r hr => ?_, ih hq fun r hr => hreq r (mem_cons_of_mem _ hr)⟩
      rcases drcReplaceItem_mem hr with hr | rfl
      · exact ha r hr
      · exact (hreq a mem_cons_self).2

/-- The next converting request and the rest of the queue come from the
queue, in its order. -/
lemma drcPopConvertQ_sublist (timeout now : Nat) : ∀ (q : List DrcReqInfo) (t : Nat),
      ((drcPopConvertQ timeout now t q).1.toList ++
        (drcPopConvertQ timeout now t q).2.2).Sublist q := by
  intro q
  induction q with
  | nil => intro t; exact .slnil
  | cons a q ih =>
    intro t
    simp only [drcPopConvertQ]
    split
    · exact (ih a.rsn).cons a
    · exact .refl _

/-- Converting the next request touches only `converting`, its time and
the queue; no queued request is both answered with an error and kept. -/
lemma drcConvertNextRequest_spec (timeout now : Nat) (e : DrcBufRes) :
    ∃ cvt t q conflict, drcConvertNextRequest timeout now e =
        ({ e with converting := cvt, cvtTime := t, convertQ := q }, conflict) ∧
      (cvt.toList ++ (conflict.toList ++ q)).Sublist e.convertQ := by
  have hsub := drcPopConvertQ_sublist timeout now e.convertQ e.cvtTime
  simp only [drcConvertNextRequest]
  generalize drcPopConvertQ timeout now e.cvtTime e.convertQ = res at hsub
  obtain ⟨cvt, t, q⟩ := res
  simp only [drcCheckFirstReqInConvertQueue]
  split
  · split <;> exact ⟨_, _, _, _, rfl, hsub⟩
  · exact ⟨_, _, _, _, rfl, hsub⟩

lemma drcClaimNewPageOwner_spec (e : DrcBufRes) (c : ClaimInfo) :
    ∃ o ro md em l, drcClaimNewPageOwner e c =
        { e with claimedOwner := o, readonlyCopies := ro, mode := md, edpMap := em, lsn := l } ∧
      ((c.mode ≠ .share ∧ o = c.newId ∧ md = c.mode) ∨
        (c.mode = .share ∧ o = e.claimedOwner ∧ ro = insert c.newId e.readonlyCopies ∧
          md = .share ∧ (e.claimedOwner = c.newId → ¬ .share ≤ e.mode)) ∨
        (e.claimedOwner = c.newId ∧ o = e.claimedOwner ∧ ro = e.readonlyCopies ∧ md = e.mode ∧
          c.mode ≤ e.mode)) := by
  unfold drcClaimNewPageOwner
  split
  · rename_i h
    exact ⟨_, _, _, _, _, rfl, .inr (.inr ⟨h.2, rfl, rfl, rfl, h.1⟩)⟩
  rename_i h
  by_cases hs : c.mode = .share
  · refine ⟨e.claimedOwner, insert c.newId e.readonlyCopies, .share, e.edpMap,
      if 0 < c.lsn then c.lsn else e.lsn, ?_, .inr (.inl ⟨hs, rfl, rfl, rfl, fun ho hle => ?_⟩)⟩
    · simp only [hs, if_true]
      split <;> rfl
    · exact h ⟨hs ▸ hle, ho⟩
  · refine ⟨c.newId, ∅, c.mode, if c.hasEdp then insert e.claimedOwner (e.edpMap.erase c.newId)
        else e.edpMap.erase c.newId,
      if 0 < c.lsn then c.lsn else e.lsn, ?_, .inl ⟨hs, rfl, rfl⟩⟩
    · simp only [hs, if_false]
      split <;> rfl

/-- A claim that is not ignored comes from the converting request, up to
its serial number. -/
lemma drcClaimPageOwner_some {timeout now dir c res}
    (h : drcClaimPageOwner timeout now dir c = some res) :
    ∃ e cvt, dir = some e ∧ e.converting = some cvt ∧ drcIsSameClaimRequest cvt c = true ∧
      drcClaimInfoIsInvalid c e = false ∧ cvt.instId = c.newId ∧
      res = drcConvertNextRequest timeout now (drcClaimNewPageOwner e c) := by
  unfold drcClaimPageOwner at h
  split at h
  · cases h
  rename_i e
  split at h
  · cases h
  rename_i cvt hcvt
  split at h
  · cases h
  rename_i hsame
  split at h
  · cases h
  rename_i hval
  cases h
  simp only [not_eq_true, not_eq_false'] at hsame hval
  have hfields := hsame
  simp only [drcIsSameClaimRequest, and_eq_true, beq_iff_eq] at hfields
  exact ⟨e, cvt, rfl, hcvt, hsame, hval, hfields.1.1, rfl⟩

end Cantian.Dcs
