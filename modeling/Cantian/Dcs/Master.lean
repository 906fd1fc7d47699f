import Cantian.Dcs.Step

/-!
# Page protocol — what a step can do

The handlers of the master, by what becomes of the entry and of the request,
and the cases of a step. Everything about a run is proved over these cases.
-/

namespace Cantian.Dcs

open Option

section
variable (cfg : Config) (s : State)

/-- What the master does with a request. -/
inductive Asked (r : DrcReqInfo) (isTry : Bool) : State → Prop where
  | refused {e : DrcBufRes} (he : s.dir = some e) :
      Asked r isTry (s.send [.errorMsg r.instId r.instSid r.rsn])
  | granted {sync : Option (Nat × Nat)} (hs : s.dir = none) :
      Asked r isTry ({ s with dir := some (drcNewBufRes r) }.send
        [.ackNeedLoad r.instId r.instSid r.rsn sync])
  | queued {e : DrcBufRes} {q : List DrcReqInfo} (he : s.dir = some e) (ht : isTry = false)
      (hq : q = drcReplaceItem r e.convertQ ∨ q = e.convertQ ++ [r]) :
      Asked r isTry { s with dir := some { e with convertQ := q } }
  | converting {e : DrcBufRes} {isRetry : Bool} (he : s.dir = some e) (hpend : e.pending = false)
      (htakes : takesSlot e r = true) (hle : ∀ c, e.converting = some c → c.rsn ≤ r.rsn)
      (htry : isTry = true → e.claimedOwner = r.instId) :
      Asked r isTry (notifyOrInvalidate
        { s with dir := some { e with converting := some (enters e r), cvtTime := r.rsn } }
        (enters e r) (dcsNotifyOwnerForPage e.claimedOwner (enters e r) isRetry isTry) false
        ((e.readonlyCopies.erase r.instId).erase e.claimedOwner))

lemma dcsProcessAskMaster_cases (r : DrcReqInfo) (isTry : Bool) :
    Asked s r isTry (dcsProcessAskMaster cfg s r isTry) := by
  cases hdir : s.dir with
  | none =>
    simp only [dcsProcessAskMaster, drcRequestPageOwner, hdir]
    exact .granted hdir
  | some e =>
    simp only [dcsProcessAskMaster, drcRequestPageOwner, hdir]
    cases hp : e.pending with
    | true => exact .refused hdir
    | false =>
      simp only [Bool.false_eq_true, if_false]
      have hw := drcKeepRequesterWait_cases e r isTry
      generalize drcKeepRequesterWait e r isTry = w at hw ⊢
      cases hw with
      | error => exact .refused hdir
      | left ht =>
        simp only [ht, if_true, ← hdir]
        exact .refused hdir
      | queued ht hq =>
        simp only [ht, Bool.false_eq_true, if_false, State.send, List.append_nil]
        exact .queued hdir rfl hq
      | @converting isRetry htakes hle htry =>
        have h := @Asked.converting s r isTry e isRetry hdir hp htakes hle htry
        rw [← (enters_fields e r).1] at h
        by_cases ho : e.claimedOwner = (enters e r).instId
        · simp only [ho, if_true] at h ⊢
          exact h
        · simp only [ho, if_false]
          exact h

/-- The entry after a claim, and the errors that go out with it. -/
def claimed (e : DrcBufRes) (c : ClaimInfo) (cvt : Option DrcReqInfo) (time : Nat)
    (q : List DrcReqInfo) (conflict : Option DrcReqInfo) : State :=
  { s with dir := some { drcClaimNewPageOwner e c with
      converting := cvt, cvtTime := time, convertQ := q } }.send
    (conflict.toList.map fun r : DrcReqInfo => .errorMsg r.instId r.instSid r.rsn)

/-- What the master does with a claim. -/
inductive Claimed (c : ClaimInfo) : State → Prop where
  | ignored (hc : drcClaimPageOwner cfg.timeout s.now s.dir c = none) : Claimed c s
  | taken {e : DrcBufRes} {cvt : DrcReqInfo} {next : Option DrcReqInfo} {time : Nat}
      {q : List DrcReqInfo} {conflict : Option DrcReqInfo} {t : State} (he : s.dir = some e)
      (hcvt : e.converting = some cvt) (hsame : drcIsSameClaimRequest cvt c = true)
      (hval : drcClaimInfoIsInvalid c e = false)
      (hsub : (next.toList ++ (conflict.toList ++ q)).Sublist e.convertQ)
      (ht : next = none ∧ t = claimed s e c none time q conflict ∨
        ∃ r b, next = some r ∧ t = notifyOrInvalidate (claimed s e c (some r) time q conflict) r
          (dcsNotifyAfterClaim cfg b (drcClaimNewPageOwner e c).claimedOwner r) true
          (((drcClaimNewPageOwner e c).readonlyCopies.erase r.instId).erase
            (drcClaimNewPageOwner e c).claimedOwner)) : Claimed c t

lemma dcsProcessClaim_cases (c : ClaimInfo) (batch : Bool) :
    Claimed cfg s c (dcsProcessClaim cfg s c batch) := by
  unfold dcsProcessClaim
  cases hcl : drcClaimPageOwner cfg.timeout s.now s.dir c with
  | none => exact .ignored hcl
  | some res =>
    obtain ⟨e', conflict⟩ := res
    obtain ⟨e, cvt, hdir, hcvt, hsame, hval, -, hres⟩ := drcClaimPageOwner_some hcl
    obtain ⟨next, time, q, conflict', hnext, hsub⟩ :=
      drcConvertNextRequest_spec cfg.timeout s.now (drcClaimNewPageOwner e c)
    obtain ⟨rfl, rfl⟩ := Prod.mk.inj (hres.trans hnext)
    have hq : (drcClaimNewPageOwner e c).convertQ = e.convertQ := by
      obtain ⟨o, ro, md, em, l, h, -⟩ := drcClaimNewPageOwner_spec e c
      rw [h]
    rw [hq] at hsub
    cases next with
    | none => exact .taken hdir hcvt hsame hval hsub (.inl ⟨rfl, rfl⟩)
    | some r => exact .taken hdir hcvt hsame hval hsub (.inr ⟨r, _, rfl, rfl⟩)

/-- `drc_buf_res_recycle` removes the entry without invalidating anything. -/
def recycledAtOnce (e : DrcBufRes) (src : InstId) (time : Nat) : Bool :=
  e.claimedOwner == src && !e.pending && decide (e.cvtTime < time) && bufResIsRecyclable e &&
    decide (e.readonlyCopies.erase src = ∅)

/-- What `drc_buf_res_recycle` does: the entry stays, goes away, or is marked until its copies
are invalidated. -/
inductive Recycled (src : InstId) (time : Nat) : State → Prop where
  | kept : Recycled src time s
  | removed {e : DrcBufRes} (he : s.dir = some e) (hnow : recycledAtOnce e src time = true)
      (hpend : e.pending = false) (hidle : e.converting = none) :
      Recycled src time { s with dir := none }
  | marked {e : DrcBufRes} (he : s.dir = some e) (ho : e.claimedOwner = src)
      (hidle : e.converting = none) : Recycled src time { s with
        dir := some { e with pending := true }
        recycling := some ⟨none, e.readonlyCopies.erase src, false, false⟩ }

lemma drcBufResRecycle_cases (src : InstId) (time : Nat) :
    Recycled s src time (drcBufResRecycle s src time) := by
  unfold drcBufResRecycle
  cases hdir : s.dir with
  | none => exact .kept
  | some e =>
    dsimp only
    split
    · rename_i hcond
      obtain ⟨ho, hpend, htime, hrec⟩ := hcond
      have hidle : e.converting = none := by
        simp only [bufResIsRecyclable, Bool.and_eq_true, isNone_iff_eq_none] at hrec
        exact hrec.1
      split
      · rename_i hempty
        exact .removed hdir (by simp [recycledAtOnce, ho, hpend, htime, hrec, hempty]) hpend hidle
      · exact .marked hdir ho hidle
    · exact .kept

/-- The master may raise its clocks before. -/
lemma dcsProcessRecycleOwner_cases (src : InstId) (time lsn scn : Nat) :
    ∃ l c, Recycled (s.setNode cfg.master ((s.node cfg.master).dtcUpdate l c)) src time
      (dcsProcessRecycleOwner cfg s src time lsn scn) := by
  unfold dcsProcessRecycleOwner
  split
  · have hsame : s.setNode cfg.master ((s.node cfg.master).dtcUpdate 0 0) = s := by
      simp [State.setNode, Node.dtcUpdate]
    refine ⟨0, 0, ?_⟩
    rw [hsame]
    exact drcBufResRecycle_cases ..
  · exact ⟨lsn, scn, drcBufResRecycle_cases ..⟩

end

/-! ## What a step can do -/

/-- How a message is handled. -/
inductive Delivered (cfg : Config) (s : State) : Msg → State → Prop where
  | askMaster {req isTry t} (ht : Asked s req isTry t) : Delivered cfg s (.askMaster req isTry) t
  | claim {c batch t} (ht : Claimed cfg s c t) : Delivered cfg s (.claim c batch) t
  | recycleOwner {src time lsn scn l c t}
      (ht : Recycled (s.setNode cfg.master ((s.node cfg.master).dtcUpdate l c)) src time t) :
      Delivered cfg s (.recycleOwner src time lsn scn) t
  /-- Nobody waits for the answer, or the page stays valid. -/
  | ignored {m} : Delivered cfg s m s
  | needLoad {i sid rsn sync p n} (hw : s.awaited i rsn = some p)
      (hn : dcsHandleAckNeedLoad s.disk (s.node i) sync = some n) :
      Delivered cfg s (.ackNeedLoad i sid rsn sync) (s.setNode i n)
  | already {i sid rsn mode b p n m} (hw : s.awaited i rsn = some p)
      (hn : dcsHandleAckAlreadyOwner s.disk (s.node i) p mode = some (n, m))
      (hm : ∃ c hasEdp md, m = claimOf p c hasEdp md) :
      Delivered cfg s (.ackAlreadyOwner i sid rsn mode b) ((s.setNode i n).send [m])
  | ready {r p n m} (hw : s.awaited r.dst r.rsn = some p)
      (hn : dcsHandleAckPageReady s.disk (s.node r.dst) p r = some (n, m))
      (hm : ∃ c hasEdp md, m = claimOf p c hasEdp md) :
      Delivered cfg s (.pageReady r) ((s.setNode r.dst n).send [m])
  | error {i sid rsn p} (hw : s.awaited i rsn = some p) :
      Delivered cfg s (.errorMsg i sid rsn) (s.setNode i (s.node i).giveUp)
  | askOwner {o req b} (hp : (s.node o).pend = none) : Delivered cfg s (.askOwner o req b)
      ((s.setNode o (dcsOwnerTransferPage (s.node o) req b).1).send
        [(dcsOwnerTransferPage (s.node o) req b).2])
  | invld {i n} (hp : (s.node i).pend = none)
      (hn : bufInvalidatePageWithVersion (s.node i) = some n) :
      Delivered cfg s (.invldReq i) (s.setNode i n)
  | invldOwner {i n} (hn : bufInvalidatePageOwner (s.node i) = some n) :
      Delivered cfg s (.invldOwnerReq i) (s.setNode i n)

/-- How a step changes the state, with what its guards say. -/
inductive Stepped (cfg : Config) (s : State) : Act → State → Prop where
  | request {i sid mode} (hp : (s.node i).pend = none) (hlt : (s.node i).lockMode < mode) :
      Stepped cfg s (.request i sid mode)
        ({ s with now := s.now + 1 }.setNode i
          (dcsRequestPage (s.node i) i sid s.now mode).1 |>.send
          [(dcsRequestPage (s.node i) i sid s.now mode).2])
  | tryRequest {i sid} (hp : (s.node i).pend = none) (hc : (s.node i).ctrl = none) :
      Stepped cfg s (.tryRequest i sid)
        ({ s with now := s.now + 1 }.setNode i (dcsTryGetPageShareOwner (s.node i) i sid s.now).1
          |>.send [(dcsTryGetPageShareOwner (s.node i) i sid s.now).2])
  | deliver {k m t} (hk : s.net[k]? = some m)
      (ht : Delivered cfg { s with net := s.net.eraseIdx k } m t) : Stepped cfg s (.deliver k) t
  | drop {k} (hk : k < s.net.length) : Stepped cfg s (.drop k) { s with net := s.net.eraseIdx k }
  | timeout {i} : Stepped cfg s (.timeout i) (s.setNode i (s.node i).giveUp)
  | invldFail {k i x} (hk : s.tasks[k]? = some x) :
      Stepped cfg s (.invldCopy k i) { s with
        tasks := s.tasks.set k
          { x with waiting := waitingAfter cfg x.waiting i false, failed := true } }
  | invldCopy {k i x n} (hk : s.tasks[k]? = some x) (hen : invldEnabled cfg s x.waiting i = true)
      (hn : bufInvalidatePageWithVersion (s.node i) = some n) :
      Stepped cfg s (.invldCopy k i) ({ s with
        tasks := s.tasks.set k
          { x with waiting := waitingAfter cfg x.waiting i true } }.setNode i n)
  | invldResend {k i} : Stepped cfg s (.invldResend k i) (s.send [.invldReq i])
  | invldDone {k x} (hk : s.tasks[k]? = some x) (hw : x.waiting = ∅) :
      Stepped cfg s (.invldDone k) (invldEnd { s with tasks := s.tasks.eraseIdx k } x)
  | recycleItems {e} (he : s.dir = some e) (hidle : bufResIsRecyclable e = true) :
      Stepped cfg s .recycleItems { s with
        dir := some { e with pending := true }
        recycling := some ⟨some e.readonlyCopies, e.readonlyCopies.erase e.claimedOwner,
          false, false⟩ }
  | recycleFail {i rt} (hrt : s.recycling = some rt)
      (hen : invldEnabled cfg s rt.waiting i = true) :
      Stepped cfg s (.recycleCopy i) { s with
        recycling := some
          { rt with waiting := waitingAfter cfg rt.waiting i false, failed := true } }
  | recycleCopy {i rt n} (hrt : s.recycling = some rt)
      (hen : invldEnabled cfg s rt.waiting i = true)
      (hn : bufInvalidatePageWithVersion (s.node i) = some n) :
      Stepped cfg s (.recycleCopy i) ({ s with
        recycling := some { rt with waiting := waitingAfter cfg rt.waiting i true } }.setNode i n)
  | recycleResend {i} : Stepped cfg s (.recycleResend i) (s.send [.invldReq i])
  | ownerFail {e rt} (he : s.dir = some e) (hrt : s.recycling = some rt)
      (hd : rt.ownerDone = false) :
      Stepped cfg s .recycleInvldOwner { s with recycling := some { rt with failed := true } }
  | recycleInvldOwner {e rt n} (he : s.dir = some e) (hrt : s.recycling = some rt)
      (hw : rt.waiting = ∅) (hf : rt.failed = false) (hd : rt.ownerDone = false)
      (hn : bufInvalidatePageOwner (s.node e.claimedOwner) = some n) :
      Stepped cfg s .recycleInvldOwner
        ({ s with recycling := some { rt with ownerDone := true } }.setNode e.claimedOwner n)
  | recycleOwnerTimeout {e rt} (he : s.dir = some e) (hrt : s.recycling = some rt)
      (hd : rt.ownerDone = false) :
      Stepped cfg s .recycleOwnerTimeout
        ({ s with recycling := some { rt with failed := true } }.send
          [.invldOwnerReq e.claimedOwner])
  | recycleFailed {e rt} (he : s.dir = some e) (hrt : s.recycling = some rt) :
      Stepped cfg s .recycleDone
        { s with dir := some { e with pending := false }, recycling := none }
  | recycleDone {e rt} (he : s.dir = some e) (hrt : s.recycling = some rt)
      (hd : rt.ownerDone = true) :
      Stepped cfg s .recycleDone { s with dir := none, recycling := none }
  | write {i c} (hc : (s.node i).ctrl = some c) (hp : (s.node i).pend = none)
      (hx : c.lockMode = .exclusive) (hl : c.loadStatus = .isLoaded) :
      Stepped cfg s (.write i)
        { s.setNode i ((s.node i).modify c (s.ver + 1)) with ver := s.ver + 1 }
  | flush {i c} (hc : (s.node i).ctrl = some c) (hp : (s.node i).pend = none)
      (he : c.isEdp = false) (hd : c.isDirty = true ∨ c.isOwner = true) :
      Stepped cfg s (.flush i) { s.setNode i { (s.node i) with
        ctrl := some { c with isDirty := false, isRemoteDirty := false } } with disk := c.page }
  | evict {i c} (hc : (s.node i).ctrl = some c) (hp : (s.node i).pend = none)
      (hr : c.recyclable = true) :
      Stepped cfg s (.evict i) ({ s with now := s.now + 1 }.setNode i
        { (s.node i) with ctrl := none } |>.send
          (if c.isOwner then [.recycleOwner i s.now (s.node i).lsn (s.node i).scn] else []))
  | cleanEdp {i c} (hc : (s.node i).ctrl = some c) (he : c.isEdp = true) :
      Stepped cfg s (.cleanEdp i)
        (s.setNode i { (s.node i) with ctrl := some (dcsBufCleanCtrlEdp c) })
  | cleanEdpMaster {lsn e} (he : s.dir = some e) :
      Stepped cfg s (.cleanEdpMaster lsn) { s with dir := some { e with edpMap := ∅ } }
  | otherWork {i a b} : Stepped cfg s (.otherWork i a b)
      (s.setNode i { (s.node i) with lsn := (s.node i).lsn + a, scn := (s.node i).scn + b })
  | tick {d} : Stepped cfg s (.tick d) { s with now := s.now + d }

section
variable {cfg : Config} {s t : State}

lemma deliverMsg_cases {m} (ht : deliverMsg cfg s m = some t) : Delivered cfg s m t := by
  cases m <;> simp only [deliverMsg] at ht
  case askMaster =>
    cases ht
    exact .askMaster (dcsProcessAskMaster_cases ..)
  case claim =>
    cases ht
    exact .claim (dcsProcessClaim_cases ..)
  case recycleOwner =>
    cases ht
    obtain ⟨l, c, h⟩ := dcsProcessRecycleOwner_cases cfg s ..
    exact .recycleOwner h
  case ackNeedLoad i sid rsn sync =>
    split at ht
    · cases ht
      exact .ignored
    · rename_i hw
      obtain ⟨n, hn, rfl⟩ := map_eq_some_iff.mp ht
      exact .needLoad hw hn
  case ackAlreadyOwner =>
    split at ht
    · cases ht
      exact .ignored
    · rename_i hw
      obtain ⟨⟨n, m⟩, hn, rfl⟩ := map_eq_some_iff.mp ht
      obtain ⟨c, c', -, -, -, -, hm⟩ := dcsHandleAckAlreadyOwner_some hn
      exact .already hw hn ⟨_, _, _, hm⟩
  case pageReady =>
    split at ht
    · cases ht
      exact .ignored
    · rename_i hw
      obtain ⟨⟨n, m⟩, hn, rfl⟩ := map_eq_some_iff.mp ht
      obtain ⟨c, c1, c', -, -, -, -, -, hm⟩ := dcsHandleAckPageReady_some hn
      exact .ready hw hn ⟨_, _, _, hm⟩
  case errorMsg | invldOwnerReq =>
    split at ht <;> cases ht
    · exact .ignored
    · constructor
      assumption
  case askOwner o req b =>
    split at ht <;> cases ht
    rename_i hp
    exact .askOwner (by simpa using hp)
  case invldReq i =>
    split at ht
    · cases ht
    rename_i hp
    split at ht <;> cases ht
    · exact .ignored
    · rename_i hn
      exact .invld (by simpa using hp) hn

lemma step_cases {a} (ht : step cfg s a = some t) : Stepped cfg s a t := by
  cases a <;> simp only [step] at ht
  case request i sid mode =>
    split at ht <;> cases ht
    rename_i hg
    simp only [not_or, not_not, Bool.not_eq_true, isSome_eq_false_iff, isNone_iff_eq_none] at hg
    exact .request hg.1 hg.2
  case tryRequest i sid =>
    split at ht <;> cases ht
    rename_i hg
    simp only [not_or, Bool.not_eq_true, isSome_eq_false_iff, isNone_iff_eq_none] at hg
    exact .tryRequest hg.1 hg.2
  case deliver k =>
    split at ht
    · cases ht
    · rename_i hk
      exact .deliver hk (deliverMsg_cases ht)
  case drop k =>
    split at ht <;> cases ht
    rename_i hk
    exact .drop hk
  case timeout =>
    split at ht <;> cases ht
    exact .timeout
  case invldCopy k i =>
    split at ht
    · cases ht
    rename_i hk
    split at ht
    · cases ht
    rename_i hen
    split at ht <;> cases ht
    · exact .invldFail hk
    · rename_i hn
      exact .invldCopy hk (by simpa using hen) hn
  case invldResend | recycleResend =>
    split at ht
    · cases ht
    split at ht <;> cases ht
    constructor
  case invldDone k =>
    split at ht
    · cases ht
    rename_i hk
    split at ht <;> cases ht
    rename_i hw
    exact .invldDone hk (by simpa using hw)
  case recycleItems =>
    split at ht
    · cases ht
    rename_i he
    split at ht <;> cases ht
    rename_i hg
    simp only [Bool.or_eq_true, not_or, Bool.not_eq_true, Bool.not_eq_false'] at hg
    exact .recycleItems he hg.2
  case recycleCopy i =>
    split at ht
    · cases ht
    rename_i hrt
    split at ht
    · cases ht
    rename_i hen
    split at ht <;> cases ht
    · exact .recycleFail hrt (by simpa using hen)
    · rename_i hn
      exact .recycleCopy hrt (by simpa using hen) hn
  case recycleInvldOwner =>
    split at ht
    case h_2 => cases ht
    rename_i he hrt
    split at ht
    · cases ht
    rename_i hg
    simp only [not_or, not_not, Bool.not_eq_true] at hg
    split at ht <;> cases ht
    · exact .ownerFail he hrt hg.2.2
    · rename_i hn
      exact .recycleInvldOwner he hrt hg.1 hg.2.1 hg.2.2 hn
  case recycleOwnerTimeout =>
    split at ht
    case h_2 => cases ht
    rename_i he hrt
    split at ht <;> cases ht
    rename_i hg
    simp only [not_or, not_not, Bool.not_eq_true] at hg
    exact .recycleOwnerTimeout he hrt hg.2.2.1
  case recycleDone =>
    split at ht
    case h_2 => cases ht
    rename_i he hrt
    split at ht
    · cases ht
    split at ht
    · cases ht
      exact .recycleFailed he hrt
    split at ht <;> cases ht
    rename_i hd
    exact .recycleDone he hrt hd
  case write i =>
    split at ht
    · cases ht
    rename_i hc
    split at ht <;> cases ht
    rename_i hg
    simp only [not_or, not_not] at hg
    exact .write hc (by simpa using hg.1) hg.2.1 hg.2.2
  case flush i =>
    split at ht
    · cases ht
    rename_i hc
    split at ht <;> cases ht
    rename_i hg
    rw [not_or, not_or, not_not] at hg
    exact .flush hc (by simpa using hg.1) (by simpa using hg.2.1) hg.2.2
  case evict i =>
    split at ht
    · cases ht
    rename_i hc
    split at ht <;> cases ht
    rename_i hg
    simp only [not_or, Bool.not_eq_true, isSome_eq_false_iff, isNone_iff_eq_none,
      Bool.not_eq_false'] at hg
    exact .evict hc hg.1 hg.2
  case cleanEdp i =>
    split at ht
    · cases ht
    rename_i hc
    split at ht <;> cases ht
    rename_i hg
    simp only [not_or, Bool.not_eq_true, Bool.not_eq_false'] at hg
    exact .cleanEdp hc hg.2.1
  case cleanEdpMaster lsn =>
    split at ht
    · cases ht
    rename_i he
    split at ht <;> cases ht
    exact .cleanEdpMaster he
  case otherWork | tick =>
    cases ht
    constructor

end

end Cantian.Dcs
