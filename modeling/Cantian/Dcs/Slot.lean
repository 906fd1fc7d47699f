import Cantian.Dcs.Token

/-!
# Page protocol — the converting slot

Every step is one of six moves, as seen from the converting slot of the
directory entry: a request is handled, a claim is handled, an owner
transfers the page, a requester takes an answer and claims, an invalidation
thread ends, or nothing that concerns the slot happens (an entry without a
converting request may be marked for recycling or removed).
-/

namespace Cantian.Dcs

open List

/-- Messages on the way from a converted request to its requester. -/
def Msg.isAnswer : Msg → Bool
  | .askOwner .. | .ackAlreadyOwner .. | .pageReady _ => true
  | _ => false

def Msg.isClaim : Msg → Bool
  | .claim .. => true
  | _ => false

/-- What becomes of the entry while no request enters or leaves the slot. -/
inductive EntryStep (s t : State) : Prop where
  | same (hdir : t.dir = s.dir) (hrec : t.recycling.isSome = s.recycling.isSome)
  | clean {e : DrcBufRes} (he : s.dir = some e) (ht : t.dir = some { e with edpMap := ∅ })
      (hrec : t.recycling.isSome = s.recycling.isSome)
  | mark {e : DrcBufRes} (he : s.dir = some e) (hidle : e.converting = none)
      (ht : t.dir = some { e with pending := true })
  | unmark {e : DrcBufRes} (he : s.dir = some e) (ht : t.dir = some { e with pending := false })
      (hrec : t.recycling = none)
  | remove {e : DrcBufRes} (he : s.dir = some e) (hpend : e.pending = false)
      (hidle : e.converting = none) (ht : t.dir = none)
      (hrec : t.recycling.isSome = s.recycling.isSome)
  | recycled (hrec : s.recycling.isSome = true) (ht : t.dir = none) (hdone : t.recycling = none)

/-! ## What enters the slot -/

/-- The conversion of `r` is announced, at once or by a thread that
invalidates the copies `readonly` first. -/
inductive Announced (s t : State) (r : DrcReqInfo) (readonly : Finset InstId) : Prop where
  | thread {x : InvldTask} (hx : x.req = r) (htasks : t.tasks = s.tasks ++ [x])
      (hnet : t.net = s.net)
  | sent {m : Msg} (hm : Reply r m) (hcopies : r.reqMode = .exclusive → readonly = ∅)
      (htasks : t.tasks = s.tasks) (hnet : t.net = s.net ++ [m])

section
variable {cfg : Config} {s t : State}

variable {r : DrcReqInfo}

lemma notifyOrInvalidate_announced {m} (b : Bool) (ro : Finset InstId) (hm : Reply r m) :
    Announced s (notifyOrInvalidate s r m b ro) r ro := by
  unfold notifyOrInvalidate
  split_ifs with hcond
  · exact .thread rfl rfl rfl
  · refine .sent hm (fun hx => ?_) rfl rfl
    by_contra hne
    exact hcond ⟨hne, hx⟩

/-- What a request does: it enters the slot, or leaves it as it is. -/
inductive AskOutcome (s t : State) (r : DrcReqInfo) : Prop where
  | enter {e : DrcBufRes} (he : s.dir = some e) (hpend : e.pending = false)
      (htakes : takesSlot e r = true) (hrsn : ∀ c, e.converting = some c → c.rsn ≤ r.rsn)
      (ht : t.dir = some { e with converting := some (enters e r), cvtTime := r.rsn })
      (hann : Announced s t (enters e r) ((e.readonlyCopies.erase r.instId).erase e.claimedOwner))
  | wait {e : DrcBufRes} {q : List DrcReqInfo} (he : s.dir = some e)
      (ht : t.dir = some { e with convertQ := q }) (htasks : t.tasks = s.tasks)
      (hnet : ∀ m ∈ t.net, m ∈ s.net ∨ (m.isAnswer = false ∧ m.isClaim = false))
  | create (hs : s.dir = none) (ht : t.dir = some (drcNewBufRes r)) (htasks : t.tasks = s.tasks)
      (hnet : ∀ m ∈ t.net, m ∈ s.net ∨ (m.isAnswer = false ∧ m.isClaim = false))

lemma mem_send_control {l} (hl : ∀ m ∈ l, m.isAnswer = false ∧ m.isClaim = false) :
    ∀ m ∈ (s.send l).net, m ∈ s.net ∨ (m.isAnswer = false ∧ m.isClaim = false) := by
  intro m hm
  exact (mem_append.mp hm).imp_right (hl m)

lemma notifyOrInvalidate_recycling (req : DrcReqInfo) (reply : Msg) (b : Bool)
    (readonly : Finset InstId) :
    (notifyOrInvalidate s req reply b readonly).recycling = s.recycling := by
  unfold notifyOrInvalidate
  split <;> rfl

lemma Asked.recycling {b} (h : Asked s r b t) : t.recycling = s.recycling := by
  cases h with
  | converting => exact notifyOrInvalidate_recycling ..
  | _ => rfl

lemma Claimed.recycling {c} (h : Claimed cfg s c t) : t.recycling = s.recycling := by
  cases h with
  | ignored => rfl
  | taken he hcvt hsame hval hsub ht =>
    rcases ht with ⟨-, rfl⟩ | ⟨r, b, -, rfl⟩
    · rfl
    · exact notifyOrInvalidate_recycling ..

lemma Announced.of_eq {u ro} (h : Announced u t r ro) (htasks : u.tasks = s.tasks)
    (hnet : u.net = s.net) : Announced s t r ro := by
  cases h with
  | thread hx ht hn => exact .thread hx (htasks ▸ ht) (hnet ▸ hn)
  | sent hm hc ht hn => exact .sent hm hc (htasks ▸ ht) (hnet ▸ hn)

lemma Asked.outcome {b} (h : Asked s r b t) : AskOutcome s t r := by
  cases h with
  | @refused e hdir =>
    have hsame : s.dir = some { e with convertQ := e.convertQ } := hdir
    refine .wait hdir hsame rfl (mem_send_control fun m hm => ?_)
    rw [mem_singleton.mp hm]
    exact ⟨rfl, rfl⟩
  | granted hdir =>
    refine .create hdir rfl rfl (mem_send_control (s := { s with dir := _ }) fun m hm => ?_)
    rw [mem_singleton.mp hm]
    exact ⟨rfl, rfl⟩
  | queued hdir => exact .wait hdir rfl rfl fun m hm => .inl hm
  | converting hdir hpend htakes hle =>
    exact .enter hdir hpend htakes hle (notifyOrInvalidate_dir ..)
      ((notifyOrInvalidate_announced _ _ (dcsNotifyOwnerForPage_reply ..)).of_eq rfl rfl)

/-- What a claim does: nothing, or it ends the conversion, and the next
queued request may enter the slot. -/
inductive ClaimOutcome (cfg : Config) (s t : State) (c : ClaimInfo) : Prop where
  | ignored (hc : drcClaimPageOwner cfg.timeout s.now s.dir c = none) (ht : t = s)
  | finish {e : DrcBufRes} {cvt : DrcReqInfo} {q : List DrcReqInfo} {time : Nat}
      (he : s.dir = some e) (hcvt : e.converting = some cvt)
      (hsame : drcIsSameClaimRequest cvt c = true) (hval : drcClaimInfoIsInvalid c e = false)
      (ht : t.dir = some { drcClaimNewPageOwner e c with
        converting := none, cvtTime := time, convertQ := q })
      (htasks : t.tasks = s.tasks)
      (hnet : ∀ m ∈ t.net, m ∈ s.net ∨ (m.isAnswer = false ∧ m.isClaim = false))
  | next {e : DrcBufRes} {cvt r : DrcReqInfo} {q : List DrcReqInfo} {time : Nat} {l : List Msg}
      (he : s.dir = some e) (hcvt : e.converting = some cvt)
      (hsame : drcIsSameClaimRequest cvt c = true) (hval : drcClaimInfoIsInvalid c e = false)
      (hr : r ∈ e.convertQ)
      (ht : t.dir = some { drcClaimNewPageOwner e c with
        converting := some r, cvtTime := time, convertQ := q })
      (hl : ∀ m ∈ l, m.isAnswer = false ∧ m.isClaim = false)
      (hann : Announced (s.send l) t r
        (((drcClaimNewPageOwner e c).readonlyCopies.erase r.instId).erase
          (drcClaimNewPageOwner e c).claimedOwner))

lemma Claimed.outcome {c} (h : Claimed cfg s c t) : ClaimOutcome cfg s t c := by
  cases h with
  | ignored hc => exact .ignored hc rfl
  | @taken e cvt next time q conflict t hdir hcvt hsame hval hsub ht =>
    have hl : ∀ m ∈ conflict.toList.map fun r : DrcReqInfo =>
        Msg.errorMsg r.instId r.instSid r.rsn, m.isAnswer = false ∧ m.isClaim = false := by
      intro m hm
      obtain ⟨r, -, rfl⟩ := mem_map.mp hm
      exact ⟨rfl, rfl⟩
    rcases ht with ⟨rfl, rfl⟩ | ⟨r, b, rfl, rfl⟩
    · exact .finish hdir hcvt hsame hval rfl rfl (mem_send_control (s := { s with dir := _ }) hl)
    · refine .next hdir hcvt hsame hval (hsub.subset (by simp)) (notifyOrInvalidate_dir ..) hl ?_
      exact (notifyOrInvalidate_announced _ _ (dcsNotifyAfterClaim_reply ..)).of_eq rfl rfl

end

/-! ## Moves -/

/-- The moves of the slot. -/
inductive Move (cfg : Config) (s : State) (a : Act) (t : State) : Prop where
  | rest (hentry : EntryStep s t) (hnow : s.now ≤ t.now)
      (htasks : ∀ x ∈ t.tasks, ∃ y ∈ s.tasks, y.req = x.req)
      (hnet : ∀ m ∈ t.net, m ∈ s.net ∨ (m.isAnswer = false ∧ m.isClaim = false))
  | ask {k : Nat} {r : DrcReqInfo} {b : Bool} (ha : a = .deliver k)
      (hk : s.net[k]? = some (.askMaster r b)) (hnow : t.now = s.now)
      (hrec : t.recycling = s.recycling) (hout : AskOutcome { s with net := s.net.eraseIdx k } t r)
  | claim {k : Nat} {c : ClaimInfo} {b : Bool} (ha : a = .deliver k)
      (hk : s.net[k]? = some (.claim c b)) (hnow : t.now = s.now)
      (hrec : t.recycling = s.recycling)
      (hout : ClaimOutcome cfg { s with net := s.net.eraseIdx k } t c)
  | transfer {k : Nat} {o : InstId} {r : DrcReqInfo} {b : Bool}
      (hk : s.net[k]? = some (.askOwner o r b)) (hdir : t.dir = s.dir)
      (hrec : t.recycling = s.recycling) (hnow : t.now = s.now) (htasks : t.tasks = s.tasks)
      (hnet : ∀ m ∈ t.net, m ∈ s.net ∨ (m.isClaim = false ∧ m.key = some r.key))
  | answer {k : Nat} {m : Msg} {i : InstId} {p : PendReq} (hk : s.net[k]? = some m)
      (hm : m.isAnswer = true) (hkey : m.key = some (i, p.req.rsn))
      (hp : (s.node i).pend = some p) (hdir : t.dir = s.dir) (hrec : t.recycling = s.recycling)
      (hnow : t.now = s.now) (htasks : t.tasks = s.tasks)
      (hnet : ∀ m' ∈ t.net, m' ∈ s.net ∨ (m'.isAnswer = false ∧ m'.key = some p.req.key))
  | done {k : Nat} {x : InvldTask} (ha : a = .invldDone k) (hk : s.tasks[k]? = some x)
      (ht : t = invldEnd { s with tasks := s.tasks.eraseIdx k } x)

section
variable {cfg : Config} {s t : State} {a : Act}

lemma Move.quiet (hdir : t.dir = s.dir) (hrec : t.recycling.isSome = s.recycling.isSome)
    (hnow : s.now ≤ t.now) (htasks : t.tasks = s.tasks)
    (hnet : ∀ m ∈ t.net, m ∈ s.net ∨ (m.isAnswer = false ∧ m.isClaim = false)) : Move cfg s a t :=
  .rest (.same hdir hrec) hnow (fun x hx => ⟨x, htasks ▸ hx, rfl⟩) hnet

lemma claimOf_isAnswer (p : PendReq) (c : BufCtrl) (b : Bool) (mode : LockMode) :
    (claimOf p c b mode).isAnswer = false := by
  unfold claimOf
  split <;> rfl

lemma dcsOwnerTransferPage_isClaim (n : Node) (req : DrcReqInfo) (b : Bool) :
    (dcsOwnerTransferPage n req b).2.isClaim = false := by
  rcases dcsOwnerTransferPage_cases n req b with h | ⟨-, m, h, -⟩ | ⟨c, nl, r2x, -, h, -⟩ <;>
    rw [h] <;> rfl

lemma Delivered.move {k m} (hk : s.net[k]? = some m)
    (ht : Delivered cfg { s with net := s.net.eraseIdx k } m t) : Move cfg s (.deliver k) t := by
  have hold : ∀ m' ∈ s.net.eraseIdx k, m' ∈ s.net ∨ (m'.isAnswer = false ∧ m'.isClaim = false) :=
    fun m' hm' => .inl (mem_of_mem_eraseIdx hm')
  -- an answer that is waited for becomes a claim
  have hclaim : ∀ i rsn p n c b mode, m.isAnswer = true → m.key = some (i, rsn) →
      s.awaited i rsn = some p →
      Move cfg s (.deliver k)
        (({ s with net := s.net.eraseIdx k }.setNode i n).send [claimOf p c b mode]) := by
    intro i rsn p n c b mode hm hkey hw
    obtain ⟨hp, rfl⟩ := awaited_some hw
    refine .answer hk hm hkey hp rfl rfl rfl rfl fun m' hm' => ?_
    rcases mem_append.mp hm' with hm' | hm'
    · exact .inl (mem_of_mem_eraseIdx hm')
    · rw [mem_singleton.mp hm']
      exact .inr ⟨claimOf_isAnswer .., claimOf_key ..⟩
  cases ht with
  | askMaster h => exact .ask rfl hk h.framed.now h.recycling h.outcome
  | claim h => exact .claim rfl hk h.framed.now h.recycling h.outcome
  | recycleOwner h =>
    cases h with
    | kept => exact .quiet rfl rfl (le_refl _) rfl hold
    | removed he _ hpend hidle =>
      exact .rest (.remove he hpend hidle rfl rfl) (le_refl _) (fun x hx => ⟨x, hx, rfl⟩) hold
    | marked he _ hidle =>
      exact .rest (.mark he hidle rfl) (le_refl _) (fun x hx => ⟨x, hx, rfl⟩) hold
  | already hw hn hm | ready hw hn hm =>
    obtain ⟨c, b, md, rfl⟩ := hm
    exact hclaim _ _ _ _ _ _ _ rfl rfl hw
  | askOwner =>
    refine .transfer hk rfl rfl rfl rfl fun m' hm' => ?_
    rcases mem_append.mp hm' with hm' | hm'
    · exact .inl (mem_of_mem_eraseIdx hm')
    · rw [mem_singleton.mp hm']
      exact .inr ⟨dcsOwnerTransferPage_isClaim .., dcsOwnerTransferPage_key ..⟩
  | _ => exact .quiet rfl rfl (le_refl _) rfl hold

/-- Every step is a move. -/
lemma step_move (ht : step cfg s a = some t) : Move cfg s a t := by
  have hquiet : ∀ {u : State}, u.dir = s.dir → u.recycling.isSome = s.recycling.isSome →
      s.now ≤ u.now → u.tasks = s.tasks → u.net = s.net → Move cfg s a u := by
    intro u hdir hrec hnow htasks hnet
    exact .quiet hdir hrec hnow htasks fun m hm => .inl (hnet ▸ hm)
  -- a message that is neither an answer nor a claim is sent
  have hsend : ∀ {u : State} {m : Msg}, u.dir = s.dir →
      u.recycling.isSome = s.recycling.isSome → s.now ≤ u.now → u.tasks = s.tasks →
      u.net = s.net → m.isAnswer = false → m.isClaim = false → Move cfg s a (u.send [m]) := by
    intro u m hdir hrec hnow htasks hnet hans hcl
    refine .quiet hdir hrec hnow htasks fun m' hm => ?_
    rcases mem_append.mp hm with hm | hm
    · exact .inl (hnet ▸ hm)
    · rw [mem_singleton.mp hm]
      exact .inr ⟨hans, hcl⟩
  have htasks : ∀ {k x w f}, s.tasks[k]? = some x →
      ∀ y ∈ s.tasks.set k { x with waiting := w, failed := f }, ∃ z ∈ s.tasks, z.req = y.req := by
    intro k x w f hk y hy
    rcases mem_or_eq_of_mem_set hy with hy | rfl
    · exact ⟨y, hy, rfl⟩
    · exact ⟨x, mem_of_getElem? hk, rfl⟩
  have hentry : ∀ {u : State}, EntryStep s u → s.now ≤ u.now → u.tasks = s.tasks → u.net = s.net →
      Move cfg s a u := by
    intro u he hnow htasks hnet
    exact .rest he hnow (fun x hx => ⟨x, htasks ▸ hx, rfl⟩) fun m hm => .inl (hnet ▸ hm)
  cases step_cases ht with
  | deliver hk hd => exact hd.move hk
  | request | tryRequest => exact hsend rfl rfl (Nat.le_succ _) rfl rfl rfl rfl
  | invldResend | recycleResend => exact hsend rfl rfl (le_refl _) rfl rfl rfl rfl
  | recycleOwnerTimeout he hrt =>
    exact hsend rfl (by simp [hrt]) (le_refl _) rfl rfl rfl rfl
  | drop =>
    exact .quiet rfl rfl (le_refl _) rfl fun m hm => .inl (mem_of_mem_eraseIdx hm)
  | invldFail hk | invldCopy hk =>
    exact .rest (.same rfl rfl) (le_refl _) (htasks hk) fun m hm => .inl hm
  | invldDone hk => exact .done rfl hk rfl
  | recycleItems he hidle =>
    simp only [bufResIsRecyclable, Bool.and_eq_true, Option.isNone_iff_eq_none] at hidle
    exact hentry (.mark he hidle.1 rfl) (le_refl _) rfl rfl
  | recycleFail hrt | ownerFail he hrt => exact hquiet rfl (by simp [hrt]) (le_refl _) rfl rfl
  | recycleCopy hrt | recycleInvldOwner he hrt =>
    exact hquiet rfl (by simp [hrt, State.setNode]) (le_refl _) rfl rfl
  | recycleFailed he => exact hentry (.unmark he rfl rfl) (le_refl _) rfl rfl
  | recycleDone he hrt =>
    exact hentry (.recycled (by simp [hrt]) rfl rfl) (le_refl _) rfl rfl
  | @evict i c =>
    cases c.isOwner with
    | true => exact hsend rfl rfl (Nat.le_succ _) rfl rfl rfl rfl
    | false =>
      refine .quiet rfl rfl (Nat.le_succ _) rfl fun m hm => .inl ?_
      simpa [State.send, State.setNode] using hm
  | cleanEdpMaster he => exact hentry (.clean he rfl rfl) (le_refl _) rfl rfl
  | tick => exact hquiet rfl rfl (Nat.le_add_right _ _) rfl rfl
  | _ => exact hquiet rfl rfl (le_refl _) rfl rfl

end

end Cantian.Dcs
