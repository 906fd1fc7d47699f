import Cantian.Dcs.Swmr

/-!
# Page protocol — one token for each request

A request moves through the network, the master's queue and its
invalidation threads as one token: the question, the message to the owner,
the answer, the claim. No step doubles it. That the page is on its way to
at most one place rests on this.

The request data travels with the token unchanged, but for the mode that a
retry can raise; in particular the mode the requester holds stays the one
it asked with, since it waits with the page latched.
-/

namespace Cantian.Dcs

open Function Lib List Option State Msg Prod

/-- The tokens of request `k`. -/
def State.tok (s : State) (k : InstId × Nat) : Nat :=
  s.net.countP (fun m => m.key == some k) + s.view.queue.countP (fun r => r.key == k)
    + s.tasks.countP (fun t => t.req.key == k)

/-- A request the master has not finished with, as it travels. -/
def State.Info (s : State) (r : DrcReqInfo) : Prop :=
  (∃ b, .askMaster r b ∈ s.net) ∨ r ∈ s.view.queue ∨ (∃ t ∈ s.tasks, t.req = r) ∨
    ∃ o b, .askOwner o r b ∈ s.net

/-- The messages that answer request `r`, or pass it on to the owner. -/
def Reply (r : DrcReqInfo) (m : Msg) : Prop :=
  (∃ b, m = .ackAlreadyOwner r.instId r.instSid r.rsn r.reqMode b) ∨ ∃ o b, m = .askOwner o r b

variable {r : DrcReqInfo} {m : Msg} {j : Nat} {s' : State}

lemma Reply.key (h : Reply r m) : m.key = some r.key := by
  rcases h with ⟨b, rfl⟩ | ⟨o, b, rfl⟩ <;> rfl

lemma dcsNotifyOwnerForPage_reply (o : InstId) (r : DrcReqInfo) (b b' : Bool) :
    Reply r (dcsNotifyOwnerForPage o r b b') := by
  unfold dcsNotifyOwnerForPage
  split
  · exact .inl ⟨b', rfl⟩
  · exact .inr ⟨o, b, rfl⟩

lemma dcsNotifyAfterClaim_reply (cfg : Config) (internal : Bool) (o : InstId) (r : DrcReqInfo) :
    Reply r (dcsNotifyAfterClaim cfg internal o r) := by
  unfold dcsNotifyAfterClaim
  split
  · exact .inr ⟨o, false, rfl⟩
  · exact dcsNotifyOwnerForPage_reply ..

/-! ## Counting -/

section
variable {cfg : Config} {s t : State} {k : InstId × Nat}

lemma tok_eraseIdx (h : s.net[j]? = some m) :
    { s with net := s.net.eraseIdx j }.tok k + (if m.key == some k then 1 else 0) = s.tok k := by
  have := countP_eraseIdx_add (p := fun m : Msg => m.key == some k) h
  simp only [tok]
  have hv : { s with net := s.net.eraseIdx j }.view.queue = s.view.queue := rfl
  rw [hv]
  omega

lemma tok_send (l : List Msg) :
    (s.send l).tok k = s.tok k + l.countP (fun m => m.key == some k) := by
  have hv : (s.send l).view.queue = s.view.queue := rfl
  simp only [tok, hv]
  simp only [send, countP_append]
  omega

lemma tok_dir (d : Option DrcBufRes) :
    { s with dir := d }.tok k + s.view.queue.countP (fun r => r.key == k) =
      s.tok k + (d.elim [] (·.convertQ)).countP (fun r => r.key == k) := by
  simp only [tok, view]
  omega

lemma tok_notifyOrInvalidate {b ro} (h : Reply r m) :
    (notifyOrInvalidate s r m b ro).tok k = s.tok k + (if r.key == k then 1 else 0) := by
  unfold notifyOrInvalidate
  split
  · simp only [tok]
    have hv : ∀ ts, { s with tasks := ts }.view.queue = s.view.queue := fun _ => rfl
    rw [hv]
    simp only [countP_append, countP_singleton]
    omega
  · rw [tok_send]
    simp [h.key]

lemma countP_drcReplaceItem {p} (req : DrcReqInfo) (q : List DrcReqInfo) :
    (drcReplaceItem req q).countP p ≤ q.countP p + (if p req then 1 else 0) := by
  induction q with
  | nil => simp [drcReplaceItem]
  | cons =>
    simp only [drcReplaceItem]
    split
    · simp only [countP_cons]
      omega
    · simp only [countP_cons]
      omega

lemma countP_key_singleton {x} (hm : m.key = some x) :
    [m].countP (fun m => m.key == some k) = if x == k then 1 else 0 := by
  rw [countP_singleton, hm]
  rfl

lemma Asked.tok {req isTry} (ht : Asked s req isTry t) :
    t.tok k ≤ s.tok k + (if req.key == k then 1 else 0) := by
  cases ht with
  | refused => rw [tok_send, countP_key_singleton rfl]; rfl
  | granted hdir =>
    have h := tok_dir (s := s) (k := k) (some (drcNewBufRes req))
    simp only [Option.elim, drcNewBufRes, List.countP_nil] at h
    rw [tok_send, countP_key_singleton (x := req.key) rfl]
    simp only [drcNewBufRes]
    omega
  | @queued e q he ht hq =>
    have h := tok_dir (s := s) (k := k) (some { e with convertQ := q })
    have hqe : s.view.queue = e.convertQ := by simp [view, he]
    simp only [Option.elim, hqe] at h
    have hle : q.countP (fun r => r.key == k) ≤
        e.convertQ.countP (fun r => r.key == k) + (if req.key == k then 1 else 0) := by
      rcases hq with rfl | rfl
      · exact countP_drcReplaceItem req e.convertQ
      · rw [List.countP_append, List.countP_singleton]
    omega
  | @converting e isRetry he =>
    have h := tok_dir (s := s) (k := k)
      (some { e with converting := some (enters e req), cvtTime := req.rsn })
    have hqe : s.view.queue = e.convertQ := by simp [view, he]
    simp only [Option.elim, hqe] at h
    rw [tok_notifyOrInvalidate (dcsNotifyOwnerForPage_reply ..), enters_key]
    omega

lemma Claimed.tok {c} (ht : Claimed cfg s c t) : t.tok k ≤ s.tok k := by
  cases ht with
  | ignored => exact le_refl _
  | @taken e cvt next time q conflict _ hdir hcvt hsame hval hsub ht =>
    have hcount := hsub.countP_le (p := fun r => r.key == k)
    simp only [countP_append] at hcount
    have hclaimed : ∀ nx, (claimed s e c nx time q conflict).tok k +
        e.convertQ.countP (·.key == k) =
        s.tok k + q.countP (·.key == k) + conflict.toList.countP (·.key == k) := by
      intro nx
      have h := tok_dir (s := s) (k := k) (some { drcClaimNewPageOwner e c with
        converting := nx, cvtTime := time, convertQ := q })
      have hq : s.view.queue = e.convertQ := by simp [view, hdir]
      simp only [Option.elim, hq] at h
      have hconf : (conflict.toList.map fun r : DrcReqInfo =>
          errorMsg r.instId r.instSid r.rsn).countP (fun m => m.key == some k) =
          conflict.toList.countP (·.key == k) := by
        cases conflict <;> rfl
      simp only [claimed, tok_send, hconf]
      omega
    rcases ht with ⟨rfl, rfl⟩ | ⟨r, b, rfl, rfl⟩
    · have h := hclaimed none
      omega
    · have h := hclaimed (some r)
      simp only [toList_some, countP_singleton] at hcount
      rw [tok_notifyOrInvalidate (dcsNotifyAfterClaim_reply ..)]
      omega

lemma Recycled.tok {src time} (h : Recycled s src time t) : t.tok k ≤ s.tok k := by
  cases h with
  | kept => exact le_refl _
  | removed =>
    have htok := tok_dir (s := s) (k := k) none
    simp only [Option.elim, List.countP_nil] at htok
    omega
  | @marked e hdir =>
    have hq : s.view.queue = e.convertQ := by simp [view, hdir]
    have htok := tok_dir (s := s) (k := k) (some { e with pending := true })
    simp only [Option.elim, hq] at htok
    have hrec : ∀ d x, { s with dir := d, recycling := x }.tok k = { s with dir := d }.tok k :=
      fun _ _ => rfl
    rw [hrec]
    omega

lemma tok_clearReadonly :
    { s with dir := s.dir.map fun e : DrcBufRes => { e with readonlyCopies := ∅ } }.tok k =
      s.tok k := by
  simp only [tok, view]
  cases s.dir <;> rfl

lemma dcsOwnerTransferPage_key (n : Node) (req : DrcReqInfo) (b : Bool) :
    (dcsOwnerTransferPage n req b).2.key = some req.key := by
  rcases dcsOwnerTransferPage_cases n req b with
    h | ⟨-, m, h, hd, hr, -⟩ | ⟨c, nl, r2x, -, h, -⟩
  · rw [h]
    rfl
  · rw [h]
    simp [key, hd, hr, DrcReqInfo.key]
  · rw [h]
    rfl

lemma tok_invldEnd {t} (hj : s.tasks[j]? = some t) (h : Reply t.req t.reply) :
    (invldEnd { s with tasks := s.tasks.eraseIdx j } t).tok k ≤ s.tok k := by
  have hcount := countP_eraseIdx_add (p := fun t : InvldTask => t.req.key == k) hj
  have herase : { s with tasks := s.tasks.eraseIdx j }.tok k +
      (if t.req.key == k then 1 else 0) = s.tok k := by
    have hv : ∀ ts, { s with tasks := ts }.view.queue = s.view.queue := fun _ => rfl
    simp only [tok, hv]
    omega
  unfold invldEnd
  split
  · rw [tok_send, countP_key_singleton (x := t.req.key)]
    · omega
    · split
      · exact h.key
      · rfl
  · rw [tok_send, countP_key_singleton h.key, tok_clearReadonly]
    omega

lemma claimOf_key (p : PendReq) (c : BufCtrl) (b : Bool) (mode : LockMode) :
    (claimOf p c b mode).key = some p.req.key := by
  unfold claimOf
  split <;> rfl

section
variable (hs : ∀ i p, (s.node i).pend = some p → p.req.instId = i)
include hs

lemma Delivered.tok (hj : s.net[j]? = some m)
    (ht : Delivered cfg { s with net := s.net.eraseIdx j } m t) : t.tok k ≤ s.tok k := by
  have herase := tok_eraseIdx (k := k) hj
  have hset : ∀ (u : State) i n, (u.setNode i n).tok k = u.tok k := fun _ _ _ => rfl
  -- the claim of an answer carries the answer's token on
  have hclaim : ∀ {i rsn p} n c b mode, m.key = some (i, rsn) → s.awaited i rsn = some p →
     ((({ s with net := s.net.eraseIdx j }.setNode i n).send [claimOf p c b mode])).tok k ≤
        s.tok k := by
    intro i rsn p n c b mode hm hw
    obtain ⟨hp, hr⟩ := awaited_some hw
    have hkey : (claimOf p c b mode).key = m.key := by
      rw [claimOf_key, hm]
      exact congrArg some (Prod.ext (hs i p hp) hr)
    rw [tok_send, hset, countP_singleton, hkey]
    omega
  cases ht with
  | @askMaster req isTry _ h =>
    have h := h.tok (k := k)
    have herase : { s with net := s.net.eraseIdx j }.tok k +
       (if req.key == k then 1 else 0) = s.tok k := herase
    omega
  | claim h =>
    have h := h.tok (k := k)
    omega
  | recycleOwner h =>
    have h := h.tok (k := k)
    rw [hset] at h
    omega
  | ignored => omega
  | already hw hn hm | ready hw hn hm =>
    obtain ⟨c, b, md, rfl⟩ := hm
    exact hclaim _ _ _ _ rfl hw
  | @askOwner o req b =>
    rw [tok_send, hset, countP_singleton, dcsOwnerTransferPage_key]
    have hkey : (Msg.askOwner o req b).key = some req.key := rfl
    rw [hkey] at herase
    omega
  | _ =>
    rw [hset]
    omega

/-- No step makes a second token of a request; only a new request makes a
first one. -/
lemma step_tok (hreply : ∀ t ∈ s.tasks, Reply t.req t.reply) {a} (ht : step cfg s a = some t) :
    t.tok k ≤ s.tok k ∨ (k.2 = s.now ∧ t.now = s.now + 1 ∧ t.tok k ≤ s.tok k + 1) := by
  have hnew : ∀ (u : State) (m : Msg), u.tok k = s.tok k → u.now = s.now + 1 →
      m.key.all (·.2 = s.now) → m.key.isSome → (u.send [m]).tok k ≤ s.tok k ∨
       (k.2 = s.now ∧ (u.send [m]).now = s.now + 1 ∧ (u.send [m]).tok k ≤ s.tok k + 1) := by
    intro u m hu hnow hm hsome
    rw [tok_send, hu, countP_singleton]
    split_ifs with hk
    · rw [beq_iff_eq] at hk
      rw [hk] at hm
      exact .inr ⟨by simpa using hm, hnow, le_refl _⟩
    · exact .inl (le_refl _)
  have hsend : ∀ (u : State) (m : Msg), u.tok k = s.tok k → m.key = none →
     (u.send [m]).tok k ≤ s.tok k := by
    intro u m hu hm
    rw [tok_send, hu, countP_singleton, hm]
    exact le_refl _
  have hdir : ∀ (d : Option DrcBufRes) (x : Option RecycleTask),
     (d.elim [] (·.convertQ)).countP (·.key == k) ≤ s.view.queue.countP (·.key == k) →
     { s with dir := d, recycling := x }.tok k ≤ s.tok k := by
    intro d x hd
    have htok := tok_dir (s := s) (k := k) d
    have hrec : { s with dir := d, recycling := x }.tok k = { s with dir := d }.tok k := rfl
    omega
  have htasks : ∀ {j w f} {x : InvldTask}, s.tasks[j]? = some x → { s with
      tasks := s.tasks.set j { x with waiting := w, failed := f } }.tok k = s.tok k := by
    intro j w f x hj
    have h := countP_set_same (p := fun t : InvldTask => t.req.key == k) hj
     (b := { x with waiting := w, failed := f }) rfl
    have hv : ∀ ts, { s with tasks := ts }.view.queue = s.view.queue := fun _ => rfl
    simp only [tok, hv, h]
  cases step_cases ht with
  | request => exact hnew _ _ rfl rfl (by simp [dcsRequestPage, key, DrcReqInfo.key]) rfl
  | tryRequest =>
    exact hnew _ _ rfl rfl (by simp [dcsTryGetPageShareOwner, key, DrcReqInfo.key]) rfl
  | deliver hj hd => exact .inl (hd.tok hs hj)
  | drop hj =>
    have := tok_eraseIdx (s := s) (k := k) (getElem?_eq_getElem hj)
    exact .inl (by omega)
  | invldFail hj | invldCopy hj => exact .inl (htasks hj).le
  | invldResend | recycleResend | recycleOwnerTimeout => exact .inl (hsend _ _ rfl rfl)
  | invldDone hj => exact .inl (tok_invldEnd hj (hreply _ (mem_of_getElem? hj)))
  | recycleItems he | recycleFailed he | cleanEdpMaster he =>
    exact .inl (hdir _ _ (by simp [view, he]))
  | recycleDone => exact .inl (hdir _ _ (Nat.zero_le _))
  | @evict i c =>
    cases c.isOwner with
    | false => exact .inl (tok_send _).le
    | true => exact .inl (hsend _ _ rfl rfl)
  | _ => exact .inl (le_refl _)

end

end

/-! ## Where requests come from -/

/-- Does the message carry the data of a request? -/
def Msg.hasReq : Msg → Bool
  | .askMaster _ _ | .askOwner _ _ _ => true
  | _ => false

/-- From `s` to `t` no request is made up: what is asked, queued and
converted in `t` comes from `s`, and a prefetch is converted only for the
owner. -/
structure Flow (s t : State) : Prop where
  ask : ∀ r b, .askMaster r b ∈ t.net → .askMaster r b ∈ s.net
  info : ∀ r, t.Info r → ∃ r₀, s.Info r₀ ∧ r₀.key = r.key ∧ r₀.currMode = r.currMode
  queue : ∀ r ∈ t.view.queue, r ∈ s.view.queue ∨ .askMaster r false ∈ s.net
  conv : ∀ c, t.view.conv = some c →
    (s.view.conv = some c ∧ t.view.owner = s.view.owner) ∨ c ∈ s.view.queue ∨
      ∃ r b, .askMaster r b ∈ s.net ∧ c.key = r.key ∧ (b = true → t.view.owner = some c.instId)
  reply : (∀ x ∈ s.tasks, Reply x.req x.reply) → ∀ x ∈ t.tasks, Reply x.req x.reply

section
variable {cfg : Config} {s t : State}

lemma Flow.of_quiet (hnet : ∀ m ∈ t.net, m ∈ s.net ∨ m.hasReq = false)
    (hdir : t.dir = none ∨ (t.view.queue = s.view.queue ∧ t.view.conv = s.view.conv ∧
      t.view.owner = s.view.owner))
    (htasks : ∀ x ∈ t.tasks, ∃ y ∈ s.tasks, y.req = x.req ∧ y.reply = x.reply) : Flow s t := by
  have hold : ∀ m ∈ t.net, m.hasReq = true → m ∈ s.net := fun m hm hr =>
    (hnet m hm).resolve_right (by simp [hr])
  have hqueue : ∀ r ∈ t.view.queue, r ∈ s.view.queue := by
    rcases hdir with h | ⟨h, -⟩
    · simp [view, h]
    · rw [h]
      exact fun _ => id
  refine ⟨fun r b h => hold _ h rfl, fun r h => ⟨r, ?_, rfl, rfl⟩, fun r h => .inl (hqueue r h),
    fun c hc => .inl ?_, fun h x hx => ?_⟩
  · rcases h with ⟨b, h⟩ | h | ⟨x, hx, rfl⟩ | ⟨o, b, h⟩
    · exact .inl ⟨b, hold _ h rfl⟩
    · exact .inr (.inl (hqueue r h))
    · obtain ⟨y, hy, hreq, -⟩ := htasks x hx
      exact .inr (.inr (.inl ⟨y, hy, hreq⟩))
    · exact .inr (.inr (.inr ⟨o, b, hold _ h rfl⟩))
  · rcases hdir with h | ⟨-, h, ho⟩
    · simp [view, h] at hc
    · exact ⟨h ▸ hc, ho⟩
  · obtain ⟨y, hy, hreq, hrep⟩ := htasks x hx
    rw [← hreq, ← hrep]
    exact h y hy

lemma Flow.refl (s : State) : Flow s s :=
  .of_quiet (fun _ h => .inl h) (.inr ⟨rfl, rfl, rfl⟩) fun x hx => ⟨x, hx, rfl, rfl⟩

/-- The conversion of `r` is announced. -/
lemma Flow.notifyOrInvalidate {s r0 b ro} (h : Flow s s') (hr0 : s.Info r0) (hkey : r0.key = r.key)
    (hcurr : r0.currMode = r.currMode) (hm : Reply r m) :
    Flow s (Dcs.notifyOrInvalidate s' r m b ro) := by
  unfold Dcs.notifyOrInvalidate
  split
  · refine { h with info := fun x hx => ?_, reply := fun hs x hx => ?_ }
    · rcases hx with hx | hx | ⟨y, hy, rfl⟩ | hx
      · exact h.info x (.inl hx)
      · exact h.info x (.inr (.inl hx))
      · rcases mem_append.mp hy with hy | hy
        · exact h.info _ (.inr (.inr (.inl ⟨y, hy, rfl⟩)))
        · obtain rfl := mem_singleton.mp hy
          exact ⟨r0, hr0, hkey, hcurr⟩
      · exact h.info x (.inr (.inr (.inr hx)))
    · rcases mem_append.mp hx with hx | hx
      · exact h.reply hs x hx
      · obtain rfl := mem_singleton.mp hx
        exact hm
  · have hnet : ∀ y ∈ (s'.send [m]).net, y ∈ s'.net ∨ y = m := fun y hy =>
      (mem_append.mp hy).imp_right mem_singleton.mp
    refine { h with ask := fun x c hx => ?_, info := fun x hx => ?_ }
    · rcases hnet _ hx with hx | hx
      · exact h.ask x c hx
      · rcases hm with ⟨_, rfl⟩ | ⟨_, _, rfl⟩ <;> cases hx
    · rcases hx with ⟨c, hx⟩ | hx | hx | ⟨o, c, hx⟩
      · rcases hnet _ hx with hx | hx
        · exact h.info x (.inl ⟨c, hx⟩)
        · rcases hm with ⟨_, rfl⟩ | ⟨_, _, rfl⟩ <;> cases hx
      · exact h.info x (.inr (.inl hx))
      · exact h.info x (.inr (.inr (.inl hx)))
      · rcases hnet _ hx with hx | hx
        · exact h.info x (.inr (.inr (.inr ⟨o, c, hx⟩)))
        · rcases hm with ⟨_, rfl⟩ | ⟨_, _, rfl⟩ <;> cases hx
          exact ⟨r0, hr0, hkey, hcurr⟩

lemma flow_eraseIdx (j : Nat) : Flow s { s with net := s.net.eraseIdx j } :=
  .of_quiet (fun _ h => .inl (mem_of_mem_eraseIdx h)) (.inr ⟨rfl, rfl, rfl⟩)
    fun x hx => ⟨x, hx, rfl, rfl⟩

lemma Flow.send (h : Flow s s') {l} (hl : ∀ m ∈ l, m.hasReq = false) : Flow s (s'.send l) := by
  have hnet : ∀ m ∈ (s'.send l).net, m.hasReq = true → m ∈ s'.net := fun m hm hr =>
    (mem_append.mp hm).resolve_right fun hm => by simp [hl m hm] at hr
  refine { h with ask := fun r b hm => h.ask r b (hnet _ hm rfl), info := fun r hr => h.info r ?_ }
  rcases hr with ⟨b, hr⟩ | hr | hr | ⟨o, b, hr⟩
  · exact .inl ⟨b, hnet _ hr rfl⟩
  · exact .inr (.inl hr)
  · exact .inr (.inr (.inl hr))
  · exact .inr (.inr (.inr ⟨o, b, hnet _ hr rfl⟩))

lemma Flow.setDir (h : Flow s s') (d : Option DrcBufRes)
    (hq : ∀ r ∈ { s' with dir := d }.view.queue, r ∈ s.view.queue ∨ .askMaster r false ∈ s.net)
    (hc : ∀ c, { s' with dir := d }.view.conv = some c →
      (s.view.conv = some c ∧ { s' with dir := d }.view.owner = s.view.owner) ∨
      c ∈ s.view.queue ∨ ∃ r b, .askMaster r b ∈ s.net ∧ c.key = r.key ∧
        (b = true → { s' with dir := d }.view.owner = some c.instId)) :
    Flow s { s' with dir := d } := by
  refine ⟨h.ask, fun r hr => ?_, hq, hc, h.reply⟩
  rcases hr with hr | hr | hr | hr
  · exact h.info r (.inl hr)
  · rcases hq r hr with hr | hr
    · exact ⟨r, .inr (.inl hr), rfl, rfl⟩
    · exact ⟨r, .inl ⟨false, hr⟩, rfl, rfl⟩
  · exact h.info r (.inr (.inr (.inl hr)))
  · exact h.info r (.inr (.inr (.inr hr)))

lemma Asked.flow {req isTry} (hj : s.net[j]? = some (.askMaster req isTry))
    (ht : Asked { s with net := s.net.eraseIdx j } req isTry t) : Flow s t := by
  have herase := flow_eraseIdx (s := s) j
  have hmem : .askMaster req isTry ∈ s.net := mem_of_getElem? hj
  cases ht with
  | refused => exact herase.send (by simp [hasReq])
  | granted =>
    refine (herase.setDir _ ?_ ?_).send (by simp [hasReq]) <;> simp [view, drcNewBufRes]
  | @queued e q hdir htry hq =>
    have hdir : s.dir = some e := hdir
    subst htry
    refine herase.setDir _ (fun r hr => ?_) fun c hc => .inl ?_
    · have hqe : s.view.queue = e.convertQ := by simp [view, hdir]
      have hr : r ∈ q := hr
      rcases hq with rfl | rfl
      · rcases drcReplaceItem_mem hr with hr | rfl
        · exact .inl (hqe ▸ hr)
        · exact .inr hmem
      · rcases mem_append.mp hr with hr | hr
        · exact .inl (hqe ▸ hr)
        · rw [mem_singleton.mp hr]
          exact .inr hmem
    · simpa [view, hdir] using hc
  | @converting e isRetry hdir hpend htakes hle htry =>
    have hdir : s.dir = some e := hdir
    refine Flow.notifyOrInvalidate ?_ (.inl ⟨isTry, hmem⟩) (enters_key e req).symm
      (enters_fields e req).2.2.symm (dcsNotifyOwnerForPage_reply ..)
    refine herase.setDir _ (fun r hr => .inl ?_) fun c hc => .inr (.inr ⟨req, isTry, hmem, ?_⟩)
    · simpa [view, hdir] using hr
    · cases hc
      exact ⟨enters_key e req, fun h => congrArg some ((htry h).trans (enters_fields e req).1.symm)⟩

lemma Claimed.flow {c} (ht : Claimed cfg s' c t) (h : Flow s s') (hv : s'.dir = s.dir) :
    Flow s t := by
  cases ht with
  | ignored => exact h
  | @taken e cvt next time q conflict _ hdir hcvt hsame hval hsub ht =>
    have hq : s.view.queue = e.convertQ := by simp [view, ← hv, hdir]
    rw [← hq] at hsub
    have hbase : Flow s (claimed s' e c next time q conflict) := by
      refine (h.setDir _ (fun r hr => .inl ?_) fun r hr => .inr (.inl ?_)).send ?_
      · exact hsub.subset (mem_append_right _ (mem_append_right _ hr))
      · have hr : next = some r := hr
        exact hsub.subset (mem_append_left _ (by simp [hr]))
      · intro m hm
        obtain ⟨r, -, rfl⟩ := mem_map.mp hm
        rfl
    rcases ht with ⟨rfl, rfl⟩ | ⟨r, b, rfl, rfl⟩
    · exact hbase
    · refine hbase.notifyOrInvalidate (.inr (.inl ?_)) rfl rfl (dcsNotifyAfterClaim_reply ..)
      exact hsub.subset (mem_append_left _ (by simp))

lemma Recycled.flow {src time} (ht : Recycled s' src time t) (h : Flow s s')
    (hv : s'.dir = s.dir) : Flow s t := by
  cases ht with
  | kept => exact h
  | removed => refine h.setDir none ?_ ?_ <;> simp [view]
  | @marked e hdir =>
    have hq : s.view.queue = e.convertQ := by simp [view, ← hv, hdir]
    have hc : s.view.conv = e.converting := by simp [view, ← hv, hdir]
    have ho : s.view.owner = some e.claimedOwner := by simp [view, ← hv, hdir]
    have hset := h.setDir (some { e with pending := true })
      (fun r hr => .inl (hq ▸ hr)) fun c hcc => .inl ⟨hc.trans hcc, ho.symm⟩
    exact { hset with }

lemma flow_invldEnd {x} (hj : s.tasks[j]? = some x) (hreply : Reply x.req x.reply) :
    Flow s (invldEnd { s with tasks := s.tasks.eraseIdx j } x) := by
  have hbase : Flow s { s with tasks := s.tasks.eraseIdx j } :=
    .of_quiet (fun _ h => .inl h) (.inr ⟨rfl, rfl, rfl⟩)
      fun y hy => ⟨y, mem_of_mem_eraseIdx hy, rfl, rfl⟩
  have hinfo : s.Info x.req := .inr (.inr (.inl ⟨x, mem_of_getElem? hj, rfl⟩))
  -- sending the answer is what `notifyOrInvalidate` does without copies
  have hsend : ∀ {s' : State}, Flow s s' → Flow s (s'.send [x.reply]) := by
    intro s' h
    have hn : Flow s (Dcs.notifyOrInvalidate s' x.req x.reply true ∅) :=
      h.notifyOrInvalidate hinfo rfl rfl hreply
    simpa [notifyOrInvalidate] using hn
  unfold invldEnd
  split
  · split
    · exact hsend hbase
    · exact hbase.send (by simp [hasReq])
  · refine hsend (hbase.setDir _ (fun r hr => .inl ?_) fun c hc => .inl ?_)
    · simp only [view] at hr ⊢
      cases hd : s.dir <;> simp_all
    · simp only [view] at hc ⊢
      cases hd : s.dir <;> simp_all

lemma claimOf_hasReq (p : PendReq) (c : BufCtrl) (b : Bool) (mode : LockMode) :
    (claimOf p c b mode).hasReq = false := by
  unfold claimOf
  split <;> rfl

lemma Flow.setNode (h : Flow s s') (i : InstId) (n : Node) :
    Flow s (s'.setNode i n) := { h with }

lemma Delivered.flow (hj : s.net[j]? = some m)
    (ht : Delivered cfg { s with net := s.net.eraseIdx j } m t) : Flow s t := by
  have herase := flow_eraseIdx (s := s) j
  cases ht with
  | askMaster h => exact h.flow hj
  | claim h => exact h.flow herase rfl
  | recycleOwner h => exact h.flow (herase.setNode _ _) rfl
  | ignored => exact herase
  | already hw hn hm | ready hw hn hm =>
    obtain ⟨c, b, md, rfl⟩ := hm
    exact (herase.setNode _ _).send (by simp [claimOf_hasReq])
  | @askOwner o req b =>
    refine (herase.setNode _ _).send ?_
    intro m hm
    rw [mem_singleton.mp hm]
    rcases dcsOwnerTransferPage_cases (s.node o) req b with
      h | ⟨-, m, h, -⟩ | ⟨c, nl, r2x, -, h, -⟩ <;> rw [h] <;> rfl
  | _ => exact herase.setNode _ _

/-- What a new request changes. -/
structure NewRequest (s t : State) (i : InstId) (n : Node) (p : PendReq) : Prop where
  state : t = ({ s with now := s.now + 1 }.setNode i n).send [.askMaster p.req p.isTry]
  idle : (s.node i).pend = none
  pend : n.pend = some p
  inst : p.req.instId = i
  rsn : p.req.rsn = s.now
  lock : n.lockMode = (s.node i).lockMode
  curr : p.req.currMode = (s.node i).lockMode
  mode : p.req.reqMode ≠ .null

/-- A step makes a new request, or makes up none. -/
lemma step_flow (hreply : ∀ x ∈ s.tasks, Reply x.req x.reply) {a} (ht : step cfg s a = some t) :
    Flow s t ∨ ∃ i n p, NewRequest s t i n p := by
  have hquiet : ∀ {u : State}, u.net = s.net → (u.dir = none ∨ (u.view.queue = s.view.queue ∧
      u.view.conv = s.view.conv ∧ u.view.owner = s.view.owner)) → u.tasks = s.tasks →
      Flow s u := by
    intro u hnet hdir htasks
    exact .of_quiet (fun _ h => .inl (hnet ▸ h)) hdir fun x hx => ⟨x, htasks ▸ hx, rfl, rfl⟩
  have htasks : ∀ {j x w f}, s.tasks[j]? = some x →
      ∀ y ∈ s.tasks.set j { x with waiting := w, failed := f },
        ∃ z ∈ s.tasks, z.req = y.req ∧ z.reply = y.reply := by
    intro j x w f hj y hy
    rcases mem_or_eq_of_mem_set hy with hy | rfl
    · exact ⟨y, hy, rfl, rfl⟩
    · exact ⟨x, mem_of_getElem? hj, rfl, rfl⟩
  cases step_cases ht with
  | @request i sid mode hp hlt =>
    have hlock := (dcsRequestPage_lock (s.node i) i sid s.now mode).1
    refine .inr ⟨i, _, _, rfl, hp, rfl, rfl, rfl, hlock, ?_, fun hnull => ?_⟩
    · rw [← hlock]
      rfl
    · rw [show mode = .null from hnull] at hlt
      exact Nat.not_lt_zero _ hlt
  | @tryRequest i sid hp hc =>
    refine .inr ⟨i, _, ⟨⟨i, sid, s.now, .share, .null, 0⟩, true⟩, rfl, hp, rfl, rfl, rfl,
      ?_, ?_, by simp⟩
    · simp [dcsTryGetPageShareOwner, Node.lockMode, hc, BufCtrl.fresh]
    · simp [Node.lockMode, hc]
  | deliver hj hd => exact .inl (hd.flow hj)
  | drop => exact .inl (flow_eraseIdx _)
  | invldFail hj | invldCopy hj =>
    exact .inl (.of_quiet (fun _ h => .inl h) (.inr ⟨rfl, rfl, rfl⟩) (htasks hj))
  | invldResend | recycleResend => exact .inl ((Flow.refl s).send (by simp [hasReq]))
  | recycleOwnerTimeout =>
    refine .inl (Flow.send ?_ (by simp [hasReq]))
    exact hquiet rfl (.inr ⟨rfl, rfl, rfl⟩) rfl
  | invldDone hj => exact .inl (flow_invldEnd hj (hreply _ (mem_of_getElem? hj)))
  | recycleItems he | recycleFailed he | cleanEdpMaster he =>
    exact .inl (hquiet rfl (.inr (by simp [view, he])) rfl)
  | recycleDone => exact .inl (hquiet rfl (.inl rfl) rfl)
  | evict =>
    refine .inl (Flow.send ?_ fun m hm => ?_)
    · exact hquiet rfl (.inr ⟨rfl, rfl, rfl⟩) rfl
    split at hm
    · rw [mem_singleton.mp hm]
      rfl
    · cases hm
  | _ => exact .inl (hquiet rfl (.inr ⟨rfl, rfl, rfl⟩) rfl)

end

/-! ## The invariant -/

/-- What the requests in the system have in common with those waited for. -/
structure TokInv (s : State) : Prop where
  one : ∀ k, s.tok k ≤ 1
  reply : ∀ x ∈ s.tasks, Reply x.req x.reply
  curr : ∀ r, s.Info r → s.view.Waits r.instId r.rsn →
    r.currMode = (s.node r.instId).lockMode
  tryAsk : ∀ r b p, .askMaster r b ∈ s.net → (s.node r.instId).pend = some p →
    p.req.rsn = r.rsn → b = p.isTry
  tryQueue : ∀ r ∈ s.view.queue, ∀ p, (s.node r.instId).pend = some p → p.req.rsn = r.rsn →
    p.isTry = false
  tryConv : ∀ c p, s.view.conv = some c → (s.node c.instId).pend = some p →
    p.req.rsn = c.rsn → p.isTry = true → s.view.owner = some c.instId

section
variable {cfg : Config} {s t : State} {strict : Prop}

lemma info_lt (hv : s.view.Inv strict) (h : s.Info r) : r.rsn < s.now := by
  rcases h with ⟨b, h⟩ | h | ⟨x, hx, rfl⟩ | ⟨o, b, h⟩
  · exact (hv.fresh r (.inl ⟨b, h⟩)).1
  · exact (hv.fresh r (.inr h)).1
  · exact (hv.task x hx).1
  · exact hv.key_lt _ h _ rfl

lemma tok_now (hv : s.view.Inv strict) {k} (hk : k.2 = s.now) : s.tok k = 0 := by
  have hnet : s.net.countP (fun m => m.key == some k) = 0 := by
    rw [countP_eq_zero]
    intro m hm h
    have := hv.key_lt m hm k (by simpa using h)
    exact absurd hk (ne_of_lt this)
  have hinfo : ∀ {r}, s.Info r → ¬ (r.key == k) = true := by
    intro r hr h
    obtain rfl := beq_iff_eq.mp h
    exact absurd hk (ne_of_lt (info_lt hv hr))
  have hqueue : s.view.queue.countP (fun r => r.key == k) = 0 :=
    countP_eq_zero.mpr fun r hr => hinfo (.inr (.inl hr))
  have htasks : s.tasks.countP (fun x => x.req.key == k) = 0 :=
    countP_eq_zero.mpr fun x hx => hinfo (.inr (.inr (.inl ⟨x, hx, rfl⟩)))
  simp only [tok, hnet, hqueue, htasks]

section
variable (hs : TokInv s) (hv : s.view.Inv strict)
include hs hv

lemma TokInv.flow (h : Flow s t) (hone : ∀ k, t.tok k ≤ 1)
    (hwait : ∀ i p, (t.node i).pend = some p → p.req.rsn < s.now →
     (s.node i).pend = some p ∧ (t.node i).lockMode = (s.node i).lockMode) : TokInv t := by
  refine ⟨hone, h.reply hs.reply, fun r hr hw => ?_, fun r b p hm hp hn => ?_,
    fun r hr p hp hn => ?_, fun c p hc hp hn htry => ?_⟩
  · obtain ⟨r0, hr0, hkey, hcurr⟩ := h.info r hr
    obtain ⟨p, hp, hn⟩ := hw
    have hi : r0.instId = r.instId := congrArg fst hkey
    have hrsn : r0.rsn = r.rsn := congrArg snd hkey
    have hlt := info_lt hv hr0
    obtain ⟨hp', hlock⟩ := hwait _ p hp (by omega)
    rw [hlock, ← hcurr, ← hi]
    exact hs.curr r0 hr0 ⟨p, by rw [hi]; exact hp', by omega⟩
  · have hm := h.ask r b hm
    have hlt := info_lt hv (.inl ⟨b, hm⟩)
    exact hs.tryAsk r b p hm (hwait _ p hp (by omega)).1 hn
  · rcases h.queue r hr with hr | hr
    · have hlt := info_lt hv (.inr (.inl hr))
      exact hs.tryQueue r hr p (hwait _ p hp (by omega)).1 hn
    · have hlt := info_lt hv (.inl ⟨false, hr⟩)
      exact (hs.tryAsk r false p hr (hwait _ p hp (by omega)).1 hn).symm
  · rcases h.conv c hc with ⟨hc, ho⟩ | hc | ⟨r, b, hm, hkey, ho⟩
    · have hlt := (hv.conv_ok c hc).1
      rw [ho]
      have hlt : c.rsn < s.now := hlt
      exact hs.tryConv c p hc (hwait _ p hp (by omega)).1 hn htry
    · have hlt := info_lt hv (.inr (.inl hc))
      have := hs.tryQueue c hc p (hwait _ p hp (by omega)).1 hn
      cases htry.symm.trans this
    · have hi : c.instId = r.instId := congrArg fst hkey
      have hrsn : c.rsn = r.rsn := congrArg snd hkey
      have hlt := info_lt hv (.inl ⟨b, hm⟩)
      refine ho ?_
      rw [← htry]
      exact hs.tryAsk r b p hm (hi ▸ (hwait _ p hp (by omega)).1) (by omega)

lemma TokInv.newRequest {i n p} (h : NewRequest s t i n p) (hone : ∀ k, t.tok k ≤ 1) :
    TokInv t := by
  obtain ⟨rfl, hidle, hp, hi, hn, hlock, hcurr, -⟩ := h
  -- what is not new is older than the new request, so its instance does not wait for it
  have hold : ∀ j q, (update s.node i n j).pend = some q → q.req.rsn < s.now →
     (s.node j).pend = some q ∧
       (update s.node i n j).lockMode = (s.node j).lockMode := by
    intro j q hq hlt
    rcases eq_or_ne j i with rfl | hj
    · rw [update_self] at hq
      cases hp.symm.trans hq
      omega
    · rw [update_of_ne hj] at hq ⊢
      exact ⟨hq, rfl⟩
  have hnet : ∀ r b, .askMaster r b ∈ s.net ++ [.askMaster p.req p.isTry] →
      .askMaster r b ∈ s.net ∨ (r = p.req ∧ b = p.isTry) := by
    intro r b hm
    refine (mem_append.mp hm).imp_right fun hm => ?_
    cases mem_singleton.mp hm
    exact ⟨rfl, rfl⟩
  refine ⟨hone, hs.reply, fun r hr hw => ?_, fun r b q hm hq hr => ?_, fun r hr q hq hrq => ?_,
    fun c q hc hq hrq htry => ?_⟩
  · have hcase : s.Info r ∨ r = p.req := by
      rcases hr with ⟨b, hr⟩ | hr | hr | ⟨o, b, hr⟩
      · exact (hnet r b hr).imp (fun h => .inl ⟨b, h⟩) And.left
      · exact .inl (.inr (.inl hr))
      · exact .inl (.inr (.inr (.inl hr)))
      · refine .inl (.inr (.inr (.inr ⟨o, b, ?_⟩)))
        refine (mem_append.mp hr).resolve_right fun hm => ?_
        cases mem_singleton.mp hm
    rcases hcase with hr | rfl
    · obtain ⟨q, hq, hrq⟩ := hw
      have hlt := info_lt hv hr
      obtain ⟨hq', hl⟩ := hold _ q hq (by omega)
      exact (hs.curr r hr ⟨q, hq', hrq⟩).trans hl.symm
    · show p.req.currMode = (update s.node i n p.req.instId).lockMode
      rw [hi, update_self, hlock, hcurr]
  · rcases hnet r b hm with hm | ⟨rfl, rfl⟩
    · have hlt := info_lt hv (.inl ⟨b, hm⟩)
      exact hs.tryAsk r b q hm (hold _ q hq (by omega)).1 hr
    · have hq : (update s.node i n p.req.instId).pend = some q := hq
      rw [hi, update_self, hp] at hq
      cases hq
      rfl
  · have hlt := info_lt hv (.inr (.inl hr))
    exact hs.tryQueue r hr q (hold _ q hq (by omega)).1 hrq
  · have hlt : c.rsn < s.now := (hv.conv_ok c hc).1
    exact hs.tryConv c q hc (hold _ q hq (by omega)).1 hrq htry

lemma tokInv_step {a} (ht : step cfg s a = some t) : TokInv t := by
  have hone : ∀ k, t.tok k ≤ 1 := by
    intro k
    rcases step_tok (fun i p hp => (hv.pend_ok i p hp).1) hs.reply ht with h | ⟨hk, -, h⟩
    · exact h.trans (hs.one k)
    · rw [tok_now hv hk] at h
      exact h
  rcases step_flow hs.reply ht with h | ⟨i, n, p, h⟩
  · refine hs.flow hv h hone fun i p hp hlt => ?_
    obtain ⟨hp, hl, -⟩ := (step_waits ht hp).resolve_right fun h => ne_of_lt hlt h.1
    exact ⟨hp, hl⟩
  · exact hs.newRequest hv h hone

end

lemma Init.tokInv (h : Init s) : TokInv s := by
  have hq : s.view.queue = [] := by simp [view, h.dir]
  have hc : s.view.conv = none := by simp [view, h.dir]
  constructor <;>
    simp [tok, State.Info, view, h.dir, h.net, h.tasks, h.pend]

/-- Two tokens of one request are the same message. -/
lemma TokInv.unique (hs : TokInv s) {k m'} (hm : m ∈ s.net) (hm' : m' ∈ s.net) (hk : m.key = some k)
    (hk' : m'.key = some k) : m = m' := by
  by_contra hne
  have htwo : 2 ≤ s.net.countP (fun m => m.key == some k) :=
    two_le_countP hm hm' hne (by simp [hk]) (by simp [hk'])
  have := hs.one k
  simp only [tok] at this
  omega

end

end Cantian.Dcs
