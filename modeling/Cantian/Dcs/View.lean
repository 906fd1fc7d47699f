import Cantian.Dcs.Step
import Cantian.Lib.Pool

/-!
# Page protocol — the lock view and its invariant

What the locking argument needs of a state: who the directory thinks owns
and reads the page and which request it converts, the lock mode and the
pending request of every instance, and the messages in flight. The
invariant `View.Inv` joins the three. Its preservation is proved here for
the elementary changes of a view that the handlers are made of; the module
`Swmr` shows that every step is composed of them.
-/

namespace Cantian.Dcs

open LockMode

/-- The lock view of a state. -/
structure View where
  owner : Option InstId
  conv : Option DrcReqInfo
  readonly : Finset InstId
  queue : List DrcReqInfo
  /-- the entry is being recycled -/
  busy : Bool
  dirMode : LockMode
  mode : InstId → LockMode
  edp : InstId → Bool
  pend : InstId → Option PendReq
  net : List Msg
  tasks : List InvldTask
  recycling : Option RecycleTask
  now : Nat

/-- The view of a state. -/
def State.view (s : State) : View where
  owner := s.dir.map (·.claimedOwner)
  conv := s.dir.bind (·.converting)
  readonly := s.dir.elim ∅ (·.readonlyCopies)
  queue := s.dir.elim [] (·.convertQ)
  busy := s.dir.elim false (·.pending)
  dirMode := s.dir.elim .null (·.mode)
  mode := fun i => (s.node i).lockMode
  edp := fun i => (s.node i).isEdp
  pend := fun i => (s.node i).pend
  net := s.net
  tasks := s.tasks
  recycling := s.recycling
  now := s.now

/-- Two requests in flight are different requests. -/
def AskDistinct (a b : Msg) : Prop :=
  ∀ r x r' y, a = .askMaster r x → b = .askMaster r' y → r.key ≠ r'.key

lemma AskDistinct.symm (a b : Msg) (h : AskDistinct a b) : AskDistinct b a :=
  fun r x r' y ha hb hk => h r' y r x hb ha hk.symm

variable {i : InstId}

namespace View

variable {v : View}

/-- Instance `i` waits for the answer to its request number `n`. -/
def Waits (v : View) (i : InstId) (n : Nat) : Prop :=
  ∃ p, v.pend i = some p ∧ p.req.rsn = n

/-- The directory converts request `n` of instance `i` to mode `md`. -/
def Current (v : View) (i : InstId) (n : Nat) (md : LockMode) : Prop :=
  ∃ c, v.conv = some c ∧ c.instId = i ∧ c.rsn = n ∧ c.reqMode = md

/-- A request that no conversion has begun for. -/
def Fresh (v : View) (r : DrcReqInfo) : Prop :=
  (∃ b, .askMaster r b ∈ v.net) ∨ r ∈ v.queue

/-- What holds of such a request: it is not newer than the one its
instance waits for, and nothing has been done for it. -/
def FreshOk (v : View) (r : DrcReqInfo) : Prop :=
  r.rsn < v.now ∧ r.reqMode ≠ .null ∧
  (∀ p, v.pend r.instId = some p → r.rsn ≤ p.req.rsn) ∧
  (∀ c, v.conv = some c → c.key ≠ r.key) ∧
  (∀ t ∈ v.tasks, t.req.key ≠ r.key) ∧
  ∀ c b, .claim c b ∈ v.net → c.key ≠ r.key

/-- A page nobody had was granted to `i`, who has not noticed yet. -/
def NeedLoadOk (v : View) (i : InstId) : Prop :=
  v.owner = some i ∧
  (∀ j, v.mode j = .null) ∧
  (∀ m, .pageReady m ∈ v.net → ¬ v.Waits m.dst m.rsn) ∧
  ∀ c b, .claim c b ∈ v.net → ∀ cvt, v.conv = some cvt → cvt.key ≠ c.key

/-- The converting request `n` of `i` has been answered with mode `md`. -/
def ConvOk (v : View) (i : InstId) (n : Nat) (md : LockMode) : Prop :=
  v.Current i n md ∧
  (md = .exclusive → ∀ j, j ≠ i → v.mode j = .null) ∧
  ∀ j, j ≠ i → v.mode j ≠ .exclusive

/-- The owner `o` has been asked to send the page for request `r`. -/
def AskOwnerOk (v : View) (o : InstId) (r : DrcReqInfo) : Prop :=
  v.Current r.instId r.rsn r.reqMode ∧
  v.owner = some o ∧
  (r.reqMode = .exclusive → ∀ j, j ≠ o → j ≠ r.instId → v.mode j = .null)

/-- The claimer of the converting request has its lock. -/
def ClaimOk (v : View) (c : ClaimInfo) : Prop :=
  (c.mode ≠ .share → (∀ j, j ≠ c.newId → v.mode j = .null) ∧
    (v.edp c.newId = true → v.mode c.newId = .null)) ∧
  ∀ j, j ≠ c.newId → v.mode j ≠ .exclusive

/-- The message that ends the conversion `r` of an entry owned by `o`. -/
def IsReply (o : Option InstId) (r : DrcReqInfo) (m : Msg) : Prop :=
  (∃ b, m = .ackAlreadyOwner r.instId r.instSid r.rsn r.reqMode b ∧ o = some r.instId) ∨
  (∃ i b, m = .askOwner i r b ∧ o = some i)

/-- A thread that invalidates read-only copies. -/
def TaskOk (v : View) (t : InvldTask) : Prop :=
  t.req.rsn < v.now ∧
  (v.conv = some t.req → IsReply v.owner t.req t.reply) ∧
  (v.conv = some t.req → t.failed = false →
    ∀ j, v.mode j ≠ .null → v.owner = some j ∨ j = t.req.instId ∨ j ∈ t.waiting)

/-- The recycling of the entry. -/
def RecycleOk (v : View) (rt : RecycleTask) : Prop :=
  v.busy = true ∧
  v.conv = none ∧
  (rt.failed = false → ∀ j, v.owner ≠ some j → v.mode j ≠ .null → j ∈ rt.waiting) ∧
  (rt.ownerDone = true → rt.failed = false ∧ rt.waiting = ∅ ∧
    ∀ i, v.owner = some i →
      v.mode i = .null ∧ ∀ a n y, .ackNeedLoad i a n y ∈ v.net → ¬ v.Waits i n)

/-- The owner's lock is at most what the directory has recorded, or what
it is converting for the owner. -/
def ModeOk (v : View) : Prop :=
  (∀ i, v.owner = some i →
    v.mode i ≤ v.dirMode ∨ ∃ c, v.conv = some c ∧ c.instId = i ∧ v.mode i ≤ c.reqMode) ∧
  ∀ i a n y, .ackNeedLoad i a n y ∈ v.net → v.Waits i n → v.dirMode = .exclusive

/-- The invariant of the lock view. `strict` adds the agreement on the
owner's mode, which needs a condition of its own. -/
structure Inv (strict : Prop) (v : View) : Prop where
  key_lt : ∀ m ∈ v.net, ∀ k, m.key = some k → k.2 < v.now
  pend_ok : ∀ i p, v.pend i = some p →
    p.req.instId = i ∧ p.req.rsn < v.now ∧ p.req.reqMode ≠ .null
  conv_ok : ∀ c, v.conv = some c → c.rsn < v.now ∧ c.reqMode ≠ .null
  fresh : ∀ r, v.Fresh r → v.FreshOk r
  asks : v.net.Pairwise AskDistinct
  ask_queue : ∀ r b, .askMaster r b ∈ v.net → ∀ r' ∈ v.queue, r.key ≠ r'.key
  queue_distinct : v.queue.Pairwise fun r r' => r.key ≠ r'.key
  needLoad : ∀ i a n y, .ackNeedLoad i a n y ∈ v.net → v.Waits i n → v.NeedLoadOk i
  already : ∀ i a n md b, .ackAlreadyOwner i a n md b ∈ v.net → v.Waits i n →
    v.ConvOk i n md ∧ v.owner = some i
  ready : ∀ m, .pageReady m ∈ v.net → v.Waits m.dst m.rsn →
    v.ConvOk m.dst m.rsn m.mode ∧ v.owner ≠ some m.dst
  ask : ∀ o r b, .askOwner o r b ∈ v.net → v.Waits r.instId r.rsn → v.AskOwnerOk o r
  claim_old : ∀ c b, .claim c b ∈ v.net → ¬ v.Waits c.newId c.rsn ∧ c.mode ≠ .null
  claim : ∀ c b, .claim c b ∈ v.net → v.Current c.newId c.rsn c.mode → v.ClaimOk c
  task : ∀ t ∈ v.tasks, v.TaskOk t
  holders : ∀ i, v.mode i ≠ .null →
    v.owner = some i ∨ i ∈ v.readonly ∨ ∃ c, v.conv = some c ∧ c.instId = i
  xholders : ∀ i, v.mode i = .exclusive →
    v.owner = some i ∨ ∃ c, v.conv = some c ∧ c.instId = i ∧ c.reqMode = .exclusive
  swmr : ∀ i j, v.mode i = .exclusive → j ≠ i → v.mode j = .null
  edp_excl : ∀ i, v.mode i = .exclusive → v.edp i = false
  edp_owner : ∀ i, v.owner = some i → v.edp i = true → v.mode i = .null
  busy_conv : v.busy = true → v.conv = none
  recycle : ∀ rt, v.recycling = some rt → v.RecycleOk rt
  strictMode : strict → v.ModeOk

/-! ## Changes that take nothing away from the invariant -/

/-- A message that means nothing to any instance: its request is not
waited for. -/
def Idle (v : View) (m : Msg) : Prop :=
  (∀ k, m.key = some k → k.2 < v.now) ∧
  match m with
  | .askMaster _ _ | .claim _ _ => False
  | .ackNeedLoad i _ n _ | .ackAlreadyOwner i _ n _ _ => ¬ v.Waits i n
  | .pageReady m => ¬ v.Waits m.dst m.rsn
  | .askOwner _ r _ => ¬ v.Waits r.instId r.rsn
  | _ => True

/-- From `v` to `w` locks are only lowered, requests only given up, and
messages only lost, apart from idle ones. -/
structure Quiet (v w : View) : Prop where
  owner : w.owner = v.owner := by rfl
  conv : w.conv = v.conv := by rfl
  readonly : w.readonly = v.readonly := by rfl
  queue : w.queue = v.queue := by rfl
  busy : w.busy = v.busy := by rfl
  dirMode : w.dirMode = v.dirMode := by rfl
  tasks : w.tasks = v.tasks := by rfl
  recycling : w.recycling = v.recycling := by rfl
  now : v.now ≤ w.now
  mode : ∀ i, w.mode i ≤ v.mode i
  edp : ∀ i, w.edp i = true → v.edp i = true ∨ w.mode i = .null
  pend : ∀ i, w.pend i = v.pend i ∨ w.pend i = none
  net : ∃ l new, w.net = l ++ new ∧ l.Sublist v.net ∧ ∀ m ∈ new, w.Idle m

namespace Quiet

variable {v w : View} (h : Quiet v w)
include h

lemma pend_some {p} (hp : w.pend i = some p) : v.pend i = some p := by
  rcases h.pend i with he | he
  · exact he ▸ hp
  · cases he.symm.trans hp

lemma waits {n} (hw : w.Waits i n) : v.Waits i n := by
  obtain ⟨p, hp, hn⟩ := hw
  exact ⟨p, h.pend_some hp, hn⟩

lemma null (hi : v.mode i = .null) : w.mode i = .null :=
  le_null.mp (hi ▸ h.mode i)

lemma excl (hi : w.mode i = .exclusive) : v.mode i = .exclusive :=
  eq_exclusive_of_le (hi ▸ h.mode i)

lemma mem {m} (hm : m ∈ w.net) (hi : ¬ w.Idle m) : m ∈ v.net := by
  obtain ⟨l, new, hnet, hl, hnew⟩ := h.net
  rw [hnet] at hm
  rcases List.mem_append.mp hm with hm | hm
  · exact hl.subset hm
  · exact absurd (hnew m hm) hi

lemma mem_ask {r b} (hm : .askMaster r b ∈ w.net) :
    .askMaster r b ∈ v.net := h.mem hm fun hi => hi.2

lemma mem_claim {c b} (hm : .claim c b ∈ w.net) :
    .claim c b ∈ v.net := h.mem hm fun hi => hi.2

lemma current {n md} : w.Current i n md ↔ v.Current i n md := by
  simp only [Current, h.conv]

lemma freshOk {r} (hr : v.FreshOk r) : w.FreshOk r := by
  obtain ⟨hlt, hmd, hnew, hconv, htask, hclaim⟩ := hr
  refine ⟨hlt.trans_le h.now, hmd, fun p hp => hnew p (h.pend_some hp), ?_, ?_, ?_⟩
  · rw [h.conv]
    exact hconv
  · rw [h.tasks]
    exact htask
  · exact fun c b hc => hclaim c b (h.mem_claim hc)

lemma convOk {n md} (hc : v.ConvOk i n md) : w.ConvOk i n md := by
  obtain ⟨hcur, hx, hs⟩ := hc
  exact ⟨h.current.mpr hcur, fun hmd j hj => h.null (hx hmd j hj),
    fun j hj hm => hs j hj (h.excl hm)⟩

lemma needLoadOk (hn : v.NeedLoadOk i) : w.NeedLoadOk i := by
  obtain ⟨ho, hnull, hready, hclaim⟩ := hn
  refine ⟨h.owner.trans ho, fun j => h.null (hnull j), fun m hm hw => ?_, fun c b hc => ?_⟩
  · exact hready m (h.mem hm fun hi => hi.2 hw) (h.waits hw)
  · rw [h.conv]
    exact hclaim c b (h.mem_claim hc)

lemma taskOk {t} (ht : v.TaskOk t) : w.TaskOk t := by
  obtain ⟨hlt, hreply, hhold⟩ := ht
  refine ⟨hlt.trans_le h.now, ?_, fun hc hf j hj => ?_⟩
  · rw [h.conv, h.owner]
    exact hreply
  · rw [h.conv] at hc
    rw [h.owner]
    exact hhold hc hf j fun hn => hj (h.null hn)

lemma recycleOk {rt} (hr : v.RecycleOk rt) : w.RecycleOk rt := by
  obtain ⟨hb, hc, hcopy, hdone⟩ := hr
  refine ⟨h.busy.trans hb, h.conv.trans hc, fun hf j ho hj => ?_, fun hd => ?_⟩
  · exact hcopy hf j (h.owner ▸ ho) fun hn => hj (h.null hn)
  · obtain ⟨hf, hw, hown⟩ := hdone hd
    refine ⟨hf, hw, fun i hi => ?_⟩
    obtain ⟨hnull, hack⟩ := hown i (h.owner ▸ hi)
    exact ⟨h.null hnull, fun a n y hm hwt =>
      hack a n y (h.mem hm fun hi => hi.2 hwt) (h.waits hwt)⟩

lemma modeOk (hm : v.ModeOk) : w.ModeOk := by
  obtain ⟨hle, hload⟩ := hm
  refine ⟨fun i hi => ?_, fun i a n y hm hw => ?_⟩
  · rw [h.owner] at hi
    rw [h.conv, h.dirMode]
    refine (hle i hi).imp (le_trans (h.mode i)) ?_
    rintro ⟨c, hc, hci, hcm⟩
    exact ⟨c, hc, hci, le_trans (h.mode i) hcm⟩
  · rw [h.dirMode]
    exact hload i a n y (h.mem hm fun hi => hi.2 hw) (h.waits hw)

end Quiet

lemma Inv.quiet {strict v w} (hv : v.Inv strict) (h : Quiet v w) :
    w.Inv strict where
  key_lt m hm k hk := by
    by_cases hi : w.Idle m
    · exact hi.1 k hk
    · exact (hv.key_lt m (h.mem hm hi) k hk).trans_le h.now
  pend_ok i p hp := by
    obtain ⟨hi, hlt, hmd⟩ := hv.pend_ok i p (h.pend_some hp)
    exact ⟨hi, hlt.trans_le h.now, hmd⟩
  conv_ok c hc := by
    obtain ⟨hlt, hmd⟩ := hv.conv_ok c (h.conv ▸ hc)
    exact ⟨hlt.trans_le h.now, hmd⟩
  fresh r hr := by
    refine h.freshOk (hv.fresh r ?_)
    rcases hr with ⟨b, hb⟩ | hq
    · exact .inl ⟨b, h.mem_ask hb⟩
    · exact .inr (h.queue ▸ hq)
  asks := by
    obtain ⟨l, new, hnet, hl, hnew⟩ := h.net
    rw [hnet]
    refine Lib.pairwise_append_of_vacuous (hv.asks.sublist hl) fun m hm a r x r' y _ hb => ?_
    subst hb
    exact ((hnew _ hm).2).elim
  ask_queue r b hm := by
    rw [h.queue]
    exact hv.ask_queue r b (h.mem_ask hm)
  queue_distinct := by
    rw [h.queue]
    exact hv.queue_distinct
  needLoad i a n y hm hw :=
    h.needLoadOk (hv.needLoad i a n y (h.mem hm fun hi => hi.2 hw) (h.waits hw))
  already i a n md b hm hw := by
    obtain ⟨hc, ho⟩ := hv.already i a n md b (h.mem hm fun hi => hi.2 hw) (h.waits hw)
    exact ⟨h.convOk hc, h.owner.trans ho⟩
  ready m hm hw := by
    obtain ⟨hc, ho⟩ := hv.ready m (h.mem hm fun hi => hi.2 hw) (h.waits hw)
    exact ⟨h.convOk hc, h.owner ▸ ho⟩
  ask o r b hm hw := by
    obtain ⟨hcur, ho, hx⟩ := hv.ask o r b (h.mem hm fun hi => hi.2 hw) (h.waits hw)
    exact ⟨h.current.mpr hcur, h.owner.trans ho, fun hmd j hjo hjr => h.null (hx hmd j hjo hjr)⟩
  claim_old c b hm := by
    obtain ⟨hw, hmd⟩ := hv.claim_old c b (h.mem_claim hm)
    exact ⟨fun hw' => hw (h.waits hw'), hmd⟩
  claim c b hm hcur := by
    obtain ⟨hx, hs⟩ := hv.claim c b (h.mem_claim hm) (h.current.mp hcur)
    refine ⟨fun hmd => ⟨fun j hj => h.null ((hx hmd).1 j hj), fun he => ?_⟩,
      fun j hj hm => hs j hj (h.excl hm)⟩
    rcases h.edp _ he with he | he
    · exact h.null ((hx hmd).2 he)
    · exact he
  task t ht := h.taskOk (hv.task t (h.tasks ▸ ht))
  holders i hi := by
    rw [h.owner, h.readonly, h.conv]
    exact hv.holders i fun hn => hi (h.null hn)
  xholders i hi := by
    rw [h.owner, h.conv]
    exact hv.xholders i (h.excl hi)
  swmr i j hi hj := h.null (hv.swmr i j (h.excl hi) hj)
  edp_excl i hi := by
    by_contra he
    rcases h.edp i (by simpa using he) with he | he
    · cases (hv.edp_excl i (h.excl hi)).symm.trans he
    · cases hi.symm.trans he
  edp_owner i ho he := by
    rcases h.edp i he with he | he
    · exact h.null (hv.edp_owner i (h.owner ▸ ho) he)
    · exact he
  busy_conv hb := h.conv.trans (hv.busy_conv (h.busy.symm.trans hb))
  recycle rt hr := h.recycleOk (hv.recycle rt (h.recycling ▸ hr))
  strictMode hst := h.modeOk (hv.strictMode hst)

end View

end Cantian.Dcs
