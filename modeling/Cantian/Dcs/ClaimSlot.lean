import Cantian.Dcs.Slot

/-!
# Page protocol — a claim meets its own conversion

The directory recognizes the claim of the converting request by instance,
session and mode. A claim of an earlier request with the same three is
taken for it. The module shows that nothing else goes wrong: while no such
claim is in flight when a request enters the converting slot, every claim
that the directory accepts is the claim of the converting request, and none
of the checks of `drc_claim_new_page_owner` fails.
-/

namespace Cantian.Dcs

open Lib List Option Bool State Prod

/-- The `knl_panic` checks of `drc_claim_new_page_owner`, for an entry that
has an owner. The check of the read-only copies is there only in a debug
build. -/
def drcClaimPanics (debug : Bool) (e : DrcBufRes) (c : ClaimInfo) : Bool :=
  e.converting.all (fun r => r.reqMode != c.mode) || e.pending ||
    (!decide (c.mode ≤ e.mode ∧ e.claimedOwner = c.newId) &&
      ((c.mode != .share &&
          ((debug && decide ((e.readonlyCopies.erase c.newId).erase e.claimedOwner ≠ ∅)) ||
            (c.hasEdp && (c.mode != .exclusive || c.lsn == 0)))) ||
        decide (0 < c.lsn ∧ c.lsn < e.lsn)))

/-- A claim of another request in flight looks like the claim of `r`. -/
def looksLikeClaim (net : List Msg) (r : DrcReqInfo) : Bool :=
  net.any fun m =>
    match m with
    | .claim c _ => drcIsSameClaimRequest r c && c.rsn != r.rsn
    | _ => false

/-- No request enters the converting slot while a claim in flight looks
like its own; in a debug build, an invalidation that a claim started does
not fail. -/
def noLookalike (debug : Bool) (s : State) : Act → Bool
  | .deliver k =>
    match s.net[k]? with
    | some (.askMaster r _) =>
      s.dir.all fun e => !takesSlot e r || !looksLikeClaim s.net (enters e r)
    | some (.claim _ _) =>
      s.dir.all fun e => e.convertQ.all fun r => !looksLikeClaim (s.net.eraseIdx k) r
    | _ => true
  | .invldDone k =>
    match s.tasks[k]? with
    | some x => !(debug && x.failed && x.fromClaim)
    | none => true
  | _ => true

variable {r : DrcReqInfo} {m : Msg} {ro : Finset InstId} {k : InstId × Nat} {c : ClaimInfo}

section
variable {cfg : Config} {s t : State} {debug : Bool}

/-! ## Answers and claims -/

/-- Request `k` is being answered: a thread works on it, or the answer is on
its way. -/
def State.Answered (s : State) (k : InstId × Nat) : Prop :=
  (∃ x ∈ s.tasks, x.req.key = k) ∨ ∃ m ∈ s.net, m.isAnswer = true ∧ m.key = some k

lemma Reply.isAnswer (h : Reply r m) : m.isAnswer = true := by
  rcases h with ⟨b, rfl⟩ | ⟨o, b, rfl⟩ <;> rfl

lemma Reply.isClaim (h : Reply r m) : m.isClaim = false := by
  rcases h with ⟨b, rfl⟩ | ⟨o, b, rfl⟩ <;> rfl

lemma Announced.answered (h : Announced s t r ro) : t.Answered r.key := by
  cases h with
  | @thread x hx htasks =>
    refine .inl ⟨x, ?_, congrArg DrcReqInfo.key hx⟩
    rw [htasks]
    exact mem_append_right _ (mem_singleton_self x)
  | @sent m hm hcopies htasks hnet =>
    refine .inr ⟨m, ?_, hm.isAnswer, hm.key⟩
    rw [hnet]
    exact mem_append_right _ (mem_singleton_self m)

lemma Announced.mem_tasks (h : Announced s t r ro) {x} (hx : x ∈ t.tasks) :
    x ∈ s.tasks ∨ x.req = r := by
  cases h with
  | thread hr htasks hnet =>
    rw [htasks] at hx
    refine (mem_append.mp hx).imp_right fun hx => ?_
    rw [mem_singleton.mp hx]
    exact hr
  | sent hm hcopies htasks => exact .inl (htasks ▸ hx)

lemma Announced.mem_net (h : Announced s t r ro) (hm : m ∈ t.net) :
    m ∈ s.net ∨ (m.isClaim = false ∧ m.key = some r.key) := by
  cases h with
  | thread hr htasks hnet => exact .inl (hnet ▸ hm)
  | sent hr hcopies htasks hnet =>
    rw [hnet] at hm
    refine (mem_append.mp hm).imp_right fun hm => ?_
    rw [mem_singleton.mp hm]
    exact ⟨hr.isClaim, hr.key⟩

lemma Announced.claim_mem (h : Announced s t r ro) (hm : m ∈ t.net) (hc : m.isClaim = true) :
    m ∈ s.net :=
  (h.mem_net hm).resolve_right fun h => by cases h.1.symm.trans hc

lemma invldEnd_net {j x} (hm : m ∈ (invldEnd { s with tasks := s.tasks.eraseIdx j } x).net) :
    m ∈ s.net ∨ (m.isAnswer = false ∧ m.isClaim = false) ∨
      (m = x.reply ∧ (x.failed = true → x.fromClaim = true)) := by
  unfold invldEnd at hm
  split at hm
  · rcases mem_append.mp hm with hm | hm
    · exact .inl hm
    · split_ifs at hm with hclaim
      · exact .inr (.inr ⟨mem_singleton.mp hm, fun _ => hclaim⟩)
      · rw [mem_singleton.mp hm]
        exact .inr (.inl ⟨rfl, rfl⟩)
  · rename_i hfailed
    rcases mem_append.mp hm with hm | hm
    · exact .inl hm
    · exact .inr (.inr ⟨mem_singleton.mp hm, fun hf => absurd hf hfailed⟩)

lemma invldEnd_tasks (x : InvldTask) : (invldEnd s x).tasks = s.tasks := by
  unfold invldEnd
  split <;> rfl

lemma invldEnd_conv (x : InvldTask) : (invldEnd s x).view.conv = s.view.conv := by
  unfold invldEnd
  split
  · rfl
  · simp only [view, send]
    cases s.dir <;> rfl

/-- The threads after a move: those that were there, and one for a request
that has just entered the slot. -/
lemma Move.mem_tasks {a} (h : Move cfg s a t) {x} (hx : x ∈ t.tasks) :
    (∃ y ∈ s.tasks, y.req = x.req) ∨ t.view.conv = some x.req := by
  have hold : t.tasks = s.tasks → ∃ y ∈ s.tasks, y.req = x.req := fun h => ⟨x, h ▸ hx, rfl⟩
  cases h with
  | rest hentry hnow htasks => exact .inl (htasks x hx)
  | ask ha hj hnow hrec hout =>
    cases hout with
    | enter he hpend htakes hrsn ht hann =>
      exact (hann.mem_tasks hx).imp (fun hx => ⟨x, hx, rfl⟩) fun hr => by simp [view, ht, hr]
    | wait he ht htasks | create hs ht htasks => exact .inl (hold htasks)
  | claim ha hj hnow hrec hout =>
    cases hout with
    | ignored hc ht => exact .inl (hold (by rw [ht]))
    | finish he hcvt hsame hval ht htasks => exact .inl (hold htasks)
    | next he hcvt hsame hval hr ht hl hann =>
      exact (hann.mem_tasks hx).imp (fun hx => ⟨x, hx, rfl⟩) fun hr => by simp [view, ht, hr]
  | transfer hj hdir hrec hnow htasks | answer hj hm hkey hp hdir hrec hnow htasks =>
    exact .inl (hold htasks)
  | done ha hj ht =>
    subst ht
    rw [invldEnd_tasks] at hx
    exact .inl ⟨x, mem_of_mem_eraseIdx hx, rfl⟩

/-- Where a message in flight after a move comes from: it was there, it is
neither an answer nor a claim, it is the answer to a request that was being
answered or has just entered the slot, or the requester that waits has just
claimed for the answer it got. -/
inductive Origin (s t : State) (m : Msg) : Prop where
  | old (hm : m ∈ s.net)
  | control (ha : m.isAnswer = false ∧ m.isClaim = false)
  | answer {k : InstId × Nat} (hc : m.isClaim = false) (hkey : m.key = some k)
      (hk : s.Answered k ∨ ∃ r, t.view.conv = some r ∧ r.key = k)
  | claim {i : InstId} {p : PendReq} (ha : m.isAnswer = false) (hp : (s.node i).pend = some p)
      (hk : s.Answered (i, p.req.rsn)) (hkey : m.key = some p.req.key)

lemma Move.origin {a} (h : Move cfg s a t) (hreply : ∀ x ∈ s.tasks, Reply x.req x.reply)
    (hm : m ∈ t.net) : Origin s t m := by
  have hold : ∀ {j}, m ∈ s.net.eraseIdx j → Origin s t m := fun h => .old (mem_of_mem_eraseIdx h)
  cases h with
  | rest hentry hnow htasks hnet => exact (hnet m hm).elim .old .control
  | ask ha hj hnow hrec hout =>
    cases hout with
    | enter he hpend htakes hrsn ht hann =>
      refine (hann.mem_net hm).elim hold fun h => .answer h.1 h.2 (.inr ⟨_, ?_, rfl⟩)
      simp [view, ht]
    | wait he ht htasks hnet | create hs ht htasks hnet => exact (hnet m hm).elim hold .control
  | claim ha hj hnow hrec hout =>
    cases hout with
    | ignored hc ht =>
      rw [ht] at hm
      exact hold hm
    | finish he hcvt hsame hval ht htasks hnet => exact (hnet m hm).elim hold .control
    | next he hcvt hsame hval hr ht hl hann =>
      rcases hann.mem_net hm with hm | h
      · exact (mem_send_control hl m hm).elim hold .control
      · exact .answer h.1 h.2 (.inr ⟨_, by simp [view, ht], rfl⟩)
  | transfer hj hdir hrec hnow htasks hnet =>
    refine (hnet m hm).elim .old fun h => .answer h.1 h.2 (.inl (.inr ?_))
    exact ⟨_, mem_of_getElem? hj, rfl, rfl⟩
  | @answer j m' i p hj hm' hkey hp hdir hrec hnow htasks hnet =>
    refine (hnet m hm).elim .old fun h => .claim h.1 hp (.inr ?_) h.2
    exact ⟨m', mem_of_getElem? hj, hm', hkey⟩
  | @done j x ha hj ht =>
    subst ht
    have hx := mem_of_getElem? hj
    rcases invldEnd_net hm with hm | h | ⟨rfl, -⟩
    · exact .old hm
    · exact .control h
    · exact .answer (hreply x hx).isClaim (hreply x hx).key (.inl (.inl ⟨x, hx, rfl⟩))

/-- A request is answered after a move if it was before, or if it has just
entered the slot. -/
lemma Move.answered {a : Act} (h : Move cfg s a t) (hreply : ∀ x ∈ s.tasks, Reply x.req x.reply)
    (hk : t.Answered k) : s.Answered k ∨ ∃ r, t.view.conv = some r ∧ r.key = k := by
  rcases hk with ⟨x, hx, hxk⟩ | ⟨m, hm, ha, hmk⟩
  · refine (h.mem_tasks hx).imp (fun ⟨y, hy, hyx⟩ => ?_) fun hx => ⟨_, hx, hxk⟩
    exact .inl ⟨y, hy, hyx ▸ hxk⟩
  · cases h.origin hreply hm with
    | old hm => exact .inl (.inr ⟨m, hm, ha, hmk⟩)
    | control hn => cases hn.1.symm.trans ha
    | answer hc hkey hk =>
      cases hkey.symm.trans hmk
      exact hk
    | claim hn => cases hn.symm.trans ha

lemma EntryStep.conv (h : EntryStep s t) : t.view.conv = s.view.conv ∨ t.view.conv = none := by
  cases h with
  | same hdir => exact .inl (by simp [view, hdir])
  | clean he ht hrec | mark he hn ht | unmark he ht hrec =>
    exact .inl (by simp [view, he, ht])
  | remove he hp hn ht | recycled hrec ht => exact .inr (by simp [view, ht])

/-- What the entry keeps while no request enters or leaves the slot. -/
lemma EntryStep.entry (h : EntryStep s t) {e'} (he' : t.dir = some e') :
    ∃ e, s.dir = some e ∧ e.converting = e'.converting ∧ e.readonlyCopies = e'.readonlyCopies ∧
      e.claimedOwner = e'.claimedOwner ∧ e.lsn = e'.lsn ∧
      (e'.pending = true → e.pending = true ∨ e.converting = none) := by
  cases h with
  | same hdir => exact ⟨e', hdir ▸ he', rfl, rfl, rfl, rfl, .inl⟩
  | clean he ht =>
    cases ht.symm.trans he'
    exact ⟨_, he, rfl, rfl, rfl, rfl, .inl⟩
  | mark he hn ht =>
    cases ht.symm.trans he'
    exact ⟨_, he, rfl, rfl, rfl, rfl, fun _ => .inr hn⟩
  | unmark he ht =>
    cases ht.symm.trans he'
    exact ⟨_, he, rfl, rfl, rfl, rfl, by rintro ⟨⟩⟩
  | remove he hp hn ht | recycled hrec ht => cases ht.symm.trans he'

lemma not_looksLikeClaim {net} (h : looksLikeClaim net r = false) {b} (hc : .claim c b ∈ net)
    (hsame : drcIsSameClaimRequest r c = true) : r.rsn = c.rsn := by
  by_contra hne
  have htrue : looksLikeClaim net r = true := by
    refine any_eq_true.mpr ⟨.claim c b, hc, ?_⟩
    simp [hsame, Ne.symm hne]
  cases h.symm.trans htrue

/-- The request `r` has just entered the slot. -/
structure Entered (s t : State) (a : Act) (r : DrcReqInfo) : Prop where
  conv : t.view.conv = some r
  answered : t.Answered r.key
  mode : (∀ r', s.view.Fresh r' → r'.reqMode ≠ .null) → r.reqMode ≠ .null
  claims : ∀ debug, noLookalike debug s a = true → ∀ c b, .claim c b ∈ t.net →
    drcIsSameClaimRequest r c = true → r.rsn = c.rsn

/-- The slot after a move: as before, or empty, or taken by a request that
has just been announced. -/
lemma Move.conv {a} (h : Move cfg s a t) :
    t.view.conv = s.view.conv ∨ t.view.conv = none ∨ ∃ r, Entered s t a r := by
  have hsame : t.dir = s.dir → t.view.conv = s.view.conv := fun h => by simp [view, h]
  cases h with
  | rest hentry => exact hentry.conv.imp_right .inl
  | @ask k r b ha hj hnow hrec hout =>
    subst ha
    cases hout with
    | @enter e he hpend htakes hrsn ht hann =>
      have he : s.dir = some e := he
      refine .inr (.inr ⟨enters e r, by simp [view, ht], hann.answered, fun h => ?_, ?_⟩)
      · exact enters_reqMode e (h r (.inl ⟨b, mem_of_getElem? hj⟩))
      · intro debug hok c b' hc
        have hlook : looksLikeClaim s.net (enters e r) = false := by
          simpa [noLookalike, hj, he, htakes] using hok
        exact not_looksLikeClaim hlook (mem_of_mem_eraseIdx (hann.claim_mem hc rfl))
    | wait he ht =>
      have he : s.dir = some _ := he
      exact .inl (by simp [view, he, ht])
    | create hs ht => exact .inr (.inl (by simp [view, ht, drcNewBufRes]))
  | @claim k cl b ha hj hnow hrec hout =>
    subst ha
    cases hout with
    | ignored hc ht => exact .inl (hsame (by rw [ht]))
    | finish he hcvt hsame hval ht => exact .inr (.inl (by simp [view, ht]))
    | @next e cvt r q time l he hcvt hsm hval hr ht hl hann =>
      have he : s.dir = some e := he
      refine .inr (.inr ⟨r, by simp [view, ht], hann.answered, fun h => ?_, ?_⟩)
      · exact h r (.inr (by simpa [view, he] using hr))
      · intro debug hok c b' hc hlike
        have hall : e.convertQ.all fun r => !looksLikeClaim (s.net.eraseIdx k) r := by
          simpa [noLookalike, hj, he] using hok
        rcases mem_append.mp (hann.claim_mem hc rfl) with hm | hm
        · exact not_looksLikeClaim (by simpa using all_eq_true.mp hall r hr) hm hlike
        · cases (hl _ hm).2
  | transfer hj hdir | answer hj hm hkey hp hdir => exact .inl (hsame hdir)
  | done ha hj ht =>
    subst ht
    exact .inl (invldEnd_conv ..)

/-- A claim in flight was so before, or the requester that waits has just
sent it for the answer it got. -/
lemma Move.claim_mem {a} (h : Move cfg s a t) (hreply : ∀ x ∈ s.tasks, Reply x.req x.reply) {b}
    (hc : .claim c b ∈ t.net) : .claim c b ∈ s.net ∨
      ∃ i p, (s.node i).pend = some p ∧ s.Answered (i, p.req.rsn) ∧ c.key = p.req.key := by
  cases h.origin hreply hc with
  | old hm => exact .inl hm
  | control hn => cases hn.2
  | answer hn => cases hn
  | claim ha hp hk hkey => exact .inr ⟨_, _, hp, hk, some.inj hkey⟩

lemma Move.now_le {a} (h : Move cfg s a t) : s.now ≤ t.now := by
  cases h with
  | rest hentry hnow => exact hnow
  | ask ha hj hnow | claim ha hj hnow | transfer hj hdir hrec hnow
  | answer hj hm hkey hp hdir hrec hnow =>
    exact le_of_eq hnow.symm
  | @done j x ha hj ht =>
    subst ht
    exact le_of_eq (invldEnd_framed (s := { s with tasks := s.tasks.eraseIdx j }) x).now.symm

/-! ## The invariant -/

/-- The requests, answers and claims under way, and the slot. -/
structure SlotInv (s : State) : Prop where
  one : ∀ k, s.tok k ≤ 1
  lt : ∀ k, 0 < s.tok k → k.2 < s.now
  reply : ∀ x ∈ s.tasks, Reply x.req x.reply
  pend : ∀ i p, (s.node i).pend = some p → p.req.instId = i ∧ p.req.rsn < s.now
  conv : ∀ c, s.view.conv = some c → c.rsn < s.now
  mode : ∀ r, s.view.Fresh r → r.reqMode ≠ .null
  convMode : ∀ c, s.view.conv = some c → c.reqMode ≠ .null
  fresh : ∀ r, s.view.Fresh r →
    (∀ p, (s.node r.instId).pend = some p → r.rsn ≤ p.req.rsn) ∧
      ∀ c, s.view.conv = some c → c.key ≠ r.key
  idle : ∀ e, s.dir = some e → e.pending = true → e.converting = none
  marked : s.recycling.isSome = true → ∃ e, s.dir = some e ∧ e.pending = true
  answered : ∀ i p, (s.node i).pend = some p → s.Answered (i, p.req.rsn) →
    ∃ c, s.view.conv = some c ∧ c.key = (i, p.req.rsn)
  claims : ∀ c b, .claim c b ∈ s.net → ∀ r, s.view.conv = some r →
    drcIsSameClaimRequest r c = true → r.rsn = c.rsn

/-! The three places a request can be in, each with a token. -/

lemma net_tok_pos (hm : m ∈ s.net) (hk : m.key = some k) :
    0 < s.net.countP (fun m => m.key == some k) :=
  countP_pos_iff.mpr ⟨m, hm, by simp [hk]⟩

lemma queue_tok_pos (hr : r ∈ s.view.queue) : 0 < s.view.queue.countP (fun r' => r'.key == r.key) :=
  countP_pos_iff.mpr ⟨r, hr, by simp⟩

lemma task_tok_pos {x} (hx : x ∈ s.tasks) (hk : x.req.key = k) :
    0 < s.tasks.countP (fun y => y.req.key == k) :=
  countP_pos_iff.mpr ⟨x, hx, by simp [hk]⟩

lemma tok_pos_of_fresh (hr : s.view.Fresh r) : 0 < s.tok r.key := by
  unfold tok
  rcases hr with ⟨b, hm⟩ | hq
  · have := net_tok_pos hm rfl
    omega
  · have := queue_tok_pos hq
    omega

lemma tok_pos_of_answered (hk : s.Answered k) : 0 < s.tok k := by
  unfold tok
  rcases hk with ⟨x, hx, hxk⟩ | ⟨m, hm, -, hmk⟩
  · have := task_tok_pos hx hxk
    omega
  · have := net_tok_pos hm hmk
    omega

/-- An answer and another message of the same request are two tokens. -/
lemma two_le_tok (hk : s.Answered k) (hm : m ∈ s.net) (hmk : m.key = some k)
    (hne : m.isAnswer = false) : 2 ≤ s.tok k := by
  unfold tok
  rcases hk with ⟨x, hx, hxk⟩ | ⟨m', hm', ha, hmk'⟩
  · have hmsg := net_tok_pos hm hmk
    have htask := task_tok_pos hx hxk
    omega
  · have htwo : 2 ≤ s.net.countP (fun m => m.key == some k) := by
      refine two_le_countP hm hm' (fun h => ?_) (by simp [hmk]) (by simp [hmk'])
      rw [h, ha] at hne
      cases hne
    omega

lemma not_fresh_of_answered (hone : ∀ k, s.tok k ≤ 1) (hr : s.view.Fresh r)
    (hk : s.Answered r.key) : False := by
  have h1 := hone r.key
  have h2 : 2 ≤ s.tok r.key := by
    rcases hr with ⟨b, hm⟩ | hq
    · exact two_le_tok hk hm rfl rfl
    · have hqueue := queue_tok_pos hq
      unfold tok
      rcases hk with ⟨x, hx, hxk⟩ | ⟨m, hm, -, hmk⟩
      · have htask := task_tok_pos hx hxk
        omega
      · have hnet := net_tok_pos hm hmk
        omega
  omega

/-! ### One step -/

section
variable {a : Act} (hs : SlotInv s) (ht : step cfg s a = some t)
include hs ht

lemma SlotInv.step_one (k : InstId × Nat) : t.tok k ≤ 1 := by
  rcases step_tok (fun i p hp => (hs.pend i p hp).1) hs.reply ht with h | ⟨hk, -, h⟩
  · exact h.trans (hs.one k)
  · have hzero : s.tok k = 0 := by
      by_contra hne
      exact absurd hk (Nat.ne_of_lt (hs.lt k (Nat.pos_of_ne_zero hne)))
    omega

lemma SlotInv.step_lt (k : InstId × Nat) (hk : 0 < t.tok k) : k.2 < t.now := by
  have hnow := (step_move ht).now_le
  rcases step_tok (fun i p hp => (hs.pend i p hp).1) hs.reply ht with h | ⟨hkn, hnow', -⟩
  · exact (hs.lt k (lt_of_lt_of_le hk h)).trans_le hnow
  · omega

/-- A request that no conversion has begun for was there before, or is
new. -/
lemma SlotInv.step_fresh_or (hr : t.view.Fresh r) :
    s.view.Fresh r ∨ (r.rsn = s.now ∧ (t.node r.instId).pend.any (·.req.rsn == s.now) ∧
      r.reqMode ≠ .null) := by
  rcases step_flow hs.reply ht with h | ⟨i, n, p, h⟩
  · refine .inl ?_
    rcases hr with ⟨b, hb⟩ | hq
    · exact .inl ⟨b, h.ask r b hb⟩
    · rcases h.queue r hq with hq | hm
      · exact .inr hq
      · exact .inl ⟨false, hm⟩
  · obtain ⟨rfl, hidle, hp, hi, hn, -, -, hmode⟩ := h
    rcases hr with ⟨b, hb⟩ | hq
    · rcases mem_append.mp hb with hb | hb
      · exact .inl (.inl ⟨b, hb⟩)
      cases mem_singleton.mp hb
      refine .inr ⟨hn, ?_, hmode⟩
      have hnode : ((({ s with now := s.now + 1 }.setNode i n).send
          [.askMaster p.req p.isTry]).node p.req.instId).pend = some p := by
        rw [hi]
        show (Function.update s.node i n i).pend = some p
        rw [Function.update_self, hp]
      rw [hnode]
      simp [hn]
    · exact .inl (.inr hq)

lemma SlotInv.step_pend (i : InstId) (p : PendReq) (hp : (t.node i).pend = some p) :
    p.req.instId = i ∧ p.req.rsn < t.now := by
  have hnow := (step_move ht).now_le
  rcases step_waits ht hp with ⟨hp', -⟩ | ⟨hn, hi, hnow'⟩
  · exact ⟨(hs.pend i p hp').1, (hs.pend i p hp').2.trans_le hnow⟩
  · exact ⟨hi, by omega⟩

lemma SlotInv.step_conv (c : DrcReqInfo) (hc : t.view.conv = some c) : c.rsn < t.now := by
  have hmove := step_move ht
  rcases hmove.conv with h | h | ⟨r, hr⟩
  · exact (hs.conv c (h ▸ hc)).trans_le hmove.now_le
  · cases h.symm.trans hc
  · cases hr.conv.symm.trans hc
    exact hs.step_lt ht c.key (tok_pos_of_answered hr.answered)

lemma SlotInv.step_fresh (r : DrcReqInfo) (hr : t.view.Fresh r) :
    (∀ p, (t.node r.instId).pend = some p → r.rsn ≤ p.req.rsn) ∧
      ∀ c, t.view.conv = some c → c.key ≠ r.key := by
  have hold := hs.step_fresh_or ht hr
  constructor
  · intro p hp
    rcases hold with hold | ⟨hn, hany, -⟩
    · have hlt : r.rsn < s.now := hs.lt r.key (tok_pos_of_fresh hold)
      rcases step_waits ht hp with ⟨hp', -⟩ | ⟨hn, -, -⟩
      · exact (hs.fresh r hold).1 p hp'
      · omega
    · rw [hp] at hany
      have hpn : p.req.rsn = s.now := by simpa using hany
      omega
  · intro c hc
    rcases (step_move ht).conv with h | h | ⟨r', hr'⟩
    · rw [h] at hc
      rcases hold with hold | ⟨hn, -, -⟩
      · exact (hs.fresh r hold).2 c hc
      · intro hkey
        have hlt := hs.conv c hc
        have hrsn : c.rsn = r.rsn := congrArg snd hkey
        omega
    · cases h.symm.trans hc
    · cases hr'.conv.symm.trans hc
      intro hkey
      exact not_fresh_of_answered (hs.step_one ht) hr (hkey ▸ hr'.answered)

lemma SlotInv.step_mode (r : DrcReqInfo) (hr : t.view.Fresh r) : r.reqMode ≠ .null := by
  rcases hs.step_fresh_or ht hr with hold | ⟨-, -, hmode⟩
  · exact hs.mode r hold
  · exact hmode

end

lemma invldEnd_entry {x e'} (h : (invldEnd s x).dir = some e') :
    ∃ e, s.dir = some e ∧ ((e' = e ∧ x.failed = true) ∨ e' = { e with readonlyCopies := ∅ }) := by
  unfold invldEnd at h
  split at h
  · rename_i hf
    exact ⟨e', h, .inl ⟨rfl, hf⟩⟩
  · obtain ⟨e, he, rfl⟩ := map_eq_some_iff.mp h
    exact ⟨e, he, .inr rfl⟩

lemma drcClaimNewPageOwner_pending (e : DrcBufRes) (c : ClaimInfo) :
    (drcClaimNewPageOwner e c).pending = e.pending := by
  obtain ⟨o, ro, md, em, l, h, -⟩ := drcClaimNewPageOwner_spec e c
  rw [h]

lemma SlotInv.step_idle {a} (hs : SlotInv s) (h : Move cfg s a t) (e : DrcBufRes)
    (he : t.dir = some e) (hp : e.pending = true) : e.converting = none := by
  cases h with
  | rest hentry =>
    obtain ⟨e0, he0, hconv, -, -, -, hpend⟩ := hentry.entry he
    rw [← hconv]
    exact (hpend hp).elim (hs.idle e0 he0) id
  | ask ha hj hnow hrec hout =>
    cases hout with
    | enter he0 hpend htakes hrsn ht =>
      cases ht.symm.trans he
      cases hpend.symm.trans hp
    | @wait e0 q he0 ht =>
      cases ht.symm.trans he
      exact hs.idle e0 he0 hp
    | create hnone ht =>
      cases ht.symm.trans he
      rfl
  | claim ha hj hnow hrec hout =>
    cases hout with
    | ignored hc ht =>
      rw [ht] at he
      exact hs.idle e he hp
    | finish he0 hcvt hsame hval ht =>
      cases ht.symm.trans he
      rfl
    | next he0 hcvt hsame hval hr ht =>
      cases ht.symm.trans he
      have hpend := (drcClaimNewPageOwner_pending _ _).symm.trans hp
      cases hcvt.symm.trans (hs.idle _ he0 hpend)
  | transfer hj hdir | answer hj hm hkey hpd hdir => exact hs.idle e (hdir ▸ he) hp
  | done ha hj ht =>
    subst ht
    obtain ⟨e0, he0, ⟨rfl, -⟩ | rfl⟩ := invldEnd_entry he
    · exact hs.idle e he0 hp
    · exact hs.idle e0 he0 hp

lemma SlotInv.step_marked {a} (hs : SlotInv s) (h : Move cfg s a t)
    (hr : t.recycling.isSome = true) : ∃ e, t.dir = some e ∧ e.pending = true := by
  cases h with
  | rest hentry =>
    cases hentry with
    | same hdir hrec =>
      rw [hdir]
      exact hs.marked (hrec ▸ hr)
    | clean he0 ht hrec =>
      obtain ⟨e, he, hp⟩ := hs.marked (hrec ▸ hr)
      cases he0.symm.trans he
      exact ⟨_, ht, hp⟩
    | mark he0 hn ht => exact ⟨_, ht, rfl⟩
    | unmark he0 ht hrec =>
      rw [hrec] at hr
      cases hr
    | remove he0 hpend hn ht hrec =>
      obtain ⟨e, he, hp⟩ := hs.marked (hrec ▸ hr)
      cases he0.symm.trans he
      cases hpend.symm.trans hp
    | recycled hrec ht hdone =>
      rw [hdone] at hr
      cases hr
  | ask ha hj hnow hrec hout =>
    obtain ⟨e, he, hp⟩ := hs.marked (hrec ▸ hr)
    cases hout with
    | enter he0 hpend =>
      cases he0.symm.trans he
      cases hpend.symm.trans hp
    | wait he0 ht =>
      cases he0.symm.trans he
      exact ⟨_, ht, hp⟩
    | create hnone => cases hnone.symm.trans he
  | claim ha hj hnow hrec hout =>
    obtain ⟨e, he, hp⟩ := hs.marked (hrec ▸ hr)
    have hidle := hs.idle e he hp
    cases hout with
    | ignored hc ht => exact ⟨e, by rw [ht]; exact he, hp⟩
    | finish he0 hcvt | next he0 hcvt =>
      cases he0.symm.trans he
      cases hcvt.symm.trans hidle
  | transfer hj hdir hrec | answer hj hm hkey hpd hdir hrec =>
    rw [hdir]
    exact hs.marked (hrec ▸ hr)
  | @done j x ha hj ht =>
    subst ht
    have hrec : (invldEnd { s with tasks := s.tasks.eraseIdx j } x).recycling = s.recycling := by
      unfold invldEnd
      split <;> rfl
    obtain ⟨e, he, hp⟩ := hs.marked (hrec ▸ hr)
    unfold invldEnd
    split
    · exact ⟨e, he, hp⟩
    · exact ⟨{ e with readonlyCopies := ∅ }, by simp [send, he], hp⟩

section
variable {a : Act} (hs : SlotInv s) (ht : step cfg s a = some t)
include hs ht

/-- The slot still has the request that its instance waits for an answer
to. -/
lemma SlotInv.step_answered (i : InstId) (p : PendReq) (hp : (t.node i).pend = some p)
    (hk : t.Answered (i, p.req.rsn)) : ∃ c, t.view.conv = some c ∧ c.key = (i, p.req.rsn) := by
  have hmove := step_move ht
  rcases hmove.answered hs.reply hk with hold | hnew
  swap
  · exact hnew
  have hlt : p.req.rsn < s.now := hs.lt _ (tok_pos_of_answered hold)
  have hp0 : (s.node i).pend = some p := by
    rcases step_waits ht hp with ⟨h, -⟩ | ⟨h, -⟩
    · exact h
    · omega
  obtain ⟨c0, hc0, hkey⟩ := hs.answered i p hp0 hold
  have hsame : t.view.conv = s.view.conv → ∃ c, t.view.conv = some c ∧ c.key = (i, p.req.rsn) :=
    fun h => ⟨c0, h.trans hc0, hkey⟩
  have hentry : ∀ e, s.dir = some e → e.converting = some c0 := by
    intro e he
    have : s.view.conv = e.converting := by simp [view, he]
    exact this.symm.trans hc0
  have hbusy : s.dir ≠ none := by
    intro h
    simp [view, h] at hc0
  cases hmove with
  | rest hentry' =>
    cases hentry' with
    | same hdir => exact hsame (by simp [view, hdir])
    | clean he0 ht hrec | mark he0 hn ht | unmark he0 ht hrec =>
      exact hsame (by simp [view, he0, ht])
    | remove he0 hpend hn => cases hn.symm.trans (hentry _ he0)
    | recycled hrec =>
      obtain ⟨e, he, hpend⟩ := hs.marked hrec
      cases (hs.idle e he hpend).symm.trans (hentry e he)
  | @ask k r b ha hj hnow hrec hout =>
    cases hout with
    | @enter e he0 hpend htakes hrsn =>
      -- the request is not newer than the one waited for, so it is that one itself
      have hcvt := hentry e he0
      have hinst : c0.instId = r.instId := by
        simp only [takesSlot, hcvt, all_some, drcIsRetryRequest, and_eq_true, beq_iff_eq] at htakes
        exact htakes.1
      have hfresh := hs.fresh r (.inl ⟨b, mem_of_getElem? hj⟩)
      have hi : c0.instId = i := congrArg fst hkey
      have hn : c0.rsn = p.req.rsn := congrArg snd hkey
      have hle := hfresh.1 p (by rw [← hinst, hi]; exact hp0)
      have hge := hrsn c0 hcvt
      refine absurd ?_ (hfresh.2 c0 hc0)
      exact Prod.ext hinst (show c0.rsn = r.rsn by omega)
    | wait he0 ht =>
      have he0 : s.dir = some _ := he0
      exact hsame (by simp [view, he0, ht])
    | create hnone => exact absurd hnone hbusy
  | @claim k c b ha hj hnow hrec hout =>
    -- an accepted claim is the claim of the request, which has only one token
    have hnot : ∀ e cvt, s.dir = some e → e.converting = some cvt →
        drcIsSameClaimRequest cvt c = true → False := by
      intro e cvt he hcvt hsame
      cases (hentry e he).symm.trans hcvt
      have hmem := mem_of_getElem? hj
      have hrsn := hs.claims c b hmem c0 hc0 hsame
      have hinst : c0.instId = c.newId := by
        simp only [drcIsSameClaimRequest, and_eq_true, beq_iff_eq] at hsame
        exact hsame.1.1
      have hck : (Msg.claim c b).key = some (i, p.req.rsn) := by
        rw [← hkey]
        exact congrArg some (Prod.ext hinst.symm hrsn.symm)
      have h2 := two_le_tok hold hmem hck rfl
      have h1 := hs.one (i, p.req.rsn)
      omega
    cases hout with
    | ignored hc ht => exact hsame (by rw [ht]; rfl)
    | finish he0 hcvt hsm | next he0 hcvt hsm => exact (hnot _ _ he0 hcvt hsm).elim
  | transfer hj hdir | answer hj hm hkey hpd hdir => exact hsame (by simp [view, hdir])
  | done ha hj ht =>
    subst ht
    exact hsame (invldEnd_conv ..)

/-- The claims in flight that look like the claim of the converting request
are its claims. -/
lemma SlotInv.step_claims (hok : noLookalike debug s a = true) (c : ClaimInfo) (b : Bool)
    (hc : .claim c b ∈ t.net) (r : DrcReqInfo) (hr : t.view.conv = some r)
    (hlike : drcIsSameClaimRequest r c = true) : r.rsn = c.rsn := by
  rcases (step_move ht).conv with h | h | ⟨r', hr'⟩
  · rw [h] at hr
    rcases (step_move ht).claim_mem hs.reply hc with hm | ⟨i, p, hp, hans, hck⟩
    · exact hs.claims c b hm r hr hlike
    · -- the claim has just been made for the converting request
      obtain ⟨c0, hc0, hk0⟩ := hs.answered i p hp hans
      cases hc0.symm.trans hr
      exact (congrArg snd hk0).trans (congrArg snd hck).symm
  · cases h.symm.trans hr
  · cases hr'.conv.symm.trans hr
    exact hr'.claims debug hok c b hc hlike

lemma SlotInv.step_reply : ∀ x ∈ t.tasks, Reply x.req x.reply := by
  rcases step_flow hs.reply ht with h | ⟨i, n, p, h⟩
  · exact h.reply hs.reply
  · rw [h.state]
    exact hs.reply

end

/-- Every step keeps the invariant while no claim is mistaken for another. -/
lemma SlotInv.step {a} (hs : SlotInv s) (ht : step cfg s a = some t)
    (hok : noLookalike debug s a = true) : SlotInv t where
  one := hs.step_one ht
  lt := hs.step_lt ht
  reply := hs.step_reply ht
  pend := hs.step_pend ht
  conv := hs.step_conv ht
  mode := hs.step_mode ht
  convMode c hc := by
    rcases (step_move ht).conv with h | h | ⟨r, hr⟩
    · exact hs.convMode c (h ▸ hc)
    · cases h.symm.trans hc
    · cases hr.conv.symm.trans hc
      exact hr.mode hs.mode
  fresh := hs.step_fresh ht
  idle := hs.step_idle (step_move ht)
  marked := hs.step_marked (step_move ht)
  answered := hs.step_answered ht
  claims := hs.step_claims ht hok

lemma Init.slotInv (h : Init s) : SlotInv s := by
  constructor <;>
    simp [tok, State.Answered, View.Fresh, view, h.dir, h.net, h.tasks, h.pend, h.recycling]

/-! ## The read-only copies -/

/-- The answer to request `k`, or its claim, is in flight. -/
def State.Replied (s : State) (k : InstId × Nat) : Prop :=
  ∃ m ∈ s.net, (m.isAnswer = true ∨ m.isClaim = true) ∧ m.key = some k

/-- An exclusive request is answered only after all copies but its own and
the owner's are gone. -/
def CopiesOk (s : State) : Prop :=
  ∀ e r, s.dir = some e → e.converting = some r → r.reqMode = .exclusive → s.Replied r.key →
    (e.readonlyCopies.erase r.instId).erase e.claimedOwner = ∅

lemma replied_of_net {u : State}
    (hnet : ∀ m ∈ t.net, m ∈ u.net ∨ (m.isAnswer = false ∧ m.isClaim = false)) (hk : t.Replied k) :
    u.Replied k := by
  obtain ⟨m, hm, hkind, hkey⟩ := hk
  rcases hnet m hm with hm | ⟨ha, hc⟩
  · exact ⟨m, hm, hkind, hkey⟩
  · rw [ha, hc] at hkind
    rcases hkind with h | h <;> cases h

lemma replied_eraseIdx {j} (hk : { s with net := s.net.eraseIdx j }.Replied k) : s.Replied k := by
  obtain ⟨m, hm, hkind, hkey⟩ := hk
  exact ⟨m, mem_of_mem_eraseIdx hm, hkind, hkey⟩

/-- A request that a thread works on is not answered. -/
lemma Announced.copies {u} (h : Announced u t r ro) (hone : ∀ k, t.tok k ≤ 1)
    (hx : r.reqMode = .exclusive) (hk : t.Replied r.key) : ro = ∅ := by
  cases h with
  | @thread x hxr htasks =>
    obtain ⟨m, hm, -, hkey⟩ := hk
    have hmem : x ∈ t.tasks := by
      rw [htasks]
      exact mem_append_right _ (mem_singleton_self x)
    have htask := task_tok_pos hmem (congrArg DrcReqInfo.key hxr)
    have hmsg := net_tok_pos hm hkey
    have h1 := hone r.key
    unfold tok at h1
    omega
  | sent hm hcopies => exact hcopies hx

lemma CopiesOk.step {a : Act} (hcop : CopiesOk s) (hs : SlotInv s) (ht : step cfg s a = some t)
    (hok : noLookalike true s a = true) : CopiesOk t := by
  have hone := hs.step_one ht
  intro e r he hr hx hk
  -- the entry has kept its copies
  have hkeep : ∀ e0, s.dir = some e0 → e0.converting = e.converting →
      e0.readonlyCopies = e.readonlyCopies → e0.claimedOwner = e.claimedOwner →
      s.Replied r.key → (e.readonlyCopies.erase r.instId).erase e.claimedOwner = ∅ := by
    intro e0 he0 hc hro ho hk0
    rw [← hro, ← ho]
    exact hcop e0 r he0 (hc.trans hr) hx hk0
  have hsame : t.dir = s.dir → s.Replied r.key →
      (e.readonlyCopies.erase r.instId).erase e.claimedOwner = ∅ := fun hdir hk0 =>
    hkeep e (hdir ▸ he) rfl rfl rfl hk0
  cases step_move ht with
  | rest hentry hnow htasks hnet =>
    obtain ⟨e0, he0, hconv, hro, ho, -⟩ := hentry.entry he
    exact hkeep e0 he0 hconv hro ho (replied_of_net hnet hk)
  | @ask k q b ha hj hnow hrec hout =>
    cases hout with
    | @enter e0 he0 hpend htakes hrsn ht hann =>
      cases ht.symm.trans he
      cases hr
      have hinst : (enters e0 q).instId = q.instId := congrArg fst (enters_key e0 q)
      have h := hann.copies hone hx hk
      rw [hinst]
      exact h
    | @wait e0 q he0 ht htasks hnet =>
      cases ht.symm.trans he
      exact hkeep e0 he0 rfl rfl rfl (replied_eraseIdx (replied_of_net hnet hk))
    | create hnone ht =>
      cases ht.symm.trans he
      cases hr
  | claim ha hj hnow hrec hout =>
    cases hout with
    | ignored hc ht =>
      rw [ht] at hk
      exact hsame (by rw [ht]) (replied_eraseIdx hk)
    | finish he0 hcvt hsm hval ht =>
      cases ht.symm.trans he
      cases hr
    | next he0 hcvt hsm hval hq ht hl hann =>
      cases ht.symm.trans he
      cases hr
      exact hann.copies hone hx hk
  | transfer hj hdir hrec hnow htasks hnet =>
    obtain ⟨m, hm, hkind, hkey⟩ := hk
    refine hsame hdir ?_
    rcases hnet m hm with hm | ⟨-, hkey'⟩
    · exact ⟨m, hm, hkind, hkey⟩
    · exact ⟨_, mem_of_getElem? hj, .inl rfl, hkey'.symm.trans hkey⟩
  | @answer k m i p hj hm hkey hp hdir hrec hnow htasks hnet =>
    obtain ⟨m', hm', hkind, hkey'⟩ := hk
    refine hsame hdir ?_
    rcases hnet m' hm' with hm' | ⟨-, hp'⟩
    · exact ⟨m', hm', hkind, hkey'⟩
    · refine ⟨m, mem_of_getElem? hj, .inl hm, ?_⟩
      rw [hkey, ← hkey', hp']
      exact congrArg some (Prod.ext (hs.pend i p hp).1.symm rfl)
  | @done k x ha hj ht =>
    subst ht
    subst ha
    obtain ⟨e0, he0, ⟨rfl, hfailed⟩ | rfl⟩ := invldEnd_entry he
    · obtain ⟨m, hm, hkind, hkey⟩ := hk
      refine hkeep e he0 rfl rfl rfl ?_
      rcases invldEnd_net hm with hm | ⟨ha, hc⟩ | ⟨rfl, hclaim⟩
      · exact ⟨m, hm, hkind, hkey⟩
      · rw [ha, hc] at hkind
        rcases hkind with h | h <;> cases h
      · simp [noLookalike, hj, hfailed, hclaim hfailed] at hok
    · simp

/-! ## Claims -/

/-- The recorded LSN only grows with a claim. -/
lemma drcClaimNewPageOwner_lsn {e} (hval : drcClaimInfoIsInvalid c e = false) :
    e.lsn ≤ (drcClaimNewPageOwner e c).lsn := by
  have hlsn : ¬ (0 < c.lsn ∧ c.lsn < e.lsn) := by
    simp only [drcClaimInfoIsInvalid, or_eq_false_iff, decide_eq_false_iff_not] at hval
    exact hval.2
  unfold drcClaimNewPageOwner
  split
  · exact le_refl _
  · dsimp only
    split
    · show e.lsn ≤ c.lsn
      omega
    · split <;> exact le_refl _

lemma step_lsn {a e e'} (ht : step cfg s a = some t) (he : s.dir = some e) (he' : t.dir = some e') :
    e.lsn ≤ e'.lsn := by
  have hsame : t.dir = s.dir → e.lsn ≤ e'.lsn := by
    intro hdir
    cases he.symm.trans (hdir ▸ he')
    exact le_refl _
  cases step_move ht with
  | rest hentry =>
    obtain ⟨e0, he0, -, -, -, hlsn, -⟩ := hentry.entry he'
    cases he0.symm.trans he
    exact hlsn.le
  | ask ha hj hnow hrec hout =>
    cases hout with
    | enter he0 hpend htakes hrsn ht | wait he0 ht =>
      cases he0.symm.trans he
      cases ht.symm.trans he'
      exact le_refl _
    | create hnone => cases hnone.symm.trans he
  | claim ha hj hnow hrec hout =>
    cases hout with
    | ignored hc ht => exact hsame (by rw [ht])
    | finish he0 hcvt hsm hval ht | next he0 hcvt hsm hval hq ht =>
      cases he0.symm.trans he
      cases ht.symm.trans he'
      exact drcClaimNewPageOwner_lsn hval
  | transfer hj hdir | answer hj hm hkey hp hdir => exact hsame hdir
  | done ha hj ht =>
    subst ht
    obtain ⟨e0, he0, ⟨rfl, -⟩ | rfl⟩ := invldEnd_entry he'
    · cases he.symm.trans he0
      exact le_refl _
    · cases he.symm.trans he0
      exact le_refl _

/-- No check fails for the claim of the converting request. -/
lemma SlotInv.not_panics (hs : SlotInv s) (hcop : debug = true → CopiesOk s) {b}
    (hm : .claim c b ∈ s.net) {e} (he : s.dir = some e) (hr : e.converting = some r)
    (hlike : drcIsSameClaimRequest r c = true) (hval : drcClaimInfoIsInvalid c e = false) :
    drcClaimPanics debug e c = false := by
  have hconv : s.view.conv = some r := by simpa [view, he] using hr
  have hrsn := hs.claims c b hm r hconv hlike
  simp only [drcIsSameClaimRequest, and_eq_true, beq_iff_eq] at hlike
  obtain ⟨⟨hinst, -⟩, hmode⟩ := hlike
  have hpend : e.pending = false := by
    by_contra hne
    cases (hs.idle e he (by simpa using hne)).symm.trans hr
  have hcopies : c.mode ≠ .share → debug = true →
      (e.readonlyCopies.erase c.newId).erase e.claimedOwner = ∅ := by
    intro hshare hdebug
    have hnull := hs.convMode r hconv
    have hx : r.reqMode = .exclusive := by
      rw [← hmode] at hshare
      cases hrm : r.reqMode
      · exact absurd hrm hnull
      · exact absurd hrm hshare
      · rfl
    rw [← hinst]
    exact hcop hdebug e r he hr hx ⟨_, hm, .inr rfl, congrArg some (Prod.ext hinst.symm hrsn.symm)⟩
  simp only [drcClaimInfoIsInvalid, or_eq_false_iff, decide_eq_false_iff_not] at hval
  obtain ⟨hedp, hlsn⟩ := hval
  unfold drcClaimPanics
  simp only [hr, Option.all_some, hmode, bne_self_eq_false, hpend, Bool.or_self, Bool.false_or,
    Bool.and_eq_false_iff, Bool.or_eq_false_iff, decide_eq_false_iff_not]
  refine .inr ⟨?_, hlsn⟩
  by_cases hshare : c.mode = .share
  · exact .inl (by simp [hshare])
  · refine .inr ⟨?_, ?_⟩
    · by_cases hdebug : debug = true
      · exact .inr (by simpa using hcopies hshare hdebug)
      · exact .inl (by simpa using hdebug)
    · simpa [hshare, or_iff_not_imp_left] using hedp

/-- In every run in which no request enters the converting slot while a
claim in flight looks like its own, a claim that the directory accepts is
the claim of the converting request and fails no check; and the LSN of an
entry never decreases. -/
theorem accepted_claim_is_own (debug : Bool)
    (h : ReachableBy (step cfg) Init (fun s a => noLookalike debug s a = true) s) :
    (∀ k c b, s.net[k]? = some (.claim c b) → (drcClaimPageOwner cfg.timeout s.now s.dir c = none ∧
        step cfg s (.deliver k) = some { s with net := s.net.eraseIdx k }) ∨
      ∃ e r, s.dir = some e ∧ e.converting = some r ∧ r.key = c.key ∧
        drcClaimPanics debug e c = false) ∧
    ∀ a t e e', step cfg s a = some t → s.dir = some e → t.dir = some e' → e.lsn ≤ e'.lsn := by
  have hinv : SlotInv s ∧ (debug = true → CopiesOk s) := by
    refine h.invariant (P := fun s => SlotInv s ∧ (debug = true → CopiesOk s))
      (fun s hs => ⟨hs.slotInv, fun _ e r he => ?_⟩) fun s a t hok hs ht => ⟨hs.1.step ht hok, ?_⟩
    · cases hs.dir.symm.trans he
    · intro hdebug
      subst hdebug
      exact (hs.2 rfl).step hs.1 ht hok
  refine ⟨fun k c b hk => ?_, fun a t e e' ht he he' => step_lsn ht he he'⟩
  have hm := mem_of_getElem? hk
  cases hcl : drcClaimPageOwner cfg.timeout s.now s.dir c with
  | none =>
    refine .inl ⟨rfl, ?_⟩
    simp only [step, hk, deliverMsg, dcsProcessClaim, hcl]
  | some =>
    obtain ⟨e, r, he, hr, hlike, hval, hinst, -⟩ := drcClaimPageOwner_some hcl
    have hconv : s.view.conv = some r := by simpa [view, he] using hr
    refine .inr ⟨e, r, he, hr, Prod.ext hinst ?_, hinv.1.not_panics hinv.2 hm he hr hlike hval⟩
    exact hinv.1.claims c b hm r hconv hlike

/-- Instance 2 reads the page that instance 1 has, and its claim is on the
way to the directory. -/
def readerClaims : List Act :=
  [.request 1 0 .exclusive, .deliver 0, .deliver 0,
   .request 2 0 .share, .deliver 0, .deliver 0, .deliver 0]

/-- The claim of instance 2. -/
def readerClaim : ClaimInfo :=
  { newId := 2, instSid := 0, mode := .share, hasEdp := false, lsn := 0, rsn := 1 }

theorem reader_claim_is_own :
    ∃ s, runOk (step ⟨0, 1000⟩) (noLookalike true) start readerClaims = some s ∧
      s.net[0]? = some (.claim readerClaim false) ∧
      ∃ e r, s.dir = some e ∧ e.converting = some r ∧ r.key = readerClaim.key ∧
        drcClaimPanics true e readerClaim = false := by
  obtain ⟨s, hs, hx⟩ := exists_of_runOk_map (step ⟨0, 1000⟩) (noLookalike true) start
    readerClaims (fun s => (s.net[0]?, (drcClaimPageOwner 1000 s.now s.dir readerClaim).isSome))
    (some (.claim readerClaim false), true) (by decide +kernel)
  obtain ⟨hk, htaken⟩ := mk.inj hx
  refine ⟨s, hs, hk, ?_⟩
  rcases (accepted_claim_is_own true (.of_runOk _ (.init start_init) hs)).1 0 _ _ hk with
    ⟨hnone, -⟩ | hown
  · rw [hnone] at htaken
    cases htaken
  · exact hown

/-- Instance 2 drops the page and asks for it again before its first claim
arrives. The second request replaces the first one in the slot, and the
claim is accepted for it. -/
def askedAgain : List Act := readerClaims ++ [.evict 2, .request 2 0 .share, .deliver 2]

theorem first_claim_taken_for_second :
    ∃ s, Reachable (step ⟨0, 1000⟩) Init s ∧ s.net[0]? = some (.claim readerClaim false) ∧
      (drcClaimPageOwner 1000 s.now s.dir readerClaim).isSome = true ∧
      ∃ e r, s.dir = some e ∧ e.converting = some r ∧ r.key ≠ readerClaim.key := by
  obtain ⟨s, hs, hx⟩ := exists_of_run_map (step ⟨0, 1000⟩) start askedAgain
    (fun s => (s.net[0]?, (drcClaimPageOwner 1000 s.now s.dir readerClaim).isSome,
      s.dir.bind (·.converting)))
    (some (.claim readerClaim false), true, some ⟨2, 0, 3, .share, .null, 0⟩) (by decide +kernel)
  obtain ⟨hk, hx⟩ := mk.inj hx
  obtain ⟨htaken, hconv⟩ := mk.inj hx
  obtain ⟨e, he, hr⟩ := bind_eq_some_iff.mp hconv
  exact ⟨s, .of_run _ (.init start_init) hs, hk, htaken, e, _, he, hr, by decide⟩

end

/-! ## One place for each request -/

/-- Tokens are single and old; threads and waiting instances have their own requests. -/
structure Single (s : State) : Prop where
  tok : ∀ k, s.tok k ≤ 1 ∧ (0 < s.tok k → k.2 < s.now)
  reply : ∀ x ∈ s.tasks, Reply x.req x.reply
  pend : ∀ i p, (s.node i).pend = some p → p.req.instId = i

lemma Single.step {cfg s a t} (hs : Single s) (ht : step cfg s a = some t) : Single t where
  tok k := by
    have hnow := (step_move ht).now_le
    have hold := hs.tok k
    rcases step_tok (k := k) hs.pend hs.reply ht with h | ⟨hk, hnow', h⟩ <;> omega
  reply := by
    rcases step_flow hs.reply ht with h | ⟨i, n, p, h⟩
    · exact h.reply hs.reply
    · rw [h.state]
      exact hs.reply
  pend i p hp := by
    rcases step_waits ht hp with ⟨hold, -⟩ | ⟨-, hi, -⟩
    · exact hs.pend i p hold
    · exact hi

/-- In every run, whatever is late, lost, given up or asked again, a request is in at most
one place: one message, the queue of the directory, or one thread of the master. -/
theorem request_in_one_place {cfg : Config} {s : State} (h : Reachable (step cfg) Init s)
    (k : InstId × Nat) : s.tok k ≤ 1 := by
  refine (h.invariant (P := Single) (fun s hs => ?_) fun _ _ _ _ hs ht => hs.step ht).tok k |>.1
  have hs := hs.slotInv
  exact ⟨fun k => ⟨hs.one k, hs.lt k⟩, hs.reply, fun i p hp => (hs.pend i p hp).1⟩

theorem stale_request_in_one_place : ∃ s,
    run (step ⟨0, 1000⟩) start staleClaimRun = some s ∧ ∀ k, s.tok k ≤ 1 := by
  obtain ⟨s, hs, -⟩ := exists_of_run_map (step ⟨0, 1000⟩) start staleClaimRun (fun _ => ()) ()
    (by decide +kernel)
  exact ⟨s, hs, request_in_one_place (.of_run _ (.init start_init) hs)⟩

end Cantian.Dcs
