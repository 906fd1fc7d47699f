import Cantian.Dcs.Master
import Cantian.Lib.Pool

/-!
# Page protocol — what a step does to the nodes

A step changes at most one node, and `NodeStep` lists how. The master's
directory work changes none. Facts about single nodes (their clocks, the
page they hold) are proved over `NodeStep`, without going through the
directory again.
-/

namespace Cantian.Dcs

open List Option Node

/-! ## What directory work leaves alone -/

/-- The nodes, the disk and the history of the page are the same, and no message is lost. -/
structure Framed (s t : State) : Prop where
  node : t.node = s.node := by rfl
  disk : t.disk = s.disk := by rfl
  ver : t.ver = s.ver := by rfl
  now : t.now = s.now := by rfl
  net : s.net ⊆ t.net := by
    first
      | exact List.Subset.refl _
      | exact subset_append_left ..

lemma Framed.trans {s t u} (h : Framed s t) (h' : Framed t u) : Framed s u :=
  ⟨h'.node.trans h.node, h'.disk.trans h.disk, h'.ver.trans h.ver, h'.now.trans h.now,
    fun _ hm => h'.net (h.net hm)⟩

section
variable {cfg : Config} {s t : State}

lemma notifyOrInvalidate_framed (req : DrcReqInfo) (reply : Msg) (b : Bool)
    (readonly : Finset InstId) : Framed s (notifyOrInvalidate s req reply b readonly) := by
  unfold notifyOrInvalidate
  split <;> exact { }

lemma Asked.framed {r b} (h : Asked s r b t) : Framed s t := by
  cases h with
  | converting => exact .trans { } (notifyOrInvalidate_framed ..)
  | _ => exact { }

lemma Claimed.framed {c} (h : Claimed cfg s c t) : Framed s t := by
  cases h with
  | ignored => exact { }
  | taken he hcvt hsame hval hsub ht =>
    rcases ht with ⟨-, rfl⟩ | ⟨r, b, -, rfl⟩
    · exact { }
    · exact .trans { } (notifyOrInvalidate_framed ..)

lemma Recycled.framed {src time} (h : Recycled s src time t) : Framed s t := by
  cases h <;> exact { }

lemma invldEnd_framed (t : InvldTask) : Framed s (invldEnd s t) := by
  unfold invldEnd
  split <;> exact { }

lemma awaited_some {i n p} (h : s.awaited i n = some p) :
    (s.node i).pend = some p ∧ p.req.rsn = n := by
  unfold State.awaited at h
  rw [filter_eq_some_iff] at h
  exact ⟨h.1, by simpa using h.2⟩

lemma invldEnabled_true {waiting i} (h : invldEnabled cfg s waiting i = true) :
    i ∈ waiting ∧ (s.node i).pend = none := by
  simp only [invldEnabled, Bool.and_eq_true, decide_eq_true_eq, isNone_iff_eq_none] at h
  exact ⟨h.1.1, h.2⟩

end

/-! ## Invalidation -/

section
variable {n n' : Node}

lemma bufInvalidatePageWithVersion_some (h : bufInvalidatePageWithVersion n = some n') :
    (n.ctrl = none ∧ n' = n) ∨ ∃ c, n.ctrl = some c ∧ c.lockMode ≠ .exclusive ∧
      n' = { n with ctrl := some c.invalidated } := by
  unfold bufInvalidatePageWithVersion at h
  split at h
  · rename_i hc
    cases h
    exact .inl ⟨hc, rfl⟩
  · rename_i c hc
    split at h
    · cases h
    · rename_i hx
      cases h
      exact .inr ⟨c, hc, hx, rfl⟩

lemma bufInvalidatePageOwner_some (h : bufInvalidatePageOwner n = some n') :
    (n.ctrl = none ∧ n' = n) ∨ ∃ c, n.ctrl = some c ∧ n.pend = none ∧ c.recyclable = true ∧
      ((c.lockMode = .null ∧ n' = n) ∨
        n' = { n with ctrl := some c.invalidated }) := by
  unfold bufInvalidatePageOwner at h
  split at h
  · rename_i hc
    cases h
    exact .inl ⟨hc, rfl⟩
  rename_i c hc
  split at h
  · cases h
  rename_i hp
  simp only [Bool.or_eq_true, not_or, Bool.not_eq_true, isSome_eq_false_iff,
    isNone_iff_eq_none, Bool.not_eq_false'] at hp
  refine .inr ⟨c, hc, hp.1, hp.2, ?_⟩
  split_ifs at h with hn
  · cases h
    exact .inl ⟨hn, rfl⟩
  · cases h
    exact .inr rfl

lemma bufInvalidatePageWithVersion_lock (h : bufInvalidatePageWithVersion n = some n') :
    n'.lockMode = .null ∧ n'.isEdp = n.isEdp ∧ n'.pend = n.pend := by
  rcases bufInvalidatePageWithVersion_some h with ⟨hc, rfl⟩ | ⟨c, hc, -, rfl⟩ <;>
    simp [lockMode, isEdp, BufCtrl.invalidated, hc]

lemma bufInvalidatePageOwner_lock (h : bufInvalidatePageOwner n = some n') :
    n'.lockMode = .null ∧ n'.isEdp = n.isEdp ∧ n'.pend = n.pend ∧
      (n.ctrl = none ∨ n.pend = none) := by
  rcases bufInvalidatePageOwner_some h with
    ⟨hc, rfl⟩ | ⟨c, hc, hp, -, ⟨hn, rfl⟩ | rfl⟩ <;>
    simp_all [lockMode, isEdp, BufCtrl.invalidated]

end

/-! ## The changes of one node -/

/-- Is the action an invalidation of instance `i`'s read-only copy? -/
def Act.invalidates (s : State) (i : InstId) : Act → Bool
  | .deliver k => s.net[k]? == some (.invldReq i)
  | .invldCopy _ j | .recycleCopy j => j == i
  | _ => false

/-- Instance `i` stops waiting without an answer to its request. -/
def Act.GivesUp (s : State) (i : InstId) (a : Act) : Prop :=
  a = .timeout i ∨ ∃ k sid rsn p, a = .deliver k ∧ s.net[k]? = some (.errorMsg i sid rsn) ∧
    s.awaited i rsn = some p

/-- The node that a step changes, and what it becomes. -/
inductive NodeStep (s : State) : Act → InstId → Node → Prop where
  | request {i sid mode} (hp : (s.node i).pend = none) :
      NodeStep s (.request i sid mode) i (dcsRequestPage (s.node i) i sid s.now mode).1
  | tryRequest {i sid} (hp : (s.node i).pend = none) (hc : (s.node i).ctrl = none) :
      NodeStep s (.tryRequest i sid) i (dcsTryGetPageShareOwner (s.node i) i sid s.now).1
  | needLoad {k i sid rsn sync p c} (hk : s.net[k]? = some (.ackNeedLoad i sid rsn sync))
      (hw : s.awaited i rsn = some p) (hx : c.lockMode = .exclusive)
      (hl : c.loadStatus = .isLoaded) (hpage : c.page = s.disk) :
      NodeStep s (.deliver k) i { (sync.elim (s.node i) fun x => (s.node i).dtcUpdate x.1 x.2) with
        ctrl := some c, pend := none }
  | already {k i sid rsn mode b p c c'}
      (hk : s.net[k]? = some (.ackAlreadyOwner i sid rsn mode b)) (hw : s.awaited i rsn = some p)
      (hc : (s.node i).ctrl = some c) (hfin : dtcBufFinish s.disk { c with
        lockMode := if mode = .exclusive then .exclusive else .share } = some c') :
      NodeStep s (.deliver k) i { (s.node i) with ctrl := some c', pend := none }
  | ready {k m p c c₁ c'} (hk : s.net[k]? = some (.pageReady m))
      (hw : s.awaited m.dst m.rsn = some p) (hc : (s.node m.dst).ctrl = some c)
      (hle : p.req.reqMode ≤ m.mode) (hfrom : dcsHandlePageFromOwner c m = some c₁)
      (hfin : dtcBufFinish s.disk c₁ = some c') :
      NodeStep s (.deliver k) m.dst
        { (s.node m.dst).dtcUpdate m.lsn m.scn with ctrl := some c', pend := none }
  | giveUp {a i} (ha : a.GivesUp s i) : NodeStep s a i (s.node i).giveUp
  | transfer {k o req b c needLoad readonly2X} (hk : s.net[k]? = some (.askOwner o req b))
      (hp : (s.node o).pend = none) (hc : (s.node o).ctrl = some c)
      (hm : (dcsOwnerTransferPage (s.node o) req b).2 =
        .pageReady (pageReadyOf (s.node o) c req needLoad readonly2X))
      (hl : needLoad = true → c.loadStatus = .loadFailed) : NodeStep s (.deliver k) o
        { (s.node o) with ctrl := some (dcsAfterTransfer c req.reqMode) }
  | invalidate {a i c} (hp : (s.node i).pend = none) (hc : (s.node i).ctrl = some c)
      (h : a.invalidates s i = true ∧ c.lockMode ≠ .exclusive ∨ c.recyclable = true) :
      NodeStep s a i { (s.node i) with ctrl := some c.invalidated }
  | write {i c} (hc : (s.node i).ctrl = some c) (hx : c.lockMode = .exclusive)
      (hl : c.loadStatus = .isLoaded) :
      NodeStep s (.write i) i ((s.node i).modify c (s.ver + 1))
  | flush {i c} (hc : (s.node i).ctrl = some c) (he : c.isEdp = false) :
      NodeStep s (.flush i) i
        { (s.node i) with ctrl := some { c with isDirty := false, isRemoteDirty := false } }
  | evict {i c} (hc : (s.node i).ctrl = some c) (hp : (s.node i).pend = none)
      (hr : c.recyclable = true) : NodeStep s (.evict i) i { (s.node i) with ctrl := none }
  | cleanEdp {i c} (hc : (s.node i).ctrl = some c) (he : c.isEdp = true) :
      NodeStep s (.cleanEdp i) i { (s.node i) with ctrl := some (dcsBufCleanCtrlEdp c) }
  | clocks {a i lsn scn} : NodeStep s a i { (s.node i) with lsn := lsn, scn := scn }

section
variable {cfg : Config} {s t : State}

lemma node_invalidate {a i n} (ha : a.invalidates s i = true) (hp : (s.node i).pend = none)
    (hn : bufInvalidatePageWithVersion (s.node i) = some n) :
    (s.setNode i n).node = s.node ∨ NodeStep s a i n := by
  rcases bufInvalidatePageWithVersion_some hn with ⟨-, rfl⟩ | ⟨c, hc, hx, rfl⟩
  · exact .inl (Function.update_eq_self ..)
  · exact .inr (.invalidate hp hc (.inl ⟨ha, hx⟩))

lemma node_invalidateOwner {i n} (a : Act) (hn : bufInvalidatePageOwner (s.node i) = some n) :
    (s.setNode i n).node = s.node ∨ NodeStep s a i n := by
  rcases bufInvalidatePageOwner_some hn with ⟨-, rfl⟩ | ⟨c, hc, hp, hr, ⟨-, rfl⟩ | rfl⟩
  · exact .inl (Function.update_eq_self ..)
  · exact .inl (Function.update_eq_self ..)
  · exact .inr (.invalidate hp hc (.inr hr))

lemma Delivered.node {k m} (hk : s.net[k]? = some m)
    (ht : Delivered cfg { s with net := s.net.eraseIdx k } m t) :
    t.node = s.node ∨ ∃ i n, NodeStep s (.deliver k) i n ∧ t.node = (s.setNode i n).node := by
  cases ht with
  | askMaster h | claim h => exact .inl h.framed.node
  | recycleOwner h =>
    exact .inr ⟨cfg.master, _, .clocks, h.framed.node⟩
  | ignored => exact .inl rfl
  | needLoad hw hn =>
    obtain ⟨c, rfl⟩ := dcsHandleAckNeedLoad_some hn
    exact .inr ⟨_, _, .needLoad hk hw rfl rfl rfl, rfl⟩
  | already hw hn =>
    obtain ⟨c, c', hc, -, hfin, rfl, -⟩ := dcsHandleAckAlreadyOwner_some hn
    exact .inr ⟨_, _, .already hk hw hc hfin, rfl⟩
  | ready hw hn =>
    obtain ⟨c, c₁, c', hc, hle, hfrom, hfin, rfl, -⟩ := dcsHandleAckPageReady_some hn
    exact .inr ⟨_, _, .ready hk hw hc hle hfrom hfin, rfl⟩
  | error hw => exact .inr ⟨_, _, .giveUp (.inr ⟨k, _, _, _, rfl, hk, hw⟩), rfl⟩
  | @askOwner o req b hp =>
    rcases dcsOwnerTransferPage_cases (s.node o) req b with
      h | ⟨-, m, h, -⟩ | ⟨c, nl, r2x, hc, h, hl, -⟩ <;> rw [h]
    · exact .inl (Function.update_eq_self ..)
    · exact .inl (Function.update_eq_self ..)
    · exact .inr ⟨o, _, .transfer hk hp hc (by rw [h]) fun hnl => (hl hnl).1, rfl⟩
  | @invld i n hp hn =>
    have ha : Act.invalidates s i (.deliver k) = true := by
      simp [Act.invalidates, hk]
    exact (node_invalidate ha hp hn).imp_right fun h => ⟨_, _, h, rfl⟩
  | invldOwner hn =>
    exact (node_invalidateOwner (s := s) _ hn).imp_right fun h => ⟨_, _, h, rfl⟩

lemma step_node {a} (ht : step cfg s a = some t) :
    t.node = s.node ∨ ∃ i n, NodeStep s a i n ∧ t.node = (s.setNode i n).node := by
  cases step_cases ht with
  | deliver hk h => exact h.node hk
  | request hp => exact .inr ⟨_, _, .request hp, rfl⟩
  | tryRequest hp hc => exact .inr ⟨_, _, .tryRequest hp hc, rfl⟩
  | timeout => exact .inr ⟨_, _, .giveUp (.inl rfl), rfl⟩
  | invldCopy hk hen hn | recycleCopy hk hen hn =>
    exact (node_invalidate (beq_self_eq_true _) (invldEnabled_true hen).2 hn).imp_right
      fun h => ⟨_, _, h, rfl⟩
  | recycleInvldOwner he hrt hw hf hd hn =>
    exact (node_invalidateOwner _ hn).imp_right fun h => ⟨_, _, h, rfl⟩
  | write hc hp hx hl => exact .inr ⟨_, _, .write hc hx hl, rfl⟩
  | flush hc hp he => exact .inr ⟨_, _, .flush hc he, rfl⟩
  | evict hc hp hr => exact .inr ⟨_, _, .evict hc hp hr, rfl⟩
  | cleanEdp hc he => exact .inr ⟨_, _, .cleanEdp hc he, rfl⟩
  | otherWork => exact .inr ⟨_, _, .clocks, rfl⟩
  | invldDone => exact .inl (invldEnd_framed ..).node
  | _ => exact .inl rfl

lemma Delivered.globals {m} (ht : Delivered cfg s m t) : t.disk = s.disk ∧ t.ver = s.ver := by
  cases ht with
  | askMaster h | claim h | recycleOwner h => exact ⟨h.framed.disk, h.framed.ver⟩
  | _ => exact ⟨rfl, rfl⟩

end

/-! ## Messages -/

/-- A message in flight, or the answer an invalidation thread keeps back. -/
def State.Pending (s : State) (m : Msg) : Prop := m ∈ s.net ∨ ∃ t ∈ s.tasks, t.reply = m

/-- The message is not an answer with a page. -/
def Msg.isControl : Msg → Bool
  | .pageReady _ => false
  | _ => true

section
variable {cfg : Config} {s t : State} {m : Msg}

lemma pending_send {l} (h : (s.send l).Pending m) : s.Pending m ∨ m ∈ l := by
  rcases h with h | h
  · rcases mem_append.mp h with h | h
    · exact .inl (.inl h)
    · exact .inr h
  · exact .inl (.inr h)

lemma pending_eraseIdx {k} (h : { s with net := s.net.eraseIdx k }.Pending m) : s.Pending m := by
  rcases h with h | h
  · exact .inl (mem_of_mem_eraseIdx h)
  · exact .inr h

lemma dcsNotifyOwnerForPage_isControl (o : InstId) (req : DrcReqInfo) (b b' : Bool) :
    (dcsNotifyOwnerForPage o req b b').isControl = true := by
  unfold dcsNotifyOwnerForPage
  split <;> rfl

lemma dcsNotifyAfterClaim_isControl (internal : Bool) (o : InstId) (req : DrcReqInfo) :
    (dcsNotifyAfterClaim cfg internal o req).isControl = true := by
  unfold dcsNotifyAfterClaim
  split
  · rfl
  · exact dcsNotifyOwnerForPage_isControl ..

lemma notifyOrInvalidate_pending {req reply b readonly} (hr : reply.isControl = true)
    (h : (notifyOrInvalidate s req reply b readonly).Pending m) :
    s.Pending m ∨ m.isControl = true := by
  unfold notifyOrInvalidate at h
  split at h
  · rcases h with h | ⟨t, ht, rfl⟩
    · exact .inl (.inl h)
    · rcases mem_append.mp ht with ht | ht
      · exact .inl (.inr ⟨t, ht, rfl⟩)
      · obtain rfl := mem_singleton.mp ht
        exact .inr hr
  · rcases pending_send h with h | h
    · exact .inl h
    · obtain rfl := mem_singleton.mp h
      exact .inr hr

/-- The master sends control messages only. -/
lemma Asked.pending {r b} (ht : Asked s r b t) (h : t.Pending m) :
    s.Pending m ∨ m.isControl = true := by
  cases ht with
  | refused | granted =>
    exact (pending_send h).imp_right fun hm => by rw [mem_singleton.mp hm]; rfl
  | queued => exact .inl h
  | converting =>
    have hm := notifyOrInvalidate_pending (dcsNotifyOwnerForPage_isControl ..) h
    exact hm

lemma claimed_pending {e c cvt time q conflict}
    (h : (claimed s e c cvt time q conflict).Pending m) : s.Pending m ∨ m.isControl = true := by
  refine (pending_send h).imp_right fun hm => ?_
  obtain ⟨r, -, rfl⟩ := mem_map.mp hm
  rfl

lemma Claimed.pending {c} (ht : Claimed cfg s c t) (h : t.Pending m) :
    s.Pending m ∨ m.isControl = true := by
  cases ht with
  | ignored => exact .inl h
  | taken he hcvt hsame hval hsub ht =>
    rcases ht with ⟨-, rfl⟩ | ⟨r, b, -, rfl⟩
    · exact claimed_pending h
    · rcases notifyOrInvalidate_pending (dcsNotifyAfterClaim_isControl ..) h with h | h
      · exact claimed_pending h
      · exact .inr h

lemma claimOf_isControl (p : PendReq) (c : BufCtrl) (b : Bool) (mode : LockMode) :
    (claimOf p c b mode).isControl = true := by
  unfold claimOf
  split <;> rfl

lemma Delivered.pending {r} (ht : Delivered cfg s r t) (h : t.Pending m) :
    s.Pending m ∨ m.isControl = true ∨
      ∃ o req b, r = .askOwner o req b ∧ m = (dcsOwnerTransferPage (s.node o) req b).2 := by
  cases ht with
  | askMaster ht | claim ht => exact (ht.pending h).imp_right .inl
  | recycleOwner ht => cases ht <;> exact .inl h
  | already hw hn hclaim | ready hw hn hclaim =>
    obtain ⟨c, b, md, rfl⟩ := hclaim
    refine (pending_send h).imp_right fun hm => .inl ?_
    rw [mem_singleton.mp hm]
    exact claimOf_isControl ..
  | askOwner =>
    exact (pending_send h).imp_right fun hm => .inr ⟨_, _, _, rfl, mem_singleton.mp hm⟩
  | _ => exact .inl h

lemma invldEnd_pending {k t'} (hk : s.tasks[k]? = some t')
    (h : (invldEnd { s with tasks := s.tasks.eraseIdx k } t').Pending m) :
    s.Pending m ∨ m.isControl = true := by
  have hold : { s with tasks := s.tasks.eraseIdx k }.Pending m → s.Pending m := by
    rintro (h | ⟨u, hu, rfl⟩)
    · exact .inl h
    · exact .inr ⟨u, mem_of_mem_eraseIdx hu, rfl⟩
  have hreply : s.Pending t'.reply := .inr ⟨t', mem_of_getElem? hk, rfl⟩
  unfold invldEnd at h
  split at h
  · rcases pending_send h with h | h
    · exact .inl (hold h)
    · rw [mem_singleton.mp h]
      split
      · exact .inl hreply
      · exact .inr rfl
  · rcases pending_send h with h | h
    · exact .inl (hold h)
    · rw [mem_singleton.mp h]
      exact .inl hreply

/-- A page is sent by an owner that handles a request, and by nobody else. -/
lemma step_pending {a} (ht : step cfg s a = some t) (h : t.Pending m) :
    s.Pending m ∨ m.isControl = true ∨
      ∃ k o req b, a = .deliver k ∧ s.net[k]? = some (.askOwner o req b) ∧
        m = (dcsOwnerTransferPage (s.node o) req b).2 := by
  have hset : ∀ {k : Nat} {t' : InvldTask} {w : Finset InstId} {f : Bool},
      s.tasks[k]? = some t' →
      (m ∈ s.net ∨ ∃ u ∈ s.tasks.set k { t' with waiting := w, failed := f }, u.reply = m) →
      s.Pending m := by
    rintro k t' w f hk (h | ⟨u, hu, rfl⟩)
    · exact .inl h
    · rcases mem_or_eq_of_mem_set hu with hu | rfl
      · exact .inr ⟨u, hu, rfl⟩
      · exact .inr ⟨t', mem_of_getElem? hk, rfl⟩
  have hcontrol : ∀ {u : State} {r : Msg}, (u.Pending m → s.Pending m) → r.isControl = true →
      (u.send [r]).Pending m → s.Pending m ∨ m.isControl = true := by
    intro u r hu hr h
    refine (pending_send h).imp hu fun hm => ?_
    rw [mem_singleton.mp hm]
    exact hr
  cases step_cases ht with
  | deliver hk hd =>
    rcases hd.pending h with h | h | ⟨o, req, b, rfl, h⟩
    · exact .inl (pending_eraseIdx h)
    · exact .inr (.inl h)
    · exact .inr (.inr ⟨_, o, req, b, rfl, hk, h⟩)
  | request | tryRequest | invldResend | recycleResend | recycleOwnerTimeout =>
    exact (hcontrol id rfl h).imp_right .inl
  | drop => exact .inl (pending_eraseIdx h)
  | invldFail hk | invldCopy hk => exact .inl (hset hk h)
  | invldDone hk => exact (invldEnd_pending hk h).imp_right .inl
  | evict =>
    refine (pending_send h).imp_right fun hm => .inl ?_
    split at hm
    · rw [mem_singleton.mp hm]
      rfl
    · cases hm
  | _ => exact .inl h

lemma step_nodeAt {a} (ht : step cfg s a = some t) (i : InstId) :
    t.node i = s.node i ∨ ∃ n, NodeStep s a i n ∧ t.node i = n := by
  rcases step_node ht with h | ⟨j, n, hn, h⟩
  · exact .inl (congrFun h i)
  rcases eq_or_ne i j with rfl | hi
  · exact .inr ⟨n, hn, by simp [h, State.setNode]⟩
  · exact .inl (by simp [h, State.setNode, hi])

/-- A request is waited for until it is answered, in one way or other. -/
lemma step_pend {a} (ht : step cfg s a = some t) {i p} (hp : (s.node i).pend = some p) :
    (t.node i).pend = some p ∨ a = .timeout i ∨
      ∃ k m, a = .deliver k ∧ s.net[k]? = some m ∧ m.key = some (i, p.req.rsn) := by
  have hans : ∀ {rsn : Nat} {q : PendReq}, s.awaited i rsn = some q → rsn = p.req.rsn := by
    intro rsn q hw
    obtain ⟨hq, rfl⟩ := awaited_some hw
    cases hp.symm.trans hq
    rfl
  rcases step_nodeAt ht i with h | ⟨n, hn, h⟩ <;> rw [h]
  · exact .inl hp
  cases hn with
  | request hidle | tryRequest hidle | transfer hk hidle | invalidate hidle | evict hc hidle =>
    cases hidle.symm.trans hp
  | needLoad hk hw | already hk hw | ready hk hw =>
    exact .inr (.inr ⟨_, _, rfl, hk, by rw [← hans hw]; rfl⟩)
  | giveUp ha =>
    rcases ha with rfl | ⟨k, sid, rsn, q, rfl, hk, hw⟩
    · exact .inr (.inl rfl)
    · exact .inr (.inr ⟨k, _, rfl, hk, by rw [← hans hw]; rfl⟩)
  | write | flush | cleanEdp | clocks => exact .inl hp

lemma notifyOrInvalidate_dir (req : DrcReqInfo) (reply : Msg) (b : Bool)
    (readonly : Finset InstId) : (notifyOrInvalidate s req reply b readonly).dir = s.dir := by
  unfold notifyOrInvalidate
  split <;> rfl

lemma Delivered.net {r} (ht : Delivered cfg s r t) (h : m ∈ s.net) : m ∈ t.net := by
  have hsend : ∀ (u : State) l, u.net = s.net → m ∈ (u.send l).net := by
    intro u l hu
    exact mem_append_left _ (hu ▸ h)
  cases ht with
  | askMaster ht | claim ht | recycleOwner ht => exact ht.framed.net h
  | already | ready | askOwner => exact hsend _ _ rfl
  | _ => exact h

/-- A message stays in flight until it is delivered or lost. -/
lemma step_net {a} (ht : step cfg s a = some t) (h : m ∈ s.net) :
    m ∈ t.net ∨ ∃ k, (a = .drop k ∨ a = .deliver k) ∧ s.net[k]? = some m := by
  have herase : ∀ k, m ∈ s.net.eraseIdx k ∨ s.net[k]? = some m := by
    intro k
    by_cases hk : s.net[k]? = some m
    · exact .inr hk
    · obtain ⟨i, hi, rfl⟩ := getElem_of_mem h
      refine .inl (mem_eraseIdx_iff_getElem.mpr ⟨i, hi, ?_, rfl⟩)
      rintro rfl
      exact hk (getElem?_eq_getElem hi)
  cases step_cases ht with
  | @deliver k _ _ _ hd =>
    rcases herase k with hm | hm
    · exact .inl (hd.net hm)
    · exact .inr ⟨k, .inr rfl, hm⟩
  | @drop k =>
    rcases herase k with hm | hm
    · exact .inl hm
    · exact .inr ⟨k, .inl rfl, hm⟩
  | request | tryRequest | invldResend | recycleResend | evict | recycleOwnerTimeout =>
    exact .inl (mem_append_left _ h)
  | invldDone => exact .inl ((invldEnd_framed ..).net h)
  | _ => exact .inl h

end

end Cantian.Dcs
