import Cantian.Dcs.View

/-!
# Page protocol — elementary changes of the lock view

Each theorem here is about one change that some handler makes to the view:
a request starts or ends its conversion, a message is sent, a lock is
granted, the entry comes or goes. The hypotheses are what the handler knows
at that point.
-/

namespace Cantian.Dcs.View

open Function List Option LockMode

variable {strict : Prop} {v : View}

/-! ## Quiet changes -/

lemma quiet_drop (v : View) (k : Nat) : Quiet v { v with net := v.net.eraseIdx k } where
  now := le_rfl
  mode _ := le_refl _
  edp _ := .inl
  pend _ := .inl rfl
  net := ⟨v.net.eraseIdx k, [], (append_nil _).symm, eraseIdx_sublist _ _, fun m hm => nomatch hm⟩

variable {md : LockMode}

variable {i : InstId}

lemma quiet_node (v : View) {e p} (hm : md ≤ v.mode i) (he : e = true → v.edp i = true ∨ md = .null)
    (hp : p = v.pend i ∨ p = none) : Quiet v { v with
      mode := update v.mode i md, edp := update v.edp i e
      pend := update v.pend i p } where
  now := le_rfl
  mode j := by
    rcases eq_or_ne j i with rfl | hj
    · simpa using hm
    · simpa [hj] using le_refl _
  edp j := by
    rcases eq_or_ne j i with rfl | hj
    · simpa using he
    · simpa [hj] using Or.inl
  pend j := by
    rcases eq_or_ne j i with rfl | hj
    · simpa using hp
    · simp [hj]
  net := ⟨v.net, [], (append_nil _).symm, .refl _, fun m hm => nomatch hm⟩

lemma quiet_now (v : View) (d : Nat) : Quiet v { v with now := v.now + d } where
  now := Nat.le_add_right _ _
  mode _ := le_refl _
  edp _ := .inl
  pend _ := .inl rfl
  net := ⟨v.net, [], (append_nil _).symm, .refl _, fun m hm => nomatch hm⟩

variable {b : Bool} {r : DrcReqInfo}

section
variable (hv : v.Inv strict)
include hv

section
variable (hc : ∀ i n md, v.Current i n md → ¬ v.Waits i n)
include hc

/-- Nobody waits for a grant when no current request is waited for. -/
lemma Inv.not_waits_already {a n} (hm : .ackAlreadyOwner i a n md b ∈ v.net) : ¬ v.Waits i n :=
  fun hw => hc _ _ _ (hv.already i a n md b hm hw).1.1 hw

lemma Inv.not_waits_ready {m} (hm : .pageReady m ∈ v.net) : ¬ v.Waits m.dst m.rsn :=
  fun hw => hc _ _ _ (hv.ready m hm hw).1.1 hw

lemma Inv.not_waits_ask {o} (hm : .askOwner o r b ∈ v.net) : ¬ v.Waits r.instId r.rsn :=
  fun hw => hc _ _ _ (hv.ask o r b hm hw).1 hw

end

/-- An entry that is not marked, or converts a request, is not recycled. -/
lemma Inv.not_recycling (h : v.busy = false ∨ ∃ c, v.conv = some c) (rt : RecycleTask) :
    v.recycling ≠ some rt := by
  intro hrt
  obtain ⟨hb, hc, -⟩ := hv.recycle rt hrt
  rcases h with h | ⟨c, h⟩
  · cases hb.symm.trans h
  · cases hc.symm.trans h

/-! ## The directory -/

/-- The queue is replaced by one of fresh, different requests. -/
lemma Inv.setQueue {q} (hq : ∀ r ∈ q, v.FreshOk r) (hd : q.Pairwise fun r r' => r.key ≠ r'.key)
    (ha : ∀ r b, .askMaster r b ∈ v.net → ∀ r' ∈ q, r.key ≠ r'.key) :
    { v with queue := q }.Inv strict :=
  { hv with
    fresh := fun r hr => by
      rcases hr with hb | hr
      · exact hv.fresh r (.inl hb)
      · exact hq r hr
    ask_queue := ha
    queue_distinct := hd }

/-- A fresh request of an instance starts its conversion, in place of
nothing or of an older request of the same instance. -/
lemma Inv.startConv (hbusy : v.busy = false) (hr : v.FreshOk r)
    (hother : ∀ r', v.Fresh r' → r'.key ≠ r.key)
    (hold : ∀ c, v.conv = some c → c.instId = r.instId ∧ c.rsn ≤ r.rsn ∧ c.reqMode ≤ r.reqMode) :
    { v with conv := some r }.Inv strict := by
  obtain ⟨hlt, hnull, hnew, hconv, htask, hclaim⟩ := hr
  -- the request replaced is older than the one its instance waits for
  have hcur : ∀ i n md, v.Current i n md → ¬ v.Waits i n := by
    rintro i n md ⟨c, hc, rfl, rfl, rfl⟩ ⟨p, hp, hn⟩
    obtain ⟨hi, hle, -⟩ := hold c hc
    refine hconv c hc (Prod.ext hi (le_antisymm hle ?_))
    rw [hi] at hp
    show r.rsn ≤ c.rsn
    exact hn ▸ hnew p hp
  refine { hv with
    conv_ok := ?_, fresh := ?_, needLoad := ?_, already := ?_, ready := ?_, ask := ?_,
    claim := ?_, task := ?_, holders := ?_, xholders := ?_, busy_conv := ?_, recycle := ?_,
    strictMode := ?_ }
  · rintro c ⟨⟩
    exact ⟨hlt, hnull⟩
  · intro r' hr'
    obtain ⟨h0, h1, h2, -, h4, h5⟩ := hv.fresh r' hr'
    refine ⟨h0, h1, h2, ?_, h4, h5⟩
    rintro c ⟨⟩
    exact (hother r' hr').symm
  · intro i a n y hm hw
    obtain ⟨ho, hnull, hready, -⟩ := hv.needLoad i a n y hm hw
    refine ⟨ho, hnull, hready, fun c b hc cvt hcvt => ?_⟩
    cases hcvt
    exact (hclaim c b hc).symm
  · exact fun i a n md b hm hw => absurd hw (hv.not_waits_already hcur hm)
  · exact fun m hm hw => absurd hw (hv.not_waits_ready hcur hm)
  · exact fun o r b hm hw => absurd hw (hv.not_waits_ask hcur hm)
  · rintro c b hm ⟨_, ⟨⟩, hi, hn, -⟩
    exact absurd (Prod.ext hi.symm hn.symm) (hclaim c b hm)
  · intro t ht
    have hne : ¬ some r = some t.req := by
      rintro ⟨⟩
      exact htask t ht rfl
    exact ⟨(hv.task t ht).1, fun h => absurd h hne, fun h => absurd h hne⟩
  · intro i hi
    rcases hv.holders i hi with h | h | ⟨c, hc, hci⟩
    · exact .inl h
    · exact .inr (.inl h)
    · exact .inr (.inr ⟨r, rfl, (hold c hc).1.symm.trans hci⟩)
  · intro i hi
    rcases hv.xholders i hi with h | ⟨c, hc, hci, hx⟩
    · exact .inl h
    · obtain ⟨hcr, -, hle⟩ := hold c hc
      exact .inr ⟨r, rfl, hcr.symm.trans hci, eq_exclusive_of_le (hx ▸ hle)⟩
  · exact fun hb => by cases hbusy.symm.trans hb
  · exact fun rt hrt => absurd hrt (hv.not_recycling (.inl hbusy) rt)
  · intro hst
    obtain ⟨hle, hload⟩ := hv.strictMode hst
    refine ⟨fun i hi => (hle i hi).imp_right ?_, hload⟩
    rintro ⟨c, hc, hci, hcm⟩
    obtain ⟨hcr, -, hcm'⟩ := hold c hc
    exact ⟨r, rfl, hcr.symm.trans hci, le_trans hcm hcm'⟩

/-- A claim of the converting request ends the conversion. The new owner,
copies and mode are those of `drc_claim_new_page_owner`. -/
lemma Inv.finishConv {c o ro} (hcur : v.Current c.newId c.rsn c.mode) (hc : v.ClaimOk c)
    (hold : ¬ v.Waits c.newId c.rsn) (hnull : c.mode ≠ .null)
    (hload : ∀ i a n y, .ackNeedLoad i a n y ∈ v.net → ¬ v.Waits i n)
    (hcase : (c.mode ≠ .share ∧ o = some c.newId ∧ md = c.mode) ∨
      (c.mode = .share ∧ o = v.owner ∧ ro = insert c.newId v.readonly ∧ md = .share ∧
        (v.owner = some c.newId → ¬ .share ≤ v.dirMode)) ∨
      (v.owner = some c.newId ∧ o = v.owner ∧ ro = v.readonly ∧ md = v.dirMode ∧
        c.mode ≤ v.dirMode)) :
    { v with conv := none, owner := o, readonly := ro, dirMode := md }.Inv strict := by
  obtain ⟨cvt, hcvt, hi, hn, hmd⟩ := hcur
  obtain ⟨hx, hs⟩ := hc
  have hcur' : ∀ i n md, v.Current i n md → ¬ v.Waits i n := by
    rintro i n md' ⟨c', hc', rfl, rfl, rfl⟩
    cases hcvt.symm.trans hc'
    rw [hi, hn]
    exact hold
  refine { hv with
    conv_ok := ?_, fresh := ?_, needLoad := ?_, already := ?_, ready := ?_, ask := ?_,
    claim := ?_, task := ?_, holders := ?_, xholders := ?_, edp_owner := ?_
    busy_conv := fun _ => rfl, recycle := ?_, strictMode := ?_ }
  · rintro c' ⟨⟩
  · intro r hr
    obtain ⟨h0, h1, h2, -, h4, h5⟩ := hv.fresh r hr
    exact ⟨h0, h1, h2, by rintro c' ⟨⟩, h4, h5⟩
  · exact fun i a n y hm hw => absurd hw (hload i a n y hm)
  · exact fun i a n md b hm hw => absurd hw (hv.not_waits_already hcur' hm)
  · exact fun m hm hw => absurd hw (hv.not_waits_ready hcur' hm)
  · exact fun o r b hm hw => absurd hw (hv.not_waits_ask hcur' hm)
  · rintro c' b hm ⟨_, ⟨⟩, -⟩
  · exact fun t ht => ⟨(hv.task t ht).1, by rintro ⟨⟩, by rintro ⟨⟩⟩
  · -- the claimer is covered by what the claim recorded for it
    intro i hmi
    rcases hcase with ⟨hmode, rfl, -⟩ | ⟨-, rfl, rfl, -⟩ | ⟨ho, rfl, rfl, -⟩
    · by_cases hic : i = c.newId
      · exact .inl (hic ▸ rfl)
      · exact absurd ((hx hmode).1 i hic) hmi
    · rcases hv.holders i hmi with h | h | ⟨c', hc', rfl⟩
      · exact .inl h
      · exact .inr (.inl (Finset.mem_insert_of_mem h))
      · cases hcvt.symm.trans hc'
        exact .inr (.inl (hi ▸ Finset.mem_insert_self _ _))
    · rcases hv.holders i hmi with h | h | ⟨c', hc', rfl⟩
      · exact .inl h
      · exact .inr (.inl h)
      · cases hcvt.symm.trans hc'
        exact .inl (hi ▸ ho)
  · intro i hmi
    left
    rcases hcase with ⟨-, rfl, -⟩ | ⟨hmode, rfl, -⟩ | ⟨ho, rfl, -⟩
    · by_contra hne
      exact hs i (fun h => hne (h ▸ rfl)) hmi
    · rcases hv.xholders i hmi with h | ⟨c', hc', -, hx'⟩
      · exact h
      · cases hcvt.symm.trans hc'
        rw [hmd, hmode] at hx'
        cases hx'
    · rcases hv.xholders i hmi with h | ⟨c', hc', hci, -⟩
      · exact h
      · cases hcvt.symm.trans hc'
        rw [← hci, hi]
        exact ho
  · intro i ho he
    rcases hcase with ⟨hmode, rfl, -⟩ | ⟨-, rfl, -⟩ | ⟨-, rfl, -⟩
    · cases ho
      exact (hx hmode).2 he
    · exact hv.edp_owner i ho he
    · exact hv.edp_owner i ho he
  · exact fun rt hrt => absurd hrt (hv.not_recycling (.inr ⟨cvt, hcvt⟩) rt)
  · intro hst
    obtain ⟨hle, -⟩ := hv.strictMode hst
    refine ⟨fun i ho => .inl ?_, fun i a n y hm hw => absurd hw (hload i a n y hm)⟩
    -- a conversion for the owner is one to the claimed mode
    have hown : v.owner = some i → v.mode i ≤ v.dirMode ∨ v.mode i ≤ c.mode := by
      intro ho
      refine (hle i ho).imp_right ?_
      rintro ⟨c', hc', -, hm⟩
      cases hcvt.symm.trans hc'
      exact hmd ▸ hm
    rcases hcase with ⟨hmode, rfl, rfl⟩ | ⟨hmode, rfl, -, rfl, hdm⟩ | ⟨-, rfl, -, rfl, hle'⟩
    · cases hcm : c.mode
      · exact absurd hcm hnull
      · exact absurd hcm hmode
      · exact le_exclusive _
    · by_cases hic : i = c.newId
      · rcases hown ho with h | h
        · rw [eq_null_of_not_share_le (hdm (hic ▸ ho)), le_null] at h
          exact h ▸ null_le _
        · exact hmode ▸ h
      · exact le_share_iff.mpr (hs i hic)
    · rcases hown ho with h | h
      · exact h
      · exact le_trans h hle'

lemma Inv.setTasks {ts} (hok : ∀ t ∈ ts, v.TaskOk t)
    (hkey : ∀ t ∈ ts, (∃ t0 ∈ v.tasks, t0.req = t.req) ∨ v.conv = some t.req) :
    { v with tasks := ts }.Inv strict :=
  { hv with
    fresh := fun r hr => by
      obtain ⟨h0, h1, h2, h3, h4, h5⟩ := hv.fresh r hr
      refine ⟨h0, h1, h2, h3, fun t ht => ?_, h5⟩
      rcases hkey t ht with ⟨t0, ht0, heq⟩ | hc
      · exact heq ▸ h4 t0 ht0
      · exact h3 _ hc
    task := hok }

/-- The read-only copies are forgotten once nobody but the owner and the
converting instance holds the page. -/
lemma Inv.clearReadonly
    (hh : ∀ j, v.mode j ≠ .null → v.owner = some j ∨ ∃ c, v.conv = some c ∧ c.instId = j) :
    { v with readonly := ∅ }.Inv strict :=
  { hv with
    holders := fun i hi => (hh i hi).imp_right .inr }

lemma Inv.setRecycling {o} (hconv : v.conv = none)
    (ho : ∀ rt, o = some rt → { v with busy := b }.RecycleOk rt) :
    { v with busy := b, recycling := o }.Inv strict :=
  { hv with
    busy_conv := fun _ => hconv
    recycle := ho }

/-- The entry goes away when nobody holds the page or is about to. -/
lemma Inv.removeEntry (hnull : ∀ j, v.mode j = .null) (hconv : v.conv = none)
    (hload : ∀ i a n y, .ackNeedLoad i a n y ∈ v.net → ¬ v.Waits i n) : { v with
      owner := none, conv := none, readonly := ∅, queue := [], busy := false, dirMode := .null
      recycling := none }.Inv strict := by
  have hcur : ∀ i n md, v.Current i n md → ¬ v.Waits i n := by
    rintro i n md ⟨c, hc, -⟩
    cases hconv.symm.trans hc
  refine { hv with
    conv_ok := by rintro c ⟨⟩
    fresh := ?_
    ask_queue := fun _ _ _ r' hr' => nomatch hr'
    queue_distinct := .nil
    needLoad := fun i a n y hm hw => absurd hw (hload i a n y hm)
    already := fun i a n md b hm hw => absurd hw (hv.not_waits_already hcur hm)
    ready := fun m hm hw => absurd hw (hv.not_waits_ready hcur hm)
    ask := fun o r b hm hw => absurd hw (hv.not_waits_ask hcur hm)
    claim := by rintro c b hm ⟨_, ⟨⟩, -⟩
    task := fun t ht => ⟨(hv.task t ht).1, by rintro ⟨⟩, by rintro ⟨⟩⟩
    holders := fun i hi => absurd (hnull i) hi
    xholders := fun i hi => by cases (hnull i).symm.trans hi
    edp_owner := by rintro i ⟨⟩
    busy_conv := fun _ => rfl
    recycle := by rintro rt ⟨⟩
    strictMode := fun _ => ⟨by rintro i ⟨⟩, fun i a n y hm hw => absurd hw (hload i a n y hm)⟩ }
  rintro r (hr | hr)
  · obtain ⟨h0, h1, h2, -, h4, h5⟩ := hv.fresh r (.inl hr)
    exact ⟨h0, h1, h2, by rintro c ⟨⟩, h4, h5⟩
  · cases hr

end

/-! ## Messages -/

/-- What a message must satisfy to be sent. -/
def SendOk (strict : Prop) (v : View) (m : Msg) : Prop :=
  (∀ k, m.key = some k → k.2 < v.now) ∧
  match m with
  | .askMaster _ _ => False
  | .ackNeedLoad i _ n _ => v.Waits i n →
      v.NeedLoadOk i ∧ v.recycling = none ∧ (strict → v.dirMode = .exclusive)
  | .ackAlreadyOwner i _ n md _ => v.Waits i n → v.ConvOk i n md ∧ v.owner = some i
  | .pageReady m => v.Waits m.dst m.rsn → v.ConvOk m.dst m.rsn m.mode ∧ v.owner ≠ some m.dst ∧
      ∀ i a n y, .ackNeedLoad i a n y ∈ v.net → ¬ v.Waits i n
  | .askOwner o r _ => v.Waits r.instId r.rsn → v.AskOwnerOk o r
  | .claim c _ => ¬ v.Waits c.newId c.rsn ∧ c.mode ≠ .null ∧ v.ClaimOk c ∧
      (∃ cvt, v.conv = some cvt ∧ cvt.key = c.key) ∧
      ∀ i a n y, .ackNeedLoad i a n y ∈ v.net → ¬ v.Waits i n
  | _ => True

/-- A message is sent, and instances may begin to wait for the answers to
requests with new numbers. -/
lemma Inv.extend (hv : v.Inv strict) {m pend now} (hnow : v.now ≤ now)
    (hpend : ∀ i p, pend i = some p → v.pend i = some p ∨
      v.now ≤ p.req.rsn ∧ p.req.rsn < now ∧ p.req.instId = i ∧ p.req.reqMode ≠ .null)
    (hok : (∀ r b, m ≠ .askMaster r b) → SendOk strict v m)
    (hask : ∀ r b, m = .askMaster r b → v.now ≤ r.rsn ∧ r.rsn < now ∧ r.reqMode ≠ .null ∧
      ∃ p, pend r.instId = some p ∧ p.req = r) :
    { v with pend := pend, net := v.net ++ [m], now := now }.Inv strict := by
  set w : View := { v with pend := pend, net := v.net ++ [m], now := now } with hw
  -- a message in flight is an old one or the one sent
  have hmem : ∀ {m'}, m' ∈ w.net → m' ∈ v.net ∨ m' = m := by simp [hw]
  -- the new requests have numbers that nothing else carries
  have hne : ∀ {k : InstId × Nat} {r : DrcReqInfo}, k.2 < v.now → v.now ≤ r.rsn → k ≠ r.key := by
    rintro k r hk hge rfl
    exact absurd hk (not_lt.mpr hge)
  have hsent : ∀ {m' k}, m' ∈ w.net → (∀ r b, m' ≠ .askMaster r b) → m'.key = some k →
      w.Waits k.1 k.2 → (m' ∈ v.net ∨ m' = m) ∧ v.Waits k.1 k.2 := by
    rintro m' k h hne hk ⟨p, hp, hn⟩
    have hlt : k.2 < v.now := by
      rcases hmem h with h | rfl
      · exact hv.key_lt m' h k hk
      · exact (hok hne).1 k hk
    refine ⟨hmem h, p, (hpend _ p hp).resolve_right fun hge => ?_, hn⟩
    omega
  have hfresh : ∀ {r}, v.FreshOk r → w.FreshOk r := by
    intro r ⟨h0, h1, h2, h3, h4, h5⟩
    refine ⟨h0.trans_le hnow, h1, fun p hp => ?_, h3, h4, fun c b hc => ?_⟩
    · rcases hpend _ p hp with hp | ⟨hge, -⟩
      · exact h2 p hp
      · exact h0.le.trans hge
    · rcases hmem hc with hc | rfl
      · exact h5 c b hc
      · obtain ⟨-, -, -, -, ⟨cvt, hcvt, hk⟩, -⟩ := hok nofun
        exact hk ▸ h3 cvt hcvt
  refine { hv with
    key_lt := ?_, pend_ok := ?_
    conv_ok := fun c hc => ⟨(hv.conv_ok c hc).1.trans_le hnow, (hv.conv_ok c hc).2⟩
    fresh := ?_, asks := ?_, ask_queue := ?_, needLoad := ?_, already := ?_, ready := ?_
    ask := ?_, claim_old := ?_, claim := ?_, task := ?_, recycle := ?_, strictMode := ?_ }
  · intro m' h k hk
    rcases hmem h with h | rfl
    · exact (hv.key_lt m' h k hk).trans_le hnow
    · by_cases hm : ∃ r b, m' = .askMaster r b
      · obtain ⟨r, b, rfl⟩ := hm
        cases hk
        exact (hask r b rfl).2.1
      · exact ((hok fun r b h => hm ⟨r, b, h⟩).1 k hk).trans_le hnow
  · intro i p hp
    rcases hpend i p hp with hp | ⟨-, hlt, hi, hmd⟩
    · obtain ⟨h1, h2, h3⟩ := hv.pend_ok i p hp
      exact ⟨h1, h2.trans_le hnow, h3⟩
    · exact ⟨hi, hlt, hmd⟩
  · rintro r (⟨b, hb⟩ | hr)
    · rcases hmem hb with hb | rfl
      · exact hfresh (hv.fresh r (.inl ⟨b, hb⟩))
      obtain ⟨hge, hlt, hmd, p, hp, rfl⟩ := hask r b rfl
      refine ⟨hlt, hmd, fun q hq => ?_, fun c hc => hne (hv.conv_ok c hc).1 hge,
        fun t ht => hne (hv.task t ht).1 hge, fun c b hc => ?_⟩
      · cases hp.symm.trans hq
        exact le_rfl
      · rcases hmem hc with hc | hc
        · exact hne (hv.key_lt _ hc _ rfl) hge
        · cases hc
    · exact hfresh (hv.fresh r (.inr hr))
  · refine pairwise_append.mpr ⟨hv.asks, pairwise_singleton _ _, ?_⟩
    rintro m' hm' _ hs r x r' y rfl rfl
    exact hne (hv.key_lt _ hm' _ rfl) (hask r' y (mem_singleton.mp hs).symm).1
  · intro r b h r' hr'
    rcases hmem h with h | rfl
    · exact hv.ask_queue r b h r' hr'
    · exact (hne (hv.fresh r' (.inr hr')).1 (hask r b rfl).1).symm
  · intro i a n y h hwt
    obtain ⟨hin | rfl, hold⟩ := hsent h nofun rfl hwt
    · obtain ⟨ho, hnull, hready, hclaim⟩ := hv.needLoad i a n y hin hold
      refine ⟨ho, hnull, fun m' hm' hw' => ?_, fun c b hc cvt hcvt => ?_⟩
      · obtain ⟨hm' | rfl, hold'⟩ := hsent hm' nofun rfl hw'
        · exact hready m' hm' hold'
        · exact ((hok nofun).2 hold').2.2 i a n y hin hold
      · rcases hmem hc with hc | rfl
        · exact hclaim c b hc cvt hcvt
        · exact absurd hold ((hok nofun).2.2.2.2.2 i a n y hin)
    · obtain ⟨⟨ho, hnull, hready, hclaim⟩, -⟩ := (hok nofun).2 hold
      refine ⟨ho, hnull, fun m' hm' hw' => ?_, fun c b hc => ?_⟩
      · obtain ⟨hm' | hm', hold⟩ := hsent hm' nofun rfl hw'
        · exact hready m' hm' hold
        · cases hm'
      · rcases hmem hc with hc | hc
        · exact hclaim c b hc
        · cases hc
  · intro i a n md b h hwt
    obtain ⟨h | rfl, hold⟩ := hsent h nofun rfl hwt
    · exact hv.already i a n md b h hold
    · exact (hok nofun).2 hold
  · intro m' h hwt
    obtain ⟨h | rfl, hold⟩ := hsent h nofun rfl hwt
    · exact hv.ready m' h hold
    · exact ⟨((hok nofun).2 hold).1, ((hok nofun).2 hold).2.1⟩
  · intro o r b h hwt
    obtain ⟨h | rfl, hold⟩ := hsent h nofun rfl hwt
    · exact hv.ask o r b h hold
    · exact (hok nofun).2 hold
  · intro c b h
    have hold : ¬v.Waits c.newId c.rsn ∧ c.mode ≠ .null := by
      rcases hmem h with h | rfl
      · exact hv.claim_old c b h
      · exact ⟨(hok nofun).2.1, (hok nofun).2.2.1⟩
    exact ⟨fun hwt => hold.1 (hsent h nofun rfl hwt).2, hold.2⟩
  · intro c b h hcur
    rcases hmem h with h | rfl
    · exact hv.claim c b h hcur
    · exact (hok nofun).2.2.2.1
  · intro t ht
    obtain ⟨h1, h2, h3⟩ := hv.task t ht
    exact ⟨h1.trans_le hnow, h2, h3⟩
  · intro rt hrt
    obtain ⟨hb, hc, hcopy, hdone⟩ := hv.recycle rt hrt
    refine ⟨hb, hc, hcopy, fun hd => ?_⟩
    obtain ⟨hf, hw, hown⟩ := hdone hd
    refine ⟨hf, hw, fun i hi => ⟨(hown i hi).1, fun a n y h hwt => ?_⟩⟩
    obtain ⟨h | rfl, hold⟩ := hsent h nofun rfl hwt
    · exact (hown i hi).2 a n y h hold
    · cases ((hok nofun).2 hold).2.1.symm.trans hrt
  · intro hst
    obtain ⟨hle, hload⟩ := hv.strictMode hst
    refine ⟨hle, fun i a n y h hwt => ?_⟩
    obtain ⟨h | rfl, hold⟩ := hsent h nofun rfl hwt
    · exact hload i a n y h hold
    · exact ((hok nofun).2 hold).2.2 hst

lemma Inv.send (hv : v.Inv strict) {m} (hm : SendOk strict v m) :
    { v with net := v.net ++ [m] }.Inv strict := by
  refine hv.extend le_rfl (fun i p => .inl) (fun _ => hm) ?_
  rintro r b rfl
  exact hm.2.elim

/-- The message that ends a conversion may be sent once the copies an
exclusive request must not leave behind are gone. -/
lemma IsReply.sendOk (hv : v.Inv strict) {m} (hm : IsReply v.owner r m) (hconv : v.conv = some r)
    (hx : r.reqMode = .exclusive → ∀ j, v.mode j ≠ .null → v.owner = some j ∨ j = r.instId) :
    SendOk strict v m := by
  have hlt := (hv.conv_ok r hconv).1
  have hcur : v.Current r.instId r.rsn r.reqMode := ⟨r, hconv, rfl, rfl, rfl⟩
  rcases hm with ⟨b, rfl, ho⟩ | ⟨i, b, rfl, ho⟩
  · refine ⟨by rintro k ⟨⟩; exact hlt,
      fun _ => ⟨⟨hcur, fun hmd j hj => ?_, fun j hj hjx => ?_⟩, ho⟩⟩
    · by_contra hne
      rcases hx hmd j hne with h | h
      · exact hj (some.inj (h.symm.trans ho))
      · exact hj h
    · rcases hv.xholders j hjx with h | ⟨c, hc, hci, -⟩
      · exact hj (some.inj (h.symm.trans ho))
      · cases hconv.symm.trans hc
        exact hj hci.symm
  · refine ⟨by rintro k ⟨⟩; exact hlt, fun _ => ⟨hcur, ho, fun hmd j hjo hjr => ?_⟩⟩
    by_contra hne
    rcases hx hmd j hne with h | h
    · exact hjo (some.inj (h.symm.trans ho))
    · exact hjr h

lemma Inv.newEntry (hv : v.Inv strict) {a n y} (ho : v.owner = none) (hc : v.conv = none)
    (hr : v.readonly = ∅) (hb : v.busy = false) (hn : n < v.now) (hmd : strict → md = .exclusive) :
    { v with owner := some i, dirMode := md, net := v.net ++ [Msg.ackNeedLoad i a n y] }.Inv
      strict := by
  have hnull : ∀ j, v.mode j = .null := by
    intro j
    by_contra hj
    have hnil := hv.holders j hj
    simp [ho, hc, hr] at hnil
  have hcur : ∀ i n md, v.Current i n md → ¬ v.Waits i n := by
    rintro i n md ⟨c, hc', -⟩
    cases hc.symm.trans hc'
  have hload : ∀ i a n y, .ackNeedLoad i a n y ∈ v.net → ¬ v.Waits i n :=
    fun i a n y hm hw => by cases ho.symm.trans (hv.needLoad i a n y hm hw).1
  have hinv : { v with owner := some i, dirMode := md }.Inv strict :=
    { hv with
      needLoad := fun i a n y hm hw => absurd hw (hload i a n y hm)
      already := fun i a n md b hm hw => absurd hw (hv.not_waits_already hcur hm)
      ready := fun m hm hw => absurd hw (hv.not_waits_ready hcur hm)
      ask := fun o r b hm hw => absurd hw (hv.not_waits_ask hcur hm)
      task := fun t ht => ⟨(hv.task t ht).1, fun h => (by cases hc.symm.trans h),
        fun h => (by cases hc.symm.trans h)⟩
      holders := fun j hj => absurd (hnull j) hj
      xholders := fun j hj => by cases (hnull j).symm.trans hj
      edp_owner := fun j _ _ => hnull j
      recycle := fun rt hrt => absurd hrt (hv.not_recycling (.inl hb) rt)
      strictMode := fun _ => ⟨fun j _ => .inl (by rw [hnull j]; exact null_le _),
        fun i a n y hm hw => absurd hw (hload i a n y hm)⟩ }
  refine hinv.send ⟨by rintro k ⟨⟩; exact hn, fun _ => ⟨⟨rfl, hnull, ?_, ?_⟩, ?_, hmd⟩⟩
  · exact fun m hm => hv.not_waits_ready hcur hm
  · exact fun c b _ cvt hcvt => by cases hc.symm.trans hcvt
  · exact eq_none_iff_forall_not_mem.mpr fun rt hrt => hv.not_recycling (.inl hb) rt hrt

/-! ## Instances -/

lemma Inv.request (hv : v.Inv strict) {p} (hi : p.req.instId = i) (hn : p.req.rsn = v.now)
    (hmd : p.req.reqMode ≠ .null) : { v with
      pend := update v.pend i (some p), net := v.net ++ [Msg.askMaster p.req b]
      now := v.now + 1 }.Inv strict := by
  refine hv.extend (Nat.le_succ _) (fun j q hq => ?_) (fun h => absurd rfl (h p.req b)) ?_
  · rcases eq_or_ne j i with rfl | hj
    · rw [update_self] at hq
      cases hq
      exact .inr ⟨hn.ge, hn ▸ Nat.lt_succ_self _, hi, hmd⟩
    · rw [update_of_ne hj] at hq
      exact .inl hq
  · rintro r b ⟨⟩
    exact ⟨hn.ge, hn ▸ Nat.lt_succ_self _, hmd, p, hi ▸ update_self _ _ _, rfl⟩

/-- Instance `i` handles the answer that gives it mode `md`: a grant of a
page nobody had, or the end of its conversion. -/
lemma Inv.grant (hv : v.Inv strict) {e}
    (hok : (v.NeedLoadOk i ∧ (∀ rt, v.recycling = some rt → rt.ownerDone = false) ∧
        (strict → v.dirMode = .exclusive)) ∨
      ∃ n mdc, v.ConvOk i n mdc ∧ v.Waits i n ∧ md ≤ mdc)
    (hload : ∀ j a n y, .ackNeedLoad j a n y ∈ v.net → v.Waits j n → j = i)
    (hx : md = .exclusive → e = false) (ho : v.owner = some i → e = true → md = .null) : { v with
      mode := update v.mode i md, edp := update v.edp i e
      pend := update v.pend i none }.Inv strict := by
  set w : View := { v with
    mode := update v.mode i md, edp := update v.edp i e
    pend := update v.pend i none } with hw
  have hmode : ∀ {j}, j ≠ i → w.mode j = v.mode j := fun hj => update_of_ne hj _ _
  have hmodei : w.mode i = md := update_self _ _ _
  have hpend : ∀ {j q}, w.pend j = some q → j ≠ i ∧ v.pend j = some q := by
    intro j q hq
    rcases eq_or_ne j i with rfl | hj
    · simp [hw] at hq
    · exact ⟨hj, by simpa [hw, hj] using hq⟩
  have hwaits : ∀ {j n}, w.Waits j n → j ≠ i ∧ v.Waits j n := by
    rintro j n ⟨q, hq, hn⟩
    exact ⟨(hpend hq).1, q, (hpend hq).2, hn⟩
  -- nobody else waits for an answer that gives a lock
  have hcur : ∀ {j n md'}, v.Current j n md' → w.Waits j n → v.NeedLoadOk i := by
    rintro j n md' ⟨c, hc, rfl, rfl, rfl⟩ hwt
    rcases hok with hok | ⟨n, mdc, ⟨⟨c', hc', hi', -⟩, -⟩, -⟩
    · exact hok.1
    · cases hc.symm.trans hc'
      exact absurd hi' (hwaits hwt).1
  have hnl : ∀ {j a n y}, .ackNeedLoad j a n y ∈ v.net → ¬ w.Waits j n :=
    fun hm hwt => (hwaits hwt).1 (hload _ _ _ _ hm (hwaits hwt).2)
  have hother : ∀ j ≠ i, v.mode j ≠ .exclusive := by
    intro j hj hjx
    rcases hok with ⟨⟨-, hnull, -⟩, -⟩ | ⟨n, mdc, ⟨-, -, hs⟩, -⟩
    · cases (hnull j).symm.trans hjx
    · exact hs j hj hjx
  have hxi : ∀ {j}, w.mode j = .exclusive → j = i ∧ md = .exclusive := by
    intro j hj
    rcases eq_or_ne j i with rfl | hji
    · exact ⟨rfl, hmodei.symm.trans hj⟩
    · exact absurd (hmode hji ▸ hj) (hother j hji)
  have hexcl : md = .exclusive → ∀ j ≠ i, v.mode j = .null := by
    rintro hmd j hj
    rcases hok with ⟨⟨-, hnull, -⟩, -⟩ | ⟨n, mdc, ⟨-, hx', -⟩, -, hle⟩
    · exact hnull j
    · exact hx' (eq_exclusive_of_le (hmd ▸ hle)) j hj
  refine { hv with
    pend_ok := fun j q hq => hv.pend_ok j q (hpend hq).2
    fresh := ?_, needLoad := fun j a n y hm hwt => absurd hwt (hnl hm)
    already := ?_, ready := ?_, ask := ?_
    claim_old := ?_, claim := ?_, task := ?_, holders := ?_, xholders := ?_, swmr := ?_
    edp_excl := ?_, edp_owner := ?_, recycle := ?_, strictMode := ?_ }
  · intro r hr
    obtain ⟨h0, h1, h2, h3, h4, h5⟩ := hv.fresh r hr
    exact ⟨h0, h1, fun q hq => h2 q (hpend hq).2, h3, h4, h5⟩
  · intro j a n md' b hm hwt
    obtain ⟨⟨hc, -⟩, hoj⟩ := hv.already j a n md' b hm (hwaits hwt).2
    obtain ⟨hoi, -⟩ := hcur hc hwt
    exact absurd (some.inj (hoj.symm.trans hoi)) (hwaits hwt).1
  · intro m hm hwt
    obtain ⟨⟨hc, -⟩, -⟩ := hv.ready m hm (hwaits hwt).2
    obtain ⟨-, -, hready, -⟩ := hcur hc hwt
    exact absurd (hwaits hwt).2 (hready m hm)
  · intro o r b hm hwt
    obtain ⟨hc, hor, -⟩ := hv.ask o r b hm (hwaits hwt).2
    obtain ⟨hoi, hnull, -⟩ := hcur hc hwt
    cases hor.symm.trans hoi
    exact ⟨hc, hor, fun _ j hj _ => (hmode hj).trans (hnull j)⟩
  · intro c b hm
    obtain ⟨h1, h2⟩ := hv.claim_old c b hm
    exact ⟨fun hwt => h1 (hwaits hwt).2, h2⟩
  · -- a claim of the converting request would mean that its answer was handled
    rintro c b hm ⟨cvt, hcvt, hci, hcn, -⟩
    exfalso
    rcases hok with ⟨⟨-, -, -, hclaim⟩, -⟩ | ⟨n, mdc, ⟨⟨c', hc', hi', hn', -⟩, -⟩, hwt, -⟩
    · exact hclaim c b hm cvt hcvt (Prod.ext hci hcn)
    · cases (show v.conv = some cvt from hcvt).symm.trans hc'
      rw [← hi', ← hn', hci, hcn] at hwt
      exact (hv.claim_old c b hm).1 hwt
  · intro t ht
    obtain ⟨h1, h2, h3⟩ := hv.task t ht
    refine ⟨h1, h2, fun hc hf j hj => ?_⟩
    rcases eq_or_ne j i with rfl | hji
    · rcases hok with ⟨⟨hoi, -⟩, -⟩ | ⟨n, mdc, ⟨⟨c', hc', hi', -⟩, -⟩, -⟩
      · exact .inl hoi
      · cases (show v.conv = some t.req from hc).symm.trans hc'
        exact .inr (.inl hi'.symm)
    · exact h3 hc hf j (hmode hji ▸ hj)
  · intro j hj
    rcases eq_or_ne j i with rfl | hji
    · rcases hok with ⟨⟨hoi, -⟩, -⟩ | ⟨n, mdc, ⟨⟨c', hc', hi', -⟩, -⟩, -⟩
      · exact .inl hoi
      · exact .inr (.inr ⟨c', hc', hi'⟩)
    · exact hv.holders j (hmode hji ▸ hj)
  · intro j hj
    obtain ⟨rfl, hmd⟩ := hxi hj
    rcases hok with ⟨⟨hoi, -⟩, -⟩ | ⟨n, mdc, ⟨⟨c', hc', hi', -, hm'⟩, -⟩, -, hle⟩
    · exact .inl hoi
    · exact .inr ⟨c', hc', hi', hm' ▸ eq_exclusive_of_le (hmd ▸ hle)⟩
  · intro j k hj hk
    obtain ⟨rfl, hmd⟩ := hxi hj
    exact (hmode hk).trans (hexcl hmd k hk)
  · intro j hj
    obtain ⟨rfl, hmd⟩ := hxi hj
    exact (update_self _ _ _).trans (hx hmd)
  · intro j hoj hej
    rcases eq_or_ne j i with rfl | hji
    · exact hmodei.trans (ho hoj ((update_self (f := v.edp) _ _).symm.trans hej))
    · refine (hmode hji).trans (hv.edp_owner j hoj ?_)
      exact (update_of_ne hji _ _).symm.trans hej
  · intro rt hrt
    rcases hok with ⟨⟨hoi, hnull, -⟩, hdone, -⟩ | ⟨n, mdc, ⟨⟨c', hc', -⟩, -⟩, -⟩
    · obtain ⟨hb, hc, -, -⟩ := hv.recycle rt hrt
      refine ⟨hb, hc, fun _ j hoj hj => ?_, fun hd => ?_⟩
      · have hji : j ≠ i := fun h => hoj (h ▸ hoi)
        exact absurd ((hmode hji).trans (hnull j)) hj
      · cases (hdone rt hrt).symm.trans hd
    · exact absurd hrt (hv.not_recycling (.inr ⟨c', hc'⟩) rt)
  · intro hst
    obtain ⟨hle, -⟩ := hv.strictMode hst
    refine ⟨fun j hoj => ?_, fun j a n y hm hwt => absurd hwt (hnl hm)⟩
    rcases eq_or_ne j i with rfl | hji
    · rcases hok with ⟨-, -, hdm⟩ | ⟨n, mdc, ⟨⟨c', hc', hi', -, hm'⟩, -⟩, -, hle'⟩
      · exact .inl ((hdm hst : v.dirMode = _) ▸ le_exclusive _)
      · exact .inr ⟨c', hc', hi', by rw [hmodei, hm']; exact hle'⟩
    · rw [hmode hji]
      exact hle j hoj

end Cantian.Dcs.View
