import Cantian.Sequence.Held

/-!
# A sequence hands out no value twice

What can go wrong is in `stepOk`: 64-bit overflow of a refill, a batch that
goes on in a second range after another node took the numbers in between, a
batch that reports the boundary although the last value of its range is one
step before it, and a batch of no values.
-/

namespace Cantian.Sequence

open Cantian.Lib Function List Option Int Sequence

/-- The pass goes on where the passes before it stopped. -/
def contiguous (q : Seq) (s : Sys) (call : Call) : Bool :=
  call.start.isNone ||
    nextval q s.lastNumber (seqOpen q s call.node) = (seqOpen q s call.node).lastval

/-- The pass takes all that is left of the range, and the boundary is the next value after it. -/
def endsBeforeBoundary (q : Seq) (s : Sys) (call : Call) : Bool :=
  let c := seqOpen q s call.node
  let batch := batchCount (rest q c) call.remain
  batch = rest q c && nextval q s.lastNumber c + batch * q.step = boundary q

def stepOk (q : Seq) (s : Sys) : Action → Bool
  | .next n => !refills q (seqOpen q s n) || refillFits q s.lastNumber
  | .multiStart _ count => count ≠ 0
  | .multiPass =>
    match s.call with
    | none => true
    | some call =>
      (!refills q (seqOpen q s call.node) || refillFits q s.lastNumber) &&
        contiguous q s call && !endsBeforeBoundary q s call
  | .crash _ => true

/-! ## Calls -/

section
variable {q : Seq} {s : Sys} {n : Nat} {d x k st m : Int}

/-- During a call of node `n` the node has the `k` values from `x` on, and the call has taken the
`m` values from `st` on. -/
def holding (q : Seq) (s : Sys) (n : Nat) (x k st m : Int) : Option Nat → Int → Prop
  | none, v => Holds q st m v
  | some i, v => if i = n then Holds q x k v else held q s (some i) v

structure Serving (q : Seq) (s : Sys) (n : Nat) (d x k st m : Int) : Prop where
  disk : Placed q d
  cache : ∀ i c, i ≠ n → s.cache i = some c → CacheOk q c
  allotted : Allotted (Issued q d) (holding q s n x k st m) s.handed
  taken : 0 ≤ m
  next : x = st + m * q.step

lemma SysOk.serving (hsize : 0 ≤ q.cacheSize) (h : SysOk q s) {c}
    (hready : Ready q s.lastNumber (Sequence.seqOpen q s n) d c) (hm : 0 ≤ m)
    (hnext : c.lastval = st + m * q.step) (hcall : ∀ v, Holds q st m v → held q s none v) :
    Serving q s n d c.lastval (rest q (Sequence.seqOpen q s n)) st m where
  disk := hready.disk
  cache i c _ := h.cache i c
  taken := hm
  next := hnext
  allotted := by
    apply h.allotted.take (some n) hready.mono
    · intro k v hk hv
      cases k with
      | none => exact hcall v hv
      | some i =>
        have hi : i ≠ n := fun heq => hk (congrArg some heq)
        simpa only [holding, if_neg hi] using hv
    · intro v hv
      simp only [holding, if_pos] at hv
      exact (hready.new v hv).imp (held_seqOpen hsize n) id

lemma Serving.advance (hq : q.Valid) (h : Serving q s n d x k st m) {i} (h0 : 0 ≤ i) (hi : i ≤ k) :
    Serving q s n d (x + i * q.step) (k - i) st (m + i) where
  disk := h.disk
  cache := h.cache
  taken := add_nonneg h.taken h0
  next := by
    rw [h.next, add_mul, add_assoc]
  allotted := by
    have hold : ∀ v j, holding q s n (x + i * q.step) (k - i) st (m + i) (some j) v →
        holding q s n x k st m (some j) v := by
      intro v j hj
      by_cases hjn : j = n
      · simp only [holding, if_pos hjn] at hj ⊢
        exact (hj.of_add h0).mono (by omega)
      · simpa only [holding, if_neg hjn] using hj
    -- what the call has now it had before, or it was the node's
    have hsplit : ∀ v, Holds q st (m + i) v → Holds q st m v ∨ Holds q x k v := by
      intro v hv
      obtain ⟨hin, j, hj0, hj, hvj⟩ := hv
      by_cases hjm : j < m
      · exact .inl ⟨hin, j, hj0, hjm, hvj⟩
      · refine .inr ⟨hin, j - m, by omega, by omega, ?_⟩
        rw [hvj, h.next, sub_mul]
        omega
    have hend : x + i * q.step = st + (m + i) * q.step := by
      rw [h.next, add_mul, add_assoc]
    have hdisj : ∀ j v, holding q s n (x + i * q.step) (k - i) st (m + i) (some j) v →
        ¬Holds q st (m + i) v := by
      intro j v hj hv
      by_cases hjn : j = n
      · simp only [holding, if_pos hjn] at hj
        exact hv.disjoint hq (hend ▸ hj)
      · rcases hsplit v hv with hv | hv
        · exact absurd (h.allotted.disjoint (some j) none v (hold v j hj) hv) nofun
        · have heq := h.allotted.disjoint (some j) (some n) v (hold v j hj)
            (by simpa only [holding, if_pos] using hv)
          exact hjn (some.inj heq)
    apply h.allotted.reassign
    · intro k' v hv
      cases k' with
      | none =>
        rcases hsplit v hv with hv | hv
        · exact ⟨none, hv⟩
        · exact ⟨some n, by simpa only [holding, if_pos] using hv⟩
      | some j => exact ⟨some j, hold v j hv⟩
    · intro k1 k2 v hv1 hv2
      cases k1 with
      | none =>
        cases k2 with
        | none => rfl
        | some j => exact absurd hv1 (hdisj j v hv2)
      | some j =>
        cases k2 with
        | none => exact absurd hv2 (hdisj j v hv1)
        | some j' => exact h.allotted.disjoint (some j) (some j') v (hold v j hv1) (hold v j' hv2)

lemma held_update {c l call i v} (hleft : ∀ v, Holds q c.lastval (remaining q c) v → Holds q x k v)
    (hv : held q
      { lastNumber := d, cache := update s.cache n (some c), call, handed := l }
      (some i) v) : holding q s n x k st m (some i) v := by
  obtain ⟨c', hc', hv'⟩ := hv
  rcases eq_or_ne i n with rfl | hi
  · simp only [update_self] at hc'
    cases hc'
    simp only [holding, if_pos]
    exact hleft v hv'
  · simp only [update_of_ne hi] at hc'
    simp only [holding, if_neg hi]
    exact ⟨c', hc', hv'⟩

lemma cache_update {c} (hothers : ∀ i c, i ≠ n → s.cache i = some c → CacheOk q c)
    (hc : CacheOk q c) (i : Nat) (c' : Cache) (hi : update s.cache n (some c) i = some c') :
    CacheOk q c' := by
  rcases eq_or_ne i n with rfl | hin
  · rw [update_self] at hi
    cases hi
    exact hc
  · rw [update_of_ne hin] at hi
    exact hothers i c' hin hi

lemma Serving.finish (h : Serving q s n d x k st m) {c} (hc : CacheOk q c)
    (hleft : ∀ v, Holds q c.lastval (remaining q c) v → Holds q x k v) {l} (hl : l.Nodup)
    (htaken : ∀ v ∈ l, Holds q st m v) :
    SysOk q { lastNumber := d, cache := update s.cache n (some c), call := none
              handed := s.handed ++ l } where
  disk := h.disk
  cache := cache_update h.cache hc
  call call hcall := by simp at hcall
  allotted := by
    apply h.allotted.use hl (k := none) htaken
    intro k' v hv
    cases k' with
    | none =>
      obtain ⟨call, st', hcall, -⟩ := hv
      simp at hcall
    | some i =>
      have hv' : holding q s n x k st m (some i) v := held_update hleft hv
      refine ⟨hv', fun hvl => ?_⟩
      exact absurd (h.allotted.disjoint (some i) none v hv' (htaken v hvl)) nofun

lemma Serving.pass (h : Serving q s n d x k st m) {c} (hc : CacheOk q c) (hx : c.lastval = x)
    (hk : remaining q c ≤ k) (hst : InRange q st) {call} (hnode : call.node = n)
    (hstart : call.start = some st) (htaken : call.taken = m)
    (hremain : 0 < call.remain ∧ call.remain ≤ call.count) :
    SysOk q { lastNumber := d, cache := update s.cache n (some c), call := some call
              handed := s.handed } where
  disk := h.disk
  cache := cache_update h.cache hc
  call call' hcall := by
    cases hcall
    refine ⟨hremain, fun hnone => by simp [hstart] at hnone, fun st' hst' => ?_⟩
    cases hstart.symm.trans hst'
    refine ⟨hst, c, ?_, ?_⟩
    · rw [hnode]
      exact update_self _ _ _
    · rw [hx, h.next, htaken]
  allotted := by
    apply h.allotted.shrink
    intro k' v hv
    cases k' with
    | none =>
      obtain ⟨call', st', hcall, hst', hv⟩ := hv
      cases hcall
      cases hstart.symm.trans hst'
      exact htaken ▸ hv
    | some => exact held_update (fun v hv => (hx ▸ hv).mono hk) hv

/-! ## The arithmetic of a call -/

lemma Ready.cacheOk (hq : q.Valid) {d d' c c' c''} (h : Ready q d c d' c') {i} (h0 : 0 ≤ i)
    (hx : c''.lastval = c'.lastval + i * q.step) (hpos : 0 ≤ c''.cachePos)
    (hleft : remaining q c'' ≤ rest q c - i) : CacheOk q c'' where
  pos := hpos
  placed := by
    rw [hx]
    exact past_or_inRange_add hq h.placed h0
  room hin hrem := by
    have hin' : InRange q c'.lastval := by
      rcases h.placed with hp | hp
      · exact hp
      · rw [hx] at hin
        exact absurd (hin.ahead hp) (not_ahead_add h0)
    obtain ⟨hcount, hend⟩ := h.room hin'
    refine ⟨hcount, ?_⟩
    have hfit : fits (c'.lastval + (i + remaining q c'') * q.step) = true :=
      fits_add (hin'.fits hq) hend (by omega) (by omega)
    rw [hx, add_assoc, ← add_mul]
    exact hfit

lemma CacheOk.past {c} (hpos : 0 ≤ c.cachePos) (h : Past q c.lastval) : CacheOk q c where
  pos := hpos
  placed := .inr h
  room hin _ := absurd h hin.not_past

/-- `v` does not come after `e`. -/
def UpTo (q : Seq) (v e : Int) : Prop := ¬Ahead q e v

lemma mem_valuesUpTo (hq : q.Valid) {e v} (hv : v ∈ valuesUpTo q st e) :
    UpTo q v e ∧ ∃ j, 0 ≤ j ∧ v = st + j * q.step := by
  unfold valuesUpTo at hv
  split_ifs at hv with hdir
  · obtain ⟨j, hj, rfl⟩ := mem_map.mp hv
    rw [mem_range] at hj
    have hst : ¬Ahead q e st := by
      rintro (⟨hs, h⟩ | ⟨hs, h⟩) <;> nlinarith
    exact ⟨(not_ahead_iff hq hst j).mpr (by omega), j, natCast_nonneg j, rfl⟩
  · simp at hv

lemma nodup_valuesUpTo (hq : q.Valid) (st e : Int) : (valuesUpTo q st e).Nodup := by
  unfold valuesUpTo
  split
  · apply List.Nodup.map _ nodup_range
    intro i j hij
    have := add_injective hq st hij
    omega
  · exact nodup_nil

lemma inRange_upTo (hq : q.Valid) (hst : InRange q st) {e j} (he : InRange q e) (hj : 0 ≤ j)
    (h : UpTo q (st + j * q.step) e) : InRange q (st + j * q.step) := by
  unfold UpTo Ahead at h
  unfold InRange at *
  rcases lt_or_gt_of_ne hq.step with hs | hs
  · have := mul_nonpos_of_nonneg_of_nonpos hj (le_of_lt hs)
    omega
  · have := mul_nonneg hj (le_of_lt hs)
    omega

lemma reachSequenceBoundary_false (hq : q.Valid) {c : Cache} {b : Nat} (hb : 0 < b)
    (hin : InRange q c.lastval) (hfit : fits (c.lastval + b * q.step) = true) {c' : Cache} {e : Int}
    (h : reachSequenceBoundary q c b = (c', e, false)) :
    c' = { c with lastval := c.lastval + b * q.step } ∧ InRange q (c.lastval + b * q.step) ∧
      e = c.lastval + (b - 1) * q.step := by
  unfold reachSequenceBoundary at h
  simp only [wrap_of_fits hfit] at h
  split_ifs at h with hcond
  · simp only [Bool.or_eq_true, Bool.and_eq_true, decide_eq_true_eq] at hcond
    have hprev : fits (c.lastval + (b - 1) * q.step) = true :=
      fits_add (hin.fits hq) hfit (by omega) (by omega)
    have hsub : c.lastval + b * q.step - q.step = c.lastval + (b - 1) * q.step := by
      rw [sub_mul]
      omega
    rw [hsub, wrap_of_fits hprev] at h
    simp only [Prod.mk.injEq, and_true] at h
    refine ⟨h.1.symm, ?_, h.2.symm⟩
    rcases past_or_inRange_add hq (.inl hin) (natCast_nonneg b) with hp | hp
    · exact hp
    · unfold Past at hp
      omega
  · simp at h

/-- A batch that reaches the boundary: all the `k` values of the range go past it. -/
lemma reachSequenceBoundary_true (hq : q.Valid) {c : Cache} {b : Nat} {k : Int} (hbk : b ≤ k)
    (hk : k ≤ cacheCount q) (hk0 : 0 < k) (hin : InRange q c.lastval)
    (hcount : fits (cacheCount q * q.step) = true) (hfit : fits (c.lastval + k * q.step) = true)
    (hlast : ¬(b = k ∧ c.lastval + b * q.step = boundary q)) {c' : Cache} {e : Int}
    (h : reachSequenceBoundary q c b = (c', e, true)) :
    Past q c'.lastval ∧ c'.cachePos = c.cachePos ∧ e = boundary q ∧
      Past q (c.lastval + k * q.step) := by
  have hfitb : fits (c.lastval + b * q.step) = true :=
    fits_add (hin.fits hq) hfit (natCast_nonneg b) hbk
  have hfitk : fits (0 + k * q.step) = true :=
    fits_add (by decide) (by rwa [zero_add]) (le_of_lt hk0) hk
  unfold reachSequenceBoundary at h
  simp only [wrap_of_fits hfitb] at h
  split_ifs at h with hcond
  · simp at h
  simp only [Bool.or_eq_true, Bool.and_eq_true, decide_eq_true_eq, not_or, not_and] at hcond
  simp only [Prod.mk.injEq, and_true] at h
  obtain ⟨rfl, rfl⟩ := h
  -- the batch ends at the boundary or past it, and in the first case more values follow
  have hpast : Past q (c.lastval + k * q.step) := by
    have hmore : b < k ∨ b = k := by omega
    unfold boundary at hlast
    rcases lt_or_gt_of_ne hq.step with hs | hs
    · rw [if_neg (by omega)] at hlast
      refine .inr ⟨hs, ?_⟩
      rcases hmore with hmore | hmore
      · have := mul_step_gt hmore hs
        omega
      · rw [← hmore]
        omega
    · rw [if_pos hs] at hlast
      refine .inl ⟨hs, ?_⟩
      rcases hmore with hmore | hmore
      · have := mul_step_lt hmore hs
        omega
      · rw [← hmore]
        omega
  have hdist : fits (boundary q - c.lastval) = true := by
    apply fits_between (show fits 0 = true by decide) hfitk
    unfold boundary InRange Past at *
    split <;> omega
  exact ⟨past_pastBoundary hq hk0 hpast hfit hdist, rfl, rfl, hpast⟩

/-! ## Every step keeps the invariant -/

lemma inRange_boundary (hin : InRange q x) : InRange q (boundary q) := by
  unfold boundary InRange at *
  split <;> omega

/-- The state of a call after `seq_generate_cache`. -/
lemma SysOk.ready (hq : q.Valid) (hsize : 0 ≤ q.cacheSize) (h : SysOk q s)
    (hfit : (!refills q (Sequence.seqOpen q s n) || refillFits q s.lastNumber) = true) :
    Ready q s.lastNumber (Sequence.seqOpen q s n)
      (seqGenerateCache false q s.lastNumber (Sequence.seqOpen q s n)).1
      (seqGenerateCache false q s.lastNumber (Sequence.seqOpen q s n)).2 :=
  seqGenerateCache_ready hq hsize h.disk (h.seqOpen hsize n) hfit

lemma SysOk.nextSeqValue (hq : q.Valid) (hsize : 0 ≤ q.cacheSize) (h : SysOk q s)
    (hcall : s.call = none)
    (hfit : (!refills q (Sequence.seqOpen q s n) || refillFits q s.lastNumber) = true) :
    SysOk q (Sequence.nextSeqValue q s n) := by
  have hready := h.ready hq hsize hfit
  unfold Sequence.nextSeqValue
  obtain ⟨d, hd⟩ : ∃ d, seqGenerateCache false q s.lastNumber (Sequence.seqOpen q s n) = d :=
    ⟨_, rfl⟩
  rw [hd] at hready
  simp only [hd, hcall]
  have hrest := hready.rest_pos
  have hleft := hready.left
  have hserving : Serving q s n d.1 d.2.lastval (rest q (Sequence.seqOpen q s n)) d.2.lastval 0 :=
    h.serving hsize hready (le_refl 0) (by omega)
      fun v hv => absurd hv (Holds.not_nonpos (le_refl 0))
  -- a failed call only moves the position
  have hfail : SysOk q { lastNumber := d.1, cache := update s.cache n (some d.2)
                         call := none, handed := s.handed } := by
    have hc : CacheOk q d.2 := hready.cacheOk hq (le_refl 0) (by omega) hready.pos (by omega)
    have := hserving.finish hc (fun v hv => hv.mono (by omega)) nodup_nil (by simp)
    rwa [append_nil] at this
  unfold seqGetNextValue
  split
  · exact hfail
  rename_i hrange
  have hin : InRange q d.2.lastval := outOfRange_eq_false.mp (by simpa using hrange)
  simp only [cycled_of_inRange hin]
  split
  · exact hfail
  have hroom := (hready.room hin).2
  have hfit1 : fits (d.2.lastval + 1 * q.step) = true :=
    fits_add (hin.fits hq) hroom (by omega) (by omega)
  rw [one_mul] at hfit1
  simp only [wrap_of_fits hfit1, if_true]
  have hadv := hserving.advance hq (show 0 ≤ 1 by omega) (by omega)
  apply hadv.finish
  · exact hready.cacheOk hq (show 0 ≤ 1 by omega) (by rw [one_mul]) hready.pos
      (by
        show remaining q d.2 ≤ _
        omega)
  · intro v hv
    rw [one_mul]
    exact hv.mono (by
      show remaining q d.2 ≤ _
      omega)
  · exact nodup_singleton _
  · intro v hv
    rw [mem_singleton] at hv
    rw [hv]
    exact ⟨hin, 0, le_refl 0, by omega, by omega⟩

lemma Serving.done (hq : q.Valid) (h : Serving q s n d x k st m) (hst : InRange q st) {c}
    (hc : CacheOk q c) (hleft : ∀ v, Holds q c.lastval (remaining q c) v → Holds q x k v) {e}
    (he : InRange q e)
    (hend : ∀ j, m ≤ j → InRange q (st + j * q.step) → ¬UpTo q (st + j * q.step) e) :
    SysOk q { lastNumber := d, cache := update s.cache n (some c), call := none
              handed := s.handed ++ valuesUpTo q st e } := by
  apply h.finish hc hleft (nodup_valuesUpTo hq st e)
  intro v hv
  obtain ⟨hup, j, hj, rfl⟩ := mem_valuesUpTo hq hv
  have hin := inRange_upTo hq hst he hj hup
  refine ⟨hin, j, hj, ?_, rfl⟩
  by_contra hjm
  exact hend j (by omega) hin hup

/-- A pass goes on with what the passes before it took. -/
lemma SysOk.servingPass (hsize : 0 ≤ q.cacheSize) (h : SysOk q s) {call}
    (hcall : s.call = some call) (hcontig : contiguous q s call = true) {c}
    (hready : Ready q s.lastNumber (Sequence.seqOpen q s call.node) d c) :
    Serving q s call.node d c.lastval (rest q (Sequence.seqOpen q s call.node))
        (call.start.getD c.lastval) call.taken ∧
      (InRange q c.lastval → InRange q (call.start.getD c.lastval)) := by
  have hok := h.call call hcall
  have hremain := hok.remain
  have htaken : 0 ≤ call.taken := by
    unfold Call.taken
    omega
  cases hs : call.start with
  | none =>
    have hzero : call.taken = 0 := by
      have := hok.first hs
      unfold Call.taken
      omega
    refine ⟨h.serving hsize hready htaken ?_ ?_, id⟩
    · rw [hzero, zero_mul, add_zero]
      rfl
    · intro v hv
      exact absurd hv (Holds.not_nonpos (by omega))
  | some st =>
    obtain ⟨hst, c0, hc0, hlast⟩ := hok.later st hs
    have hopen : Sequence.seqOpen q s call.node = c0 := by
      simp [Sequence.seqOpen, hc0]
    have hnext : c.lastval = st + call.taken * q.step := by
      rw [hready.lastval, ← hlast, ← hopen]
      simpa [contiguous, hs] using hcontig
    refine ⟨h.serving hsize hready htaken hnext ?_, fun _ => hst⟩
    intro v hv
    exact ⟨call, st, hcall, hs, hv⟩

/-- A batch that reached the boundary has all the values of the range. -/
lemma Serving.reached (hq : q.Valid) (h : Serving q s n d x k st m) (hk : 0 ≤ k) (hin : InRange q x)
    (hst : InRange q st) (hend : Past q (x + k * q.step)) {c} (hpos : 0 ≤ c.cachePos)
    (hpast : Past q c.lastval) :
    SysOk q { lastNumber := d, cache := update s.cache n (some c), call := none
              handed := s.handed ++ valuesUpTo q st (boundary q) } := by
  have hall := h.advance hq hk (le_refl k)
  apply hall.done hq hst (CacheOk.past hpos hpast)
  · exact fun v hv => absurd hv (Past.not_holds hpast)
  · exact inRange_boundary hin
  · intro j hj hin' _
    have hsplit : st + j * q.step = x + k * q.step + (j - (m + k)) * q.step := by
      rw [hall.next, sub_mul]
      omega
    rw [hsplit] at hin'
    exact not_ahead_add (by omega) (hin'.ahead hend)

/-- A batch that did not reach the boundary has the values before where the node goes on. -/
lemma Serving.notReached (hq : q.Valid) (h : Serving q s n d x k st m) (hm : 0 < m)
    (hin : InRange q x) (hst : InRange q st) {c} (hc : CacheOk q c) (hx : c.lastval = x)
    (hk : remaining q c ≤ k) :
    SysOk q { lastNumber := d, cache := update s.cache n (some c), call := none
              handed := s.handed ++ valuesUpTo q st (st + (m - 1) * q.step) } := by
  apply h.done hq hst hc (fun v hv => (hx ▸ hv).mono hk)
  · rw [h.next] at hin
    refine inRange_upTo hq hst hin (by omega) ?_
    exact (ahead_add hq st (show m - 1 < m by omega)).asymm
  · intro j hj _ hup
    exact hup (ahead_add hq st (by omega))

lemma SysOk.multiPass (hq : q.Valid) (hsize : 0 ≤ q.cacheSize) (h : SysOk q s) {call : Call}
    (hcall : s.call = some call)
    (hfit : (!refills q (Sequence.seqOpen q s call.node) || refillFits q s.lastNumber) = true)
    (hcontig : contiguous q s call = true) (hends : endsBeforeBoundary q s call = false) :
    SysOk q (Sequence.multiPass q s call) := by
  have hready := h.ready hq hsize hfit
  have hremain := (h.call call hcall).remain
  obtain ⟨r, hr⟩ : ∃ r, rest q (Sequence.seqOpen q s call.node) = r := ⟨_, rfl⟩
  unfold Sequence.multiPass
  obtain ⟨g, hg⟩ : ∃ g,
      seqGenerateCache false q s.lastNumber (Sequence.seqOpen q s call.node) = g := ⟨_, rfl⟩
  rw [hg] at hready
  obtain ⟨hserving, hstart⟩ := h.servingPass hsize hcall hcontig hready
  simp only [endsBeforeBoundary, ← hready.lastval, hr] at hends
  have hrest := hready.rest_pos
  have hle := hready.rest_le
  have hleft := hready.left
  have hpos := hready.pos
  have hrem : remaining q g.2 = q.cacheSize - 1 - g.2.cachePos := rfl
  rw [hr] at hserving hrest hle hleft
  simp only [hg, hready.batch, hr]
  obtain ⟨b, hb⟩ : ∃ b, batchCount r call.remain = b := ⟨_, rfl⟩
  obtain ⟨hb0, hbn, hbr⟩ : 0 < b ∧ b ≤ call.remain ∧ (b : Int) ≤ r := by
    have := hremain.1
    rw [← hb, batchCount]
    split <;> split <;> omega
  rw [hb] at hends ⊢
  split
  · -- an error: the values of the passes before it are lost
    have hc : CacheOk q g.2 := hready.cacheOk hq (le_refl 0) (by omega) hpos (by omega)
    have := hserving.finish hc (fun v hv => hv.mono (by omega)) nodup_nil (by simp)
    rwa [append_nil] at this
  rename_i hrange
  have hin : InRange q g.2.lastval := outOfRange_eq_false.mp (by simpa using hrange)
  have hst := hstart hin
  obtain ⟨hcount, hroom⟩ := hready.room hin
  rw [hr] at hroom
  have hroomb : fits (g.2.lastval + b * q.step) = true :=
    fits_add (hin.fits hq) hroom (by omega) hbr
  split
  · rename_i c' e hreach
    have hlast : ¬((b : Int) = r ∧ g.2.lastval + b * q.step = boundary q) := by
      simpa using hends
    obtain ⟨hpast, hposeq, rfl, hpastk⟩ :=
      reachSequenceBoundary_true hq hbr hle hrest hin hcount hroom hlast hreach
    exact hserving.reached hq (le_of_lt hrest) hin hst hpastk (hposeq ▸ hpos) hpast
  · rename_i c' e hreach
    obtain ⟨rfl, hval, rfl⟩ := reachSequenceBoundary_false hq hb0 hin hroomb hreach
    have hadv := hserving.advance hq (natCast_nonneg b) hbr
    have hkept : q.cacheSize - 1 - (g.2.cachePos + b - 1) ≤ r - b := by omega
    have hcache : ∀ rsv, CacheOk q ⟨g.2.lastval + b * q.step, rsv, g.2.cachePos + b - 1⟩ := by
      intro rsv
      apply hready.cacheOk hq (natCast_nonneg b) rfl
      · show 0 ≤ g.2.cachePos + b - 1
        omega
      · rw [hr]
        exact hkept
    split_ifs with hmore
    · have hend : g.2.lastval + (b - 1) * q.step =
          call.start.getD g.2.lastval + (call.taken + b - 1) * q.step := by
        have := hserving.next
        rw [sub_mul, sub_mul, add_mul]
        omega
      have htaken := hserving.taken
      have hdone := hadv.notReached hq (by omega) hval hst (hcache (g.2.lastval + b * q.step))
        rfl hkept
      rw [← hend] at hdone
      exact hdone
    · refine hadv.pass (hcache _) rfl hkept hst ?_ ?_ ?_ ?_
      · rfl
      · rfl
      · show (call.count : Int) - (call.remain - b : Nat) = _
        unfold Call.taken
        omega
      · show 0 < call.remain - b ∧ call.remain - b ≤ call.count
        omega

lemma SysOk.multiStart (h : SysOk q s) {count} (hcount : count ≠ 0) :
    SysOk q (Sequence.multiStart q s n count) := by
  unfold Sequence.multiStart
  rw [if_neg hcount]
  refine ⟨h.disk, h.cache, fun call hcall => ?_, h.allotted.shrink fun k v hv => ?_⟩
  · cases hcall
    exact ⟨⟨pos_of_ne_zero hcount, le_refl count⟩, fun _ => rfl, fun st hst => by simp at hst⟩
  · cases k with
    | none =>
      obtain ⟨call, st, hcall, hst, -⟩ := hv
      cases hcall
      simp at hst
    | some => exact hv

lemma SysOk.crash (h : SysOk q s) (hcall : s.call = none) :
    SysOk q { s with cache := update s.cache n none } := by
  -- what is cached somewhere afterwards was cached there before
  have hsub : ∀ i c, update s.cache n none i = some c → s.cache i = some c := by
    intro i c hc
    rcases eq_or_ne i n with rfl | hi
    · simp at hc
    · rwa [update_of_ne hi] at hc
  refine ⟨h.disk, fun i c hc => h.cache i c (hsub i c hc), fun call hcall' => ?_,
    h.allotted.shrink fun k v hv => ?_⟩
  · exact absurd (hcall.symm.trans hcall') nofun
  · cases k with
    | none => exact hv
    | some i =>
      obtain ⟨c, hc, hv⟩ := hv
      exact ⟨c, hsub i c hc, hv⟩

lemma SysOk.step (hq : q.Valid) (hsize : 0 ≤ q.cacheSize) (h : SysOk q s) {a t}
    (hok : stepOk q s a = true) (hstep : seqStep q s a = some t) : SysOk q t := by
  cases a with
  | next n =>
    simp only [seqStep] at hstep
    split at hstep <;> cases hstep
    exact h.nextSeqValue hq hsize ‹_› hok
  | multiStart =>
    simp only [seqStep] at hstep
    obtain ⟨-, ⟨⟩⟩ := ite_none_right_eq_some.mp hstep
    exact h.multiStart (by simpa [stepOk] using hok)
  | multiPass =>
    obtain ⟨call, hcall, rfl⟩ := map_eq_some_iff.mp hstep
    simp only [stepOk, hcall, Bool.and_eq_true, Bool.not_eq_true'] at hok
    exact h.multiPass hq hsize hcall hok.1.1 hok.1.2 hok.2
  | crash n =>
    simp only [seqStep] at hstep
    split at hstep <;> cases hstep
    exact h.crash ‹_›

end

/-- Whatever the nodes call, no value is handed out twice or outside the bounds, as long as no
refill overflows, no batch goes on in a range that does not follow on, and no batch uses up a
range one step before the boundary. -/
theorem sequence_values_unique (q : Seq) (hq : q.Valid) (hsize : 0 ≤ q.cacheSize) {s : Sys}
    (hs : ReachableBy (seqStep q) (Sys.Fresh q) (fun s a => stepOk q s a = true) s) :
    (∀ v ∈ s.handed, q.minval ≤ v ∧ v ≤ q.maxval) ∧ s.handed.Nodup := by
  have hok : SysOk q s :=
    hs.invariant (fun _ hf => SysOk.fresh hf) fun _ _ _ hok hs hstep => hs.step hq hsize hok hstep
  exact ⟨fun v hv => (hok.allotted.used_issued v hv).1, hok.allotted.nodup⟩

/-- The values from 1 to 11, five to a node. -/
def upToEleven : Seq where
  minval := 1
  maxval := 11
  step := 1
  cacheSize := 5

def freshEleven : Sys where
  lastNumber := 1
  cache _ := none
  call := none
  handed := []

lemma freshEleven_fresh : freshEleven.Fresh upToEleven :=
  ⟨⟨by decide, by decide⟩, fun _ => rfl, rfl, rfl⟩

lemma upToEleven_valid : upToEleven.Valid := ⟨by decide, by decide, by decide⟩

/-- A batch over two ranges and the rest of the values, one of which a crash loses. -/
def twoNodes : List Action :=
  [.multiStart 0 7, .multiPass, .multiPass, .next 1, .next 0, .crash 0, .next 0]

theorem sequence_values_two_nodes : ∃ s, ReachableBy (seqStep upToEleven) (Sys.Fresh upToEleven)
        (fun s a => stepOk upToEleven s a = true) s ∧
      s.handed = [1, 2, 3, 4, 5, 6, 7, 11, 8] ∧
      (∀ v ∈ s.handed, 1 ≤ v ∧ v ≤ 11) ∧ s.handed.Nodup := by
  obtain ⟨s, hrun, hs⟩ := exists_of_runOk_map (seqStep upToEleven) (stepOk upToEleven) freshEleven
    twoNodes (fun s => s.handed) [1, 2, 3, 4, 5, 6, 7, 11, 8] (by decide +kernel)
  have hreach := ReachableBy.of_runOk _ (.init freshEleven_fresh) hrun
  obtain ⟨hrange, hnodup⟩ :=
    sequence_values_unique upToEleven upToEleven_valid (by decide) hreach
  exact ⟨s, hreach, hs, hrange, hnodup⟩

/-- The second batch takes 6 to 10, reports 6 to 11, and 11 is still on the disk. -/
def fullRanges : List Action :=
  [.multiStart 0 5, .multiPass, .multiStart 0 5, .multiPass, .next 1]

theorem batch_reports_next_value : ∃ s, Reachable (seqStep upToEleven) (Sys.Fresh upToEleven) s ∧
      s.handed = [1, 2, 3, 4, 5, 6, 7, 8, 9, 10, 11, 11] ∧ ¬s.handed.Nodup := by
  obtain ⟨s, hrun, hs⟩ := exists_of_run_map (seqStep upToEleven) freshEleven fullRanges
    (fun s => s.handed) [1, 2, 3, 4, 5, 6, 7, 8, 9, 10, 11, 11] (by decide +kernel)
  refine ⟨s, .of_run _ (.init freshEleven_fresh) hrun, hs, ?_⟩
  rw [hs]
  decide

end Cantian.Sequence
