import Cantian.Drc.EntryInv
import Cantian.Drc.Rebuild

/-!
# Earlier dirty pages in the directory

`edp_map` has a bit for every instance that keeps an earlier dirty page, and
`latest_edp` is the one with the newest of them. The two fields are set in
different places: by claims, by the cleaning after a dead instance, and when
the entry is rebuilt from the reports of the instances.

The owner has a bit in the map when `drc_clean_buf_res` has chosen it: the
instance with the latest earlier dirty page becomes the owner with that page,
and its bit is not cleared. `chosen` remembers that the owner was chosen in
this way.
-/

namespace Cantian.Drc

open Lib Dcs Option

inductive EdpCall where
  | call (a : Call)
  /-- `drc_rcy_page_info`. -/
  | rcy (r : PageInfo)

structure EdpSys where
  sys : Sys
  /-- The owner was chosen by `drc_clean_buf_res`. No call reads it. -/
  chosen : Bool

def Sys.owner (s : Sys) : Option InstId := s.entry.bind BufResOf.claimedOwner

/-- The request finds an owner by `drc_clean_buf_res`. -/
def choosesOwner (s : Sys) : Call → Bool
  | .request _ _ env =>
    !env.stopped && s.entry.any fun e =>
      e.pending != .pending && e.claimedOwner.isNone && env.recovered &&
        (drcCleanBufRes e).any fun e' => e'.claimedOwner.isSome
  | _ => false

def edpStep (cfg : Config) (s : EdpSys) : EdpCall → Option EdpSys
  | .call a =>
    (step cfg s.sys a).map fun t =>
      ⟨t, choosesOwner s.sys a || s.chosen && t.owner == s.sys.owner⟩
  | .rcy r =>
    let t := { s.sys with entry := some (drcRcyPageInfo s.sys.entry r) }
    some ⟨t, s.chosen && t.owner == s.sys.owner⟩

structure EdpSys.Fresh (cfg : Config) (s : EdpSys) : Prop where
  sys : s.sys.Fresh cfg
  chosen : s.chosen = false

/-- The claim says again what the entry holds. -/
def alreadyOwner (e : BufRes) (c : ClaimInfo) : Bool :=
  decide (c.mode ≤ e.mode) && e.claimedOwner == some c.newId

/-- The calls that keep `edp_map` and `latest_edp` together.

An exclusive claim without an earlier dirty page does not come from the
instance whose page is the latest one, and one with an earlier dirty page
does not come from the owner. An instance that dies has the latest earlier
dirty page only if there is no other. An earlier dirty page is not locked by
its instance, and its lsn is not zero. -/
def EdpCall.regular (cfg : Config) (s : Sys) : EdpCall → Bool
  | .call (.claim c _ _) =>
    s.entry.all fun e =>
      c.mode == .share || alreadyOwner e c ||
        (if c.hasEdp then e.claimedOwner != some c.newId else e.latestEdp != some c.newId)
  | .call (.clean instId ctrl) =>
    instId != cfg.self && s.entry.all fun e =>
      (e.latestEdp != some instId || e.edpMap == {instId}) &&
      ctrl.all fun b =>
        (!b.isEdp || b.lockMode == .null) &&
        (b.lockMode != .exclusive ||
          e.converting.all fun cvt => cvt.instId == instId || decide (cvt.instId ∉ e.edpMap))
  | .rcy r =>
    (!r.isEdp || r.lsn != 0 && r.lockMode != .exclusive && s.owner != some r.instId) &&
      (r.lockMode != .exclusive || s.entry.all fun e => decide (r.instId ∉ e.edpMap))
  | _ => true

/-! ## The entry -/

/-- The map and the latest page belong together, and the owner is in the map
only if it was chosen. A request is converted by the owner. -/
structure EdpOk (chosen : Bool) (e : BufRes) : Prop where
  latest_mem : ∀ i, e.latestEdp = some i → i ∈ e.edpMap
  latest_ne : e.edpMap ≠ ∅ → e.latestEdp ≠ none
  lsn : e.latestEdp = none → e.latestEdpLsn = 0
  owner : ∀ i, e.claimedOwner = some i → i ∈ e.edpMap → chosen = true
  owned : e.converting ≠ none → e.claimedOwner ≠ none

/-- The two entries have the same owner and the same earlier dirty pages, and
only an owner gets a request to convert. -/
structure SameEdp (e e' : BufRes) : Prop where
  owner : e'.claimedOwner = e.claimedOwner
  edpMap : e'.edpMap = e.edpMap
  latestEdp : e'.latestEdp = e.latestEdp
  latestEdpLsn : e'.latestEdpLsn = e.latestEdpLsn
  owned : e'.converting ≠ none → e.converting ≠ none ∨ e.claimedOwner ≠ none

section
variable {cfg : Config} {s : Sys} {chosen chosen' : Bool} {e e' : BufRes} {l : List DrcReqInfo}
  {c : ClaimInfo} {r : PageInfo}

lemma SameEdp.refl (e : BufRes) : SameEdp e e := ⟨rfl, rfl, rfl, rfl, .inl⟩

lemma EdpOk.of_same (he : EdpOk chosen e) (h : SameEdp e e') : EdpOk chosen e' := by
  obtain ⟨howner, hmap, hlatest, hlsn, howned⟩ := h
  constructor
  · rw [hlatest, hmap]
    exact he.latest_mem
  · rw [hlatest, hmap]
    exact he.latest_ne
  · rw [hlatest, hlsn]
    exact he.lsn
  · rw [howner, hmap]
    exact he.owner
  · intro hconv
    rw [howner]
    exact (howned hconv).elim he.owned id

lemma EdpOk.mono (he : EdpOk chosen e) (h : chosen = true → chosen' = true) : EdpOk chosen' e :=
  { he with owner := fun i hi hmem => h (he.owner i hi hmem) }

lemma EdpOk.latest_none (he : EdpOk chosen e) (hempty : e.edpMap = ∅) : e.latestEdp = none := by
  by_contra hne
  obtain ⟨i, hi⟩ := ne_none_iff_exists'.mp hne
  have hmem := he.latest_mem i hi
  rw [hempty] at hmem
  exact absurd hmem (Finset.notMem_empty i)

lemma EdpOk.of_noOwner (he : EdpOk chosen e) (howner : e.claimedOwner = none) :
    EdpOk chosen' e := by
  refine { he with owner := ?_ }
  intro i hi
  cases howner.symm.trans hi

lemma EdpOk.of_empty (hmap : e.edpMap = ∅) (hlatest : e.latestEdp = none)
    (hlsn : e.latestEdpLsn = 0) (howned : e.converting ≠ none → e.claimedOwner ≠ none) :
    EdpOk chosen e := by
  refine ⟨?_, fun hne => absurd hmap hne, fun _ => hlsn, ?_, howned⟩
  · intro i hi
    cases hlatest.symm.trans hi
  · intro i _ hi
    rw [hmap] at hi
    exact absurd hi (Finset.notMem_empty i)

/-- What a call leaves of the entry: the old owner, an owner that was chosen,
or an owner without an earlier dirty page. -/
inductive EdpOutcome (s : Sys) (chosen chooses : Bool) (e' : BufRes) : Prop where
  | kept {e : BufRes} (he : s.entry = some e) (howner : e'.claimedOwner = e.claimedOwner)
      (h : EdpOk chosen e')
  | chosen (hchooses : chooses = true) (h : EdpOk true e')
  | fresh (h : EdpOk false e')

lemma EdpOutcome.same {chooses} (hok : ∀ e, s.entry = some e → EdpOk chosen e)
    (he : s.entry = some e) (h : SameEdp e e') : EdpOutcome s chosen chooses e' :=
  .kept he h.owner ((hok e he).of_same h)

/-! ## Requests -/

lemma drcRequestOwnedPage_edp {req : DrcReqInfo} {isTry : Bool} {env : ReqEnv} {p : LockItemPool}
    {n : Nat} {other : List Nat} {res : Res (Bool × OwnerResult)}
    (hq : Queued p n e.convertQ other l) (hidle : e.converting = none → l = [])
    (howner : e.claimedOwner ≠ none) (h : drcRequestOwnedPage n p e req isTry env = some res)
    (he' : res.entry = some e') : SameEdp e e' := by
  obtain ⟨cvt, q, ro, l', hentry, -⟩ := drcRequestOwnedPage_spec howner hq hidle h
  cases hentry.symm.trans he'
  exact ⟨rfl, rfl, rfl, rfl, fun _ => .inr howner⟩

lemma request_edp {req isTry env res} (hs : s.Holds cfg l)
    (hok : ∀ e, s.entry = some e → EdpOk chosen e)
    (h : drcRequestPageOwner cfg.itemNum s.pool s.entry req isTry env = some res)
    (he' : res.entry = some e') :
    EdpOutcome s chosen (choosesOwner s (.request req isTry env)) e' := by
  unfold drcRequestPageOwner at h
  split at h
  · cases h
    exact .same hok he' (.refl e')
  rename_i hstopped
  split at h
  · split at h
    · cases h
      cases he'
    · cases h
      cases he'
      exact .fresh (.of_empty rfl rfl rfl fun hne => absurd rfl hne)
  · rename_i e he
    obtain ⟨hq, hidle, -⟩ := hs.of_some he
    split at h
    · cases h
      cases he'
      exact .same hok he (.refl _)
    rename_i hpending
    split at h
    · rename_i howner
      exact .same hok he (drcRequestOwnedPage_edp hq hidle howner h he')
    rename_i howner
    rw [not_not] at howner
    split at h
    · cases h
      cases he'
      exact .same hok he (.refl _)
    rename_i hrecovered
    split at h
    · cases h
    rename_i e1 hclean
    have hok := hok e he
    obtain ⟨o, pd, ro, rfl, -, hnone⟩ := drcCleanBufRes_spec hclean
    split_ifs at h with howner1
    · have hok1 : EdpOk true { e with claimedOwner := o, pending := pd, readonlyCopies := ro } :=
        { hok with owner := fun _ _ _ => rfl, owned := fun _ => howner1 }
      refine .chosen ?_ (hok1.of_same (drcRequestOwnedPage_edp hq hidle howner1 h he'))
      simp only [choosesOwner, he, any_some, hclean]
      simp_all [isSome_iff_ne_none]
    · rw [not_not] at howner1
      cases h
      cases he'
      have hempty := (hnone howner1).1
      have hlatest := hok.latest_none hempty
      exact .fresh (.of_empty hempty hlatest (hok.lsn hlatest) fun _ => some_ne_none _)

/-! ## Claims -/

/-- A claim records the new owner unless it says nothing new. -/
lemma drcClaimNewPageOwner_edp {cvt} (howner : e.claimedOwner ≠ none)
    (h : drcClaimNewPageOwner e cvt c = some e') : SameEdp e e' ∨
      (c.mode ≠ .share ∧ alreadyOwner e c = false ∧ SameEdp (recordOwner e c) e') := by
  rcases drcClaimNewPageOwner_cases h with rfl | ⟨hnew, n, rfl⟩
  · exact .inl ⟨rfl, rfl, rfl, rfl, fun _ => .inr howner⟩
  · unfold recordOwner
    split
    · exact .inl ⟨rfl, rfl, rfl, rfl, fun _ => .inr howner⟩
    · rename_i hshare
      refine .inr ⟨hshare, ?_, rfl, rfl, rfl, rfl, fun _ => .inr (some_ne_none _)⟩
      simpa [alreadyOwner] using hnew

/-- The new owner has no bit in the map, the old one has if it leaves an
earlier dirty page. -/
lemma EdpOk.recordOwner (he : EdpOk chosen e) (howner : e.claimedOwner ≠ none)
    (hshare : c.mode ≠ .share)
    (hreg : if c.hasEdp then e.claimedOwner ≠ some c.newId else e.latestEdp ≠ some c.newId) :
    EdpOk false (recordOwner e c) := by
  unfold Drc.recordOwner
  rw [if_neg hshare]
  obtain ⟨o, ho⟩ := ne_none_iff_exists'.mp howner
  cases hedp : c.hasEdp with
  | true =>
    rw [hedp, if_pos rfl, ho] at hreg
    have hne : o ≠ c.newId := fun h => hreg (congrArg some h)
    simp only [if_true, ho, elim_some]
    refine ⟨?_, fun _ => some_ne_none o, fun h => absurd h (some_ne_none o), ?_,
      fun _ => some_ne_none _⟩
    · simp
    · intro i hi hmem
      cases hi
      rcases Finset.mem_insert.mp hmem with h | h
      · exact absurd h.symm hne
      · exact absurd rfl (Finset.ne_of_mem_erase h)
  | false =>
    rw [hedp, if_neg Bool.false_ne_true] at hreg
    simp only [Bool.false_eq_true, if_false]
    refine ⟨?_, ?_, he.lsn, ?_, fun _ => some_ne_none _⟩
    · intro i hi
      refine Finset.mem_erase.mpr ⟨?_, he.latest_mem i hi⟩
      rintro rfl
      exact hreg hi
    · intro hne
      refine he.latest_ne fun hempty => hne ?_
      rw [hempty]
      rfl
    · simp

lemma claim_edp {now invalidated res} (hs : s.Holds cfg l)
    (hok : ∀ e, s.entry = some e → EdpOk chosen e)
    (hreg : EdpCall.regular cfg s (.call (.claim c now invalidated)) = true)
    (h : drcClaimPageOwner cfg.timeout now s.pool s.entry c invalidated = some res)
    (he' : res.entry = some e') : EdpOutcome s chosen false e' := by
  cases he : s.entry with
  | none =>
    rw [he] at h
    cases h
    cases he'
  | some e =>
    rw [he] at h
    simp only [drcClaimPageOwner] at h
    split at h
    · cases h
      cases he'
      exact .same hok he (.refl _)
    rename_i cvt hcvt
    have howner : e.claimedOwner ≠ none :=
      (hok e he).owned (hcvt ▸ some_ne_none cvt)
    split at h
    · cases h
      cases he'
      exact .same hok he (.refl _)
    split at h
    · cases h
    rename_i e1 hclaim
    split at h
    · cases h
    rename_i p2 e2 conflict hnext
    have hq := (hs.of_some he).1
    rw [← (drcClaimNewPageOwner_spec hclaim).1] at hq
    obtain ⟨_, cvt', q, _, _, _, hnext', -⟩ := drcConvertNextRequest_queued 0 cfg.timeout now hq
    cases hnext.symm.trans hnext'
    cases h
    -- the next request changes neither the owner nor the earlier dirty pages
    have hsame : e1.claimedOwner ≠ none → SameEdp e1 e' := by
      intro howner1
      cases cvt' with
      | none =>
        cases he'
        exact ⟨rfl, rfl, rfl, rfl, fun _ => .inr howner1⟩
      | some req =>
        obtain ⟨ro, hro, -⟩ := afterInvalidate_eq
          { e1 with converting := some req, convertQ := q } req invalidated
        cases (congrArg some hro).symm.trans he'
        exact ⟨rfl, rfl, rfl, rfl, fun _ => .inr howner1⟩
    rcases drcClaimNewPageOwner_edp howner hclaim with hkept | ⟨hshare, halready, hrecord⟩
    · have hok1 := (hok e he).of_same hkept
      have hsame := hsame (hkept.owner ▸ howner)
      exact .kept he (hsame.owner.trans hkept.owner) (hok1.of_same hsame)
    have hreg' : if c.hasEdp then e.claimedOwner ≠ some c.newId
        else e.latestEdp ≠ some c.newId := by
      simp only [EdpCall.regular, he, all_some, halready, Bool.or_false, Bool.or_eq_true,
        beq_iff_eq, hshare, false_or] at hreg
      split <;> simp_all
    have hok1 := ((hok e he).recordOwner howner hshare hreg').of_same hrecord
    refine .fresh (hok1.of_same (hsame ?_))
    rw [hrecord.owner, recordOwner, if_neg hshare]
    exact some_ne_none _

/-! ## Cleaning -/

lemma EdpOk.cleanInst {instId} (he : EdpOk chosen e)
    (hlatest : e.latestEdp = some instId → e.edpMap = {instId}) (hconv : e.converting = none)
    (h : cleanInst instId e = some e') :
    EdpOk chosen e' ∧ (e'.claimedOwner = e.claimedOwner ∨ e'.claimedOwner = none) := by
  have hmem : ∀ i, (if e.latestEdp = some instId then none else e.latestEdp) = some i →
      i ∈ e.edpMap.erase instId := by
    intro i hi
    split at hi
    · cases hi
    · rename_i hne
      refine Finset.mem_erase.mpr ⟨?_, he.latest_mem i hi⟩
      rintro rfl
      exact hne hi
  have hne : e.edpMap.erase instId ≠ ∅ →
      (if e.latestEdp = some instId then none else e.latestEdp) ≠ none := by
    intro hmap
    split
    · rename_i heq
      refine absurd ?_ hmap
      rw [hlatest heq]
      exact Finset.erase_singleton instId
    · refine he.latest_ne fun hempty => hmap ?_
      rw [hempty]
      rfl
  have hlsn : (if e.latestEdp = some instId then none else e.latestEdp) = none →
      (if e.latestEdp = some instId then 0 else e.latestEdpLsn) = 0 := by
    intro hnone
    split
    · rfl
    · rename_i hne
      rw [if_neg hne] at hnone
      exact he.lsn hnone
  unfold Drc.cleanInst at h
  simp only at h
  split at h
  · cases h
    refine ⟨⟨hmem, hne, hlsn, ?_, fun hne => absurd hconv hne⟩, .inl rfl⟩
    intro i hi hmem
    exact he.owner i hi (Finset.mem_of_mem_erase hmem)
  · split at h <;> cases h
    refine ⟨⟨hmem, hne, hlsn, ?_, fun hne => absurd hconv hne⟩, .inr rfl⟩
    intro i hi
    cases hi

/-- The local page has the latest earlier dirty page, or nothing is recorded
about it. -/
lemma EdpOk.revertAbortOwner (he : EdpOk chosen e) (self : InstId) (ctrl : Option BufCtrl)
    (hconv : e.converting = none)
    (hctrl : ∀ b, ctrl = some b → b.isEdp = true → b.lockMode = .null) :
    let e' := drcRevertConvertingPageAbortOwner self ctrl e
    e'.converting = none ∧
      ((EdpOk chosen e' ∧ e'.claimedOwner = e.claimedOwner) ∨ EdpOk false e') ∧
      ((e'.latestEdp = e.latestEdp ∧ e'.edpMap = e.edpMap) ∨ e'.latestEdp = some self) := by
  have howned : ∀ {o : Option InstId}, e.converting ≠ none → o ≠ none := fun h => absurd hconv h
  cases ctrl with
  | none => exact ⟨hconv, .inl ⟨he, rfl⟩, .inl ⟨rfl, rfl⟩⟩
  | some b =>
    simp only [drcRevertConvertingPageAbortOwner]
    cases hedp : b.isEdp with
    | true =>
      rw [if_pos (hctrl b rfl hedp), if_pos rfl]
      refine ⟨hconv, .inr ?_, .inr rfl⟩
      refine ⟨?_, fun _ => some_ne_none self, fun h => absurd h (some_ne_none self), ?_, howned⟩
      · simp
      · simp
    | false =>
      simp only [Bool.false_eq_true, if_false]
      split
      · refine ⟨hconv, .inr { he with owner := ?_, owned := howned }, .inl ⟨rfl, rfl⟩⟩
        intro i hi
        cases hi
      · exact ⟨hconv, .inl ⟨{ he with owned := howned }, rfl⟩, .inl ⟨rfl, rfl⟩⟩

lemma EdpOk.revertNonAbortOwner (he : EdpOk chosen e) (ctrl : Option BufCtrl) (cvt : DrcReqInfo)
    (hctrl : ∀ b, ctrl = some b → b.lockMode = .exclusive → cvt.instId ∉ e.edpMap) :
    let e' := (drcRevertConvertingPageNonAbortOwner ctrl cvt e).1
    e'.converting = none ∧
      ((EdpOk chosen e' ∧ e'.claimedOwner = e.claimedOwner) ∨ EdpOk false e') ∧
      e'.latestEdp = e.latestEdp ∧ e'.edpMap = e.edpMap := by
  have hidle : EdpOk chosen { e with converting := none } :=
    { he with owned := fun h => absurd rfl h }
  unfold drcRevertConvertingPageNonAbortOwner
  split
  · exact ⟨rfl, .inl ⟨hidle, rfl⟩, rfl, rfl⟩
  rename_i b
  split
  · exact ⟨rfl, .inl ⟨hidle, rfl⟩, rfl, rfl⟩
  · exact ⟨rfl, .inl ⟨hidle, rfl⟩, rfl, rfl⟩
  · rename_i hmode
    refine ⟨rfl, .inr { he with owner := ?_, owned := fun h => absurd rfl h }, rfl, rfl⟩
    intro i hi hmem
    cases hi
    exact absurd hmem (hctrl b rfl hmode)

lemma clean_edp {instId ctrl} (hs : s.Holds cfg l) (he : s.entry = some e) (hok : EdpOk chosen e)
    (hreg : EdpCall.regular cfg s (.call (.clean instId ctrl)) = true)
    (he' : (drcCleanPageOwner instId cfg.self ctrl s.pool e).entry = some e') :
    EdpOutcome s chosen false e' := by
  obtain ⟨hself, hlatest, hctrl⟩ : instId ≠ cfg.self ∧
      (e.latestEdp = some instId → e.edpMap = {instId}) ∧
      ∀ b, ctrl = some b → (b.isEdp = true → b.lockMode = .null) ∧
        (b.lockMode = .exclusive → ∀ cvt, e.converting = some cvt → cvt.instId ≠ instId →
          cvt.instId ∉ e.edpMap) := by
    simp only [EdpCall.regular, he, all_some, Bool.and_eq_true, bne_iff_ne, Bool.or_eq_true,
      beq_iff_eq] at hreg
    refine ⟨hreg.1, fun h => hreg.2.1.resolve_left (not_not.mpr h), ?_⟩
    rintro b rfl
    simp only [all_some, Bool.and_eq_true, Bool.or_eq_true, Bool.not_eq_true', beq_iff_eq,
      bne_iff_ne] at hreg
    refine ⟨fun h => hreg.2.2.1.resolve_left (Bool.not_eq_false _ ▸ h), fun h cvt hcvt hne => ?_⟩
    have hbit := hreg.2.2.2.resolve_left (not_not.mpr h)
    rw [hcvt, all_some, Bool.or_eq_true, beq_iff_eq, decide_eq_true_iff] at hbit
    exact hbit.resolve_left hne
  obtain ⟨hq, -, -⟩ := hs.of_some he
  obtain ⟨p1, q1, rejected1, heq1, -, hcount⟩ := drcCleanConvertQ_queued instId hq
  have hclean : ∀ e2 : BufRes, e2.converting = none →
      ((EdpOk chosen e2 ∧ e2.claimedOwner = e.claimedOwner) ∨ EdpOk false e2) →
      (e2.latestEdp = some instId → e2.edpMap = {instId}) → cleanInst instId e2 = some e' →
      EdpOutcome s chosen false e' := by
    intro e2 hconv hok2 hlatest2 h
    rcases hok2 with ⟨hok2, howner2⟩ | hok2
    · obtain ⟨hok', howner | hnone⟩ := hok2.cleanInst hlatest2 hconv h
      · exact .kept he (howner.trans howner2) hok'
      · exact .fresh (hok'.of_noOwner hnone)
    · exact .fresh (hok2.cleanInst hlatest2 hconv h).1
  have hok1 : EdpOk chosen { e with convertQ := q1 } :=
    { hok with }
  have hidle : EdpOk chosen { e with convertQ := q1, converting := none } :=
    { hok with owned := fun h => absurd rfl h }
  simp only [drcCleanPageOwner, heq1, drcCleanPageConverting] at he'
  split at he'
  · rename_i hconv
    exact hclean { e with convertQ := q1 } hconv (.inl ⟨hok1, rfl⟩) hlatest he'
  rename_i cvt hcvt
  split at he'
  · obtain ⟨hconv, hok2, hmap⟩ := hidle.revertAbortOwner cfg.self ctrl rfl
      fun b hb => (hctrl b hb).1
    refine hclean _ hconv hok2 (fun h => ?_) he'
    rcases hmap with ⟨hle, hem⟩ | hle
    · rw [hem]
      exact hlatest (hle ▸ h)
    · exact absurd (some.inj (h.symm.trans hle)) hself
  · rename_i hne
    obtain ⟨hconv, hok2, hle, hem⟩ := hok1.revertNonAbortOwner ctrl cvt
      fun b hb hmode => (hctrl b hb).2 hmode cvt hcvt hne
    refine hclean _ hconv hok2 (fun h => ?_) he'
    rw [hem]
    exact hlatest (hle ▸ h)

/-! ## Reports -/

lemma EdpOk.recordEdp (he : EdpOk chosen e)
    (hedp : r.isEdp = true → r.lsn ≠ 0 ∧ e.claimedOwner ≠ some r.instId) :
    EdpOk chosen (recordEdp e r) := by
  obtain ⟨em, le, ll, heq⟩ := recordEdp_eq e r
  have hmem := mem_recordEdp_edpMap e r
  have hlatest := recordEdp_latest e r
  rw [heq] at hmem hlatest ⊢
  simp only at hmem hlatest
  have hlsn : le = none → ll = 0 := by
    intro hnone
    rcases hlatest with ⟨-, -, hle, -⟩ | ⟨-, hle, hll⟩
    · cases hle.symm.trans hnone
    · exact hll.trans (he.lsn (hle.symm.trans hnone))
  refine ⟨?_, ?_, hlsn, ?_, he.owned⟩
  · intro i hi
    rw [hmem]
    rcases hlatest with ⟨hr, -, hle, -⟩ | ⟨-, hle, -⟩
    · exact .inl ⟨hr, some.inj (hle.symm.trans hi)⟩
    · exact .inr (he.latest_mem i (hle.symm.trans hi))
  · intro hne hnone
    obtain ⟨i, hi⟩ := Finset.nonempty_iff_ne_empty.mpr hne
    -- a report with a lsn that is not zero is later than no page at all
    rcases hlatest with ⟨-, -, hle, -⟩ | ⟨hnot, hle, hll⟩
    · cases hle.symm.trans hnone
    · rcases (hmem i).mp hi with ⟨hr, -⟩ | hi
      · have hzero := hnot hr
        rw [← hll, hlsn hnone] at hzero
        exact (hedp hr).1 (Nat.le_zero.mp hzero)
      · exact he.latest_ne (Finset.ne_empty_of_mem hi) (hle.symm.trans hnone)
  · intro i hi hbit
    rcases (hmem i).mp hbit with ⟨hr, rfl⟩ | hbit
    · exact absurd hi (hedp hr).2
    · exact he.owner i hi hbit

lemma EdpOk.recordLockMode (he : EdpOk chosen e)
    (hlock : r.lockMode = .exclusive → r.instId ∉ e.edpMap) :
    (EdpOk chosen (recordLockMode e r) ∧ (recordLockMode e r).claimedOwner = e.claimedOwner) ∨
      EdpOk false (recordLockMode e r) := by
  obtain ⟨o, md, ro, heq⟩ := recordLockMode_eq e r
  have howner := recordLockMode_owner e r
  rw [heq] at howner ⊢
  split_ifs at howner with hx
  · refine .inr { he with owner := ?_, owned := fun _ => howner ▸ some_ne_none _ }
    intro i hi hbit
    cases howner.symm.trans hi
    exact absurd hbit (hlock hx.1)
  · subst howner
    exact .inl ⟨{ he with }, rfl⟩

lemma EdpOk.rcyBufRes (hedp : r.isEdp = true → r.lockMode ≠ .exclusive) :
    EdpOk false (rcyBufRes r) := by
  cases hr : r.isEdp with
  | false =>
    refine .of_empty ?_ ?_ ?_ fun hne => absurd rfl hne
    all_goals
      simp only [Drc.rcyBufRes, hr]
      rfl
  | true =>
    have hmode := hedp hr
    refine ⟨?_, ?_, ?_, ?_, fun hne => absurd rfl hne⟩
    all_goals simp [Drc.rcyBufRes, hr, hmode]

lemma rcy_edp (hok : ∀ e, s.entry = some e → EdpOk chosen e)
    (hreg : EdpCall.regular cfg s (.rcy r) = true) :
    EdpOutcome s chosen false (drcRcyPageInfo s.entry r) := by
  simp only [EdpCall.regular, Bool.and_eq_true, Bool.or_eq_true, Bool.not_eq_true',
    bne_iff_ne] at hreg
  have hedp : r.isEdp = true → (r.lsn ≠ 0 ∧ r.lockMode ≠ .exclusive) ∧ s.owner ≠ some r.instId :=
    fun h => hreg.1.resolve_left (Bool.not_eq_false _ ▸ h)
  cases he : s.entry with
  | none => exact .fresh (.rcyBufRes fun h => (hedp h).1.2)
  | some e =>
    have howner : s.owner = e.claimedOwner := congrArg (bind · _) he
    have hlock : r.lockMode = .exclusive → r.instId ∉ (recordEdp e r).edpMap := by
      intro hx hmem
      rcases (mem_recordEdp_edpMap e r r.instId).mp hmem with ⟨hr, -⟩ | hmem
      · exact (hedp hr).1.2 hx
      · have hbit := hreg.2.resolve_left (not_not.mpr hx)
        rw [he, all_some, decide_eq_true_iff] at hbit
        exact hbit hmem
    have hok1 : EdpOk chosen (recordEdp e r) :=
      (hok e he).recordEdp fun h => ⟨(hedp h).1.1, howner ▸ (hedp h).2⟩
    rcases hok1.recordLockMode hlock with ⟨hok', howner'⟩ | hok'
    · obtain ⟨em, le, ll, heq⟩ := recordEdp_eq e r
      refine .kept he (howner'.trans ?_) hok'
      rw [heq]
    · exact .fresh hok'

/-! ## Whole sequences -/

/-- What every state keeps. -/
structure EdpInv (cfg : Config) (s : EdpSys) : Prop where
  holds : ∃ l, s.sys.Holds cfg l
  entry : ∀ e, s.sys.entry = some e → EdpOk s.chosen e

lemma EdpOutcome.ok {t : Sys} {chooses} (h : EdpOutcome s chosen chooses e')
    (ht : t.entry = some e') : EdpOk (chooses || chosen && t.owner == s.owner) e' := by
  have htowner : t.owner = e'.claimedOwner := congrArg (bind · _) ht
  cases h with
  | kept he howner h =>
    rename_i e
    have hsowner : s.owner = e.claimedOwner := congrArg (bind · _) he
    refine h.mono fun hchosen => ?_
    rw [htowner, hsowner, howner, hchosen]
    simp
  | chosen hchooses h => exact h.mono fun _ => by rw [hchooses, Bool.true_or]
  | fresh h => exact h.mono fun hfalse => absurd hfalse Bool.false_ne_true

lemma call_edp {t a} (hs : s.Holds cfg l) (hok : ∀ e, s.entry = some e → EdpOk chosen e)
    (hreg : EdpCall.regular cfg s (.call a) = true) (h : step cfg s a = some t)
    (he' : t.entry = some e') : EdpOutcome s chosen (choosesOwner s a) e' := by
  cases a with
  | request =>
    obtain ⟨res, hres, rfl⟩ := map_eq_some_iff.mp h
    exact request_edp hs hok hres he'
  | claim =>
    obtain ⟨res, hres, rfl⟩ := map_eq_some_iff.mp h
    exact claim_edp hs hok hreg hres he'
  | release =>
    obtain ⟨res, hres, rfl⟩ := map_eq_some_iff.mp h
    cases he : s.entry with
    | none =>
      rw [he] at hres
      cases hres
    | some =>
      rw [he, drcReleasePageOwner] at hres
      split at hres
      · cases hres
        cases he'
        exact .same hok he (.refl _)
      split at hres
      · cases hres
        cases he'
        exact .same hok he (.refl _)
      · cases hres
        cases he'
  | cleanEdp =>
    cases h
    cases he : s.entry with
    | none =>
      rw [he] at he'
      cases he'
    | some e =>
      rw [he] at he'
      cases he'
      split
      · exact .kept he rfl (.of_empty rfl rfl rfl (hok e he).owned)
      · exact .same hok he (.refl e)
  | clean =>
    cases he : s.entry with
    | none =>
      simp only [step, he] at h
      cases h
      cases he.symm.trans he'
    | some e =>
      simp only [step, he] at h
      cases h
      exact clean_edp hs he (hok e he) hreg he'
  | otherAlloc =>
    obtain ⟨⟨i, p⟩, ha, rfl⟩ := map_eq_some_iff.mp h
    exact .same hok he' (.refl _)
  | otherWrite | otherFree =>
    simp only [step] at h
    split at h <;> cases h
    exact .same hok he' (.refl _)

lemma Sys.Holds.rcy (hs : s.Holds cfg l) (r : PageInfo) :
    ∃ l', Sys.Holds cfg { s with entry := some (drcRcyPageInfo s.entry r) } l' := by
  cases he : s.entry with
  | none =>
    obtain ⟨rfl, hq⟩ := hs.of_none he
    exact ⟨[], hq, fun _ => rfl⟩
  | some e =>
    obtain ⟨hq, hidle, -⟩ := hs.of_some he
    obtain ⟨em, le, ll, hedp⟩ := recordEdp_eq e r
    obtain ⟨o, md, ro, hlock⟩ := recordLockMode_eq (recordEdp e r) r
    refine ⟨l, ?_, ?_⟩
    · show Queued s.pool cfg.itemNum (recordLockMode (recordEdp e r) r).convertQ s.other l
      rw [hlock, hedp]
      exact hq
    · show (recordLockMode (recordEdp e r) r).converting = none → l = []
      rw [hlock, hedp]
      exact hidle

lemma EdpInv.step {s t : EdpSys} {a : EdpCall} (hs : EdpInv cfg s)
    (hreg : a.regular cfg s.sys = true) (h : edpStep cfg s a = some t) : EdpInv cfg t := by
  obtain ⟨l, hl⟩ := hs.holds
  cases a with
  | call =>
    obtain ⟨t, ht, rfl⟩ := map_eq_some_iff.mp h
    obtain ⟨l', hl', -⟩ := (step_outcome hl ht).change
    exact ⟨⟨l', hl'⟩, fun e' he' => (call_edp hl hs.entry hreg ht he').ok he'⟩
  | rcy r =>
    cases h
    refine ⟨hl.rcy r, fun e' he' => ?_⟩
    cases he'
    exact (rcy_edp hs.entry hreg).ok rfl

/-- As long as the calls are regular, an entry has earlier dirty pages exactly
if it has a latest one, which is among them, and the owner is among them only
if `drc_clean_buf_res` has chosen it. -/
theorem edp_bookkeeping (cfg : Config) (s : EdpSys)
    (hs : ReachableBy (edpStep cfg) (EdpSys.Fresh cfg) (fun s a => a.regular cfg s.sys = true) s)
    (e : BufRes) (he : s.sys.entry = some e) :
    (e.edpMap ≠ ∅ ↔ e.latestEdp ≠ none) ∧ (∀ i, e.latestEdp = some i → i ∈ e.edpMap) ∧
      (∀ i, e.claimedOwner = some i → i ∈ e.edpMap → s.chosen = true) := by
  have hinv : EdpInv cfg s := by
    refine hs.invariant (P := EdpInv cfg) (fun s hf => ?_) fun s a t hreg hs h => hs.step hreg h
    refine ⟨⟨[], hf.sys.holds⟩, fun e he => ?_⟩
    cases hf.sys.entry.symm.trans he
  have hok := hinv.entry e he
  exact ⟨⟨hok.latest_ne, mt hok.latest_none⟩, hok.latest_mem, hok.owner⟩

end

/-! ### Runs -/

def edpStart : EdpSys := ⟨runStart, false⟩

lemma edpStart_fresh : edpStart.Fresh runConfig := ⟨runStart_fresh, rfl⟩

/-- An exclusive claim of instance `i`. -/
def runClaim (i : InstId) (hasEdp : Bool) (lsn : Nat) : EdpCall :=
  .call (.claim ⟨i, 1, .exclusive, hasEdp, lsn, 0⟩ 0 true)

/-- Instance 1 has the page, with an earlier dirty page at instance 2. -/
def edpHandover : List EdpCall :=
  [.call (runRequest 2 1 .exclusive .null), .call (runRequest 1 2 .exclusive .null),
    runClaim 1 true 5]

/-- The map, the latest page and the owner. -/
def EdpSys.view (s : EdpSys) : Option (Finset InstId × Option InstId × Option InstId) :=
  s.sys.entry.map fun e => (e.edpMap, e.latestEdp, e.claimedOwner)

/-- The owner dies, and the instance with the earlier dirty page asks again. -/
def edpAdopted : List EdpCall :=
  edpHandover ++ [.call (.clean 1 none), .call (runRequest 2 3 .exclusive .null)]

/-- The page goes back to the instance with the earlier dirty page, and no
new one is left behind. -/
def edpReturned : List EdpCall :=
  edpHandover ++ [.call (runRequest 2 3 .exclusive .null), runClaim 2 false 6]

/-- The page goes on to instance 3, then the one with the latest earlier dirty
page dies. -/
def edpOrphaned : List EdpCall :=
  edpHandover ++ [.call (runRequest 3 3 .exclusive .null), runClaim 3 true 6, .call (.clean 1 none)]

lemma reachable_of_view (as : List EdpCall) (v : Finset InstId × Option InstId × Option InstId)
    (h : (run (edpStep runConfig) edpStart as).map EdpSys.view = some (some v)) :
    ∃ s, Reachable (edpStep runConfig) (EdpSys.Fresh runConfig) s ∧ s.view = some v := by
  obtain ⟨s, hrun, hv⟩ := exists_of_run_map _ _ _ _ _ h
  exact ⟨s, .of_run _ (.init edpStart_fresh) hrun, hv⟩

/-- The owner has a bit in the map; there is a latest page but none in the
map; there is a page in the map but no latest one. -/
theorem edp_fields_apart : (∃ s, Reachable (edpStep runConfig) (EdpSys.Fresh runConfig) s ∧
      s.view = some ({2}, some 2, some 2)) ∧
    (∃ s, Reachable (edpStep runConfig) (EdpSys.Fresh runConfig) s ∧
      s.view = some (∅, some 2, some 2)) ∧
    (∃ s, Reachable (edpStep runConfig) (EdpSys.Fresh runConfig) s ∧
      s.view = some ({2}, none, some 3)) :=
  ⟨reachable_of_view edpAdopted _ (by decide +kernel),
    reachable_of_view edpReturned _ (by decide +kernel),
    reachable_of_view edpOrphaned _ (by decide +kernel)⟩

/-- In the first of these runs every call is regular, and the owner was
chosen. -/
theorem edp_bookkeeping_adopted :
    ∃ (s : EdpSys) (e : BufRes),
      s.sys.entry = some e ∧ e.edpMap = {2} ∧ e.claimedOwner = some 2 ∧ s.chosen = true := by
  obtain ⟨s, hrun, hv⟩ := exists_of_runOk_map (edpStep runConfig)
    (fun s a => a.regular runConfig s.sys) edpStart edpAdopted EdpSys.view
    (some ({2}, some 2, some 2)) (by decide +kernel)
  have hs := ReachableBy.of_runOk _ (.init edpStart_fresh) hrun
  obtain ⟨e, he, hview⟩ := map_eq_some_iff.mp hv
  obtain ⟨hmap, hview⟩ := Prod.mk.inj hview
  obtain ⟨-, howner⟩ := Prod.mk.inj hview
  obtain ⟨-, -, hchosen⟩ := edp_bookkeeping runConfig s hs e he
  refine ⟨s, e, he, hmap, howner, hchosen 2 howner ?_⟩
  rw [hmap]
  exact Finset.mem_singleton_self 2

end Cantian.Drc
