import Cantian.Drc.EntryInv

/-!
# The entry of the calls and the entry of the page protocol

A request and a claim answer as the functions of the page protocol do on the
entry that the entry stands for. They differ in the copies: the protocol
invalidates them in a thread of its own.
-/

namespace Cantian.Drc

open Lib Dcs List

section
variable (n time : Nat) (p : LockItemPool) (other : List Nat) (o : InstId) (e : BufRes)
  (l : List DrcReqInfo)

/-- The entry has the owner `o`, and its queue the requests `l`. -/
structure Stands : Prop where
  owner : e.claimedOwner = some o
  queued : Queued p n e.convertQ other l

/-- What a request of the page gets in the two models. -/
inductive OwnerRefines (init : OwnerResult) (invalidated : Bool) :
    Res (Bool × OwnerResult) → Dcs.OwnerResult → Prop
  | error : OwnerRefines init invalidated ⟨(false, init), p, some e⟩ .error
  | noItem {a : Dcs.OwnerResult} (hfull : p.alloc = none) :
      OwnerRefines init invalidated ⟨(false, init), p, some e⟩ a
  | waiting {p' : LockItemPool} {e' : BufRes} {l' : List DrcReqInfo}
      (he : Stands n p' other o e' l') : OwnerRefines init invalidated
        ⟨(true, { init with type := .waiting, currOwner := some o }), p', some e'⟩
        (.waiting (toDcs o e' l' time))
  | converted {e' : BufRes} {r : DrcReqInfo} {isRetry ok : Bool} (he : Stands n p other o e' l) :
      OwnerRefines init invalidated
        ⟨(ok, convertResult e' r isRetry), p, some (afterInvalidate e' r invalidated)⟩
        (if o = r.instId then
          .alreadyOwner (toDcs o e' l r.rsn) r isRetry (copiesToInvalidate e' r.instId)
        else .converting (toDcs o e' l r.rsn) r isRetry (copiesToInvalidate e' r.instId))

end

section
variable {n time timeout now : Nat} {p : LockItemPool} {other : List Nat} {o : InstId} {e : BufRes}
  {l : List DrcReqInfo} {req cvt : DrcReqInfo} {c : ClaimInfo} {isTry : Bool} {env : ReqEnv}

theorem drcRequestPageOwner_refines (he : Stands n p other o e l)
    (hidle : e.converting = none → l = []) (hrun : env.stopped = false) :
    ∃ res, drcRequestPageOwner n p (some e) req isTry env = some res ∧
      OwnerRefines n time p other o e l (.init req) env.invalidated res
        (Dcs.drcRequestPageOwner (some (toDcs o e l time)) req isTry) := by
  have hwait : WaitRefines n p other l e o time (.request req isTry env)
      (drcKeepRequesterWait n p e req isTry) _ :=
    drcKeepRequesterWait_refines he.owner he.queued hidle
  have hcases := drcKeepRequesterWait_cases (toDcs o e l time) req isTry
  unfold drcRequestPageOwner Dcs.drcRequestPageOwner drcRequestOwnedPage
  simp only [hrun, Bool.false_eq_true, if_false, he.owner, ne_eq, Option.some_ne_none,
    not_false_iff, if_true]
  by_cases hpend : e.pending = .pending
  · rw [if_pos hpend, if_pos (show (toDcs o e l time).pending = true from decide_eq_true hpend)]
    exact ⟨_, rfl, .error⟩
  rw [if_neg hpend, if_neg (show ¬ (toDcs o e l time).pending = true by simp [toDcs, hpend])]
  generalize drcKeepRequesterWait n p e req isTry = w at hwait ⊢
  generalize Dcs.drcKeepRequesterWait (toDcs o e l time) req isTry = a at hwait hcases ⊢
  cases hwait with
  | error => exact ⟨_, rfl, .error⟩
  | noItem hfull => exact ⟨_, rfl, .noItem hfull⟩
  | waiting hq' => exact ⟨_, rfl, .waiting ⟨he.owner, hq'⟩⟩
  | @converting r isRetry =>
    have he' : Stands n p other o { e with converting := some r } l := ⟨he.owner, he.queued⟩
    -- a prefetch is converted for the owner only
    have hown : ∀ {a}, Waited (toDcs o e l time) req isTry (.converting a r isRetry) →
        isTry = true → o = r.instId := by
      intro a h ht
      cases h with
      | converting _ _ htry => exact (htry ht).trans (enters_fields ..).1.symm
    generalize ({ e with converting := some r } : BufRes) = e' at hcases he' ⊢
    have htry : (isTry && (convertResult e' r isRetry).type == .converting) = false := by
      cases isTry with
      | false => rfl
      | true => simp [convertResult, he'.owner, hown hcases rfl]
    have hcopies : ((toDcs o e' l r.rsn).readonlyCopies.erase r.instId).erase
        (toDcs o e' l r.rsn).claimedOwner = copiesToInvalidate e' r.instId := by
      rw [copiesToInvalidate, he'.owner]
      rfl
    dsimp only
    rw [htry, hcopies]
    exact ⟨_, rfl, .converted he'⟩

lemma drcClaimInfoIsInvalid_toDcs (ho : e.claimedOwner = some o) (c : ClaimInfo) :
    Dcs.drcClaimInfoIsInvalid c (toDcs o e l time) = drcClaimInfoIsInvalid c e := by
  unfold Dcs.drcClaimInfoIsInvalid drcClaimInfoIsInvalid
  split
  next hmode => rw [hmode, ho]; rfl
  next hmode => rw [bne_iff_ne.mpr hmode]; rfl

variable (time) in
lemma drcClaimNewPageOwner_refines (he : Stands n p other o e l) (hmode : cvt.reqMode = c.mode)
    (hpend : e.pending ≠ .pending) (hval : drcClaimInfoIsInvalid c e = false) :
    ∃ e' o', drcClaimNewPageOwner e cvt c = some e' ∧ Stands n p other o' e' l ∧
      toDcs o' e' l time = Dcs.drcClaimNewPageOwner (toDcs o e l time) c := by
  obtain ⟨ho, hq⟩ := he
  simp only [drcClaimInfoIsInvalid, Bool.or_eq_false_iff, decide_eq_false_iff_not, not_and] at hval
  obtain ⟨hedp, hlsn⟩ := hval
  have hedp : ¬ (c.mode ≠ .share ∧ c.hasEdp = true ∧ ¬ (c.mode = .exclusive ∧ c.lsn ≠ 0)) := by
    rintro ⟨hs, he, hx⟩
    simp [hs, he] at hedp
    exact hx hedp
  unfold drcClaimNewPageOwner Dcs.drcClaimNewPageOwner recordOwner
  simp only [hmode, hpend, ho, toDcs, ne_eq, not_true, or_false, if_false, Option.some.injEq,
    decide_false, reduceCtorEq, and_false, hedp]
  by_cases hsame : c.mode ≤ e.mode ∧ o = c.newId
  · simp only [hsame, and_self, if_true]
    exact ⟨_, _, rfl, ⟨rfl, hq⟩, rfl⟩
  simp only [hsame, if_false]
  by_cases hl : 0 < c.lsn
  all_goals
    simp only [hl, hlsn, if_true, if_false]
    by_cases hs : c.mode = .share
    all_goals
      simp only [hs, if_true, if_false]
      exact ⟨_, _, rfl, ⟨rfl, hq⟩, rfl⟩

/-- A claim records the owner as in the protocol and takes the same request. -/
theorem drcClaimPageOwner_refines (he : Stands n p other o e l) (hpend : e.pending ≠ .pending)
    (invalidated : Bool) :
    ∃ res, drcClaimPageOwner timeout now p (some e) c invalidated = some res ∧
      match Dcs.drcClaimPageOwner timeout now (some (toDcs o e l time)) c with
      | none => res = ⟨.none, p, some e⟩
      | some (a, conflict) => ∃ e', Stands n res.pool other a.claimedOwner e' a.convertQ ∧
        a = toDcs a.claimedOwner e' a.convertQ a.cvtTime ∧
        res.entry = some (e'.converting.elim e' fun req => afterInvalidate e' req invalidated) ∧
        res.ret = ⟨e'.converting, e'.claimedOwner,
          e'.converting.elim ∅ fun req => copiesToInvalidate e' req.instId, conflict⟩ := by
  unfold drcClaimPageOwner Dcs.drcClaimPageOwner
  dsimp only
  rw [show (toDcs o e l time).converting = e.converting from rfl]
  cases hcvt : e.converting with
  | none => exact ⟨_, rfl, rfl⟩
  | some cvt =>
    dsimp only
    cases hsame : drcIsSameClaimRequest cvt c with
    | false => exact ⟨_, rfl, rfl⟩
    | true =>
    rw [drcClaimInfoIsInvalid_toDcs he.owner]
    cases hval : drcClaimInfoIsInvalid c e with
    | true => exact ⟨_, rfl, rfl⟩
    | false =>
      have hmode : cvt.reqMode = c.mode := by
        simp only [drcIsSameClaimRequest, Bool.and_eq_true, beq_iff_eq] at hsame
        exact hsame.2
      obtain ⟨e₁, o₁, hclaim, he₁, hto⟩ := drcClaimNewPageOwner_refines time he hmode hpend hval
      obtain ⟨p₂, cvt', q, conflict, l₂, t, hnext, hq₂, -, -, hdcs⟩ :=
        drcConvertNextRequest_queued time timeout now he₁.queued
      rw [hclaim, ← hto, hdcs o₁ he₁.owner]
      dsimp only
      rw [hnext]
      exact ⟨_, rfl, { e₁ with converting := cvt', convertQ := q }, ⟨he₁.owner, hq₂⟩, rfl, rfl, rfl⟩

end

end Cantian.Drc
