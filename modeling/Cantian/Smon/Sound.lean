import Cantian.Smon.DeadLock

/-!
# Sessions that the check flags

The check takes the session that it comes to for the one it began at when
the session numbers are equal, and it does not look at the node. It also
compares the waits without the `xmap` of the transaction. Where neither
makes a difference in what it reads, a session that is flagged lies on a
cycle of waits that were all seen again after all of them were collected.
-/

namespace Cantian.Smon

open Lib List Option Bool Dlock

/-- The waits in the list lead from `v` to `u`. -/
def Leads : Session → List (Session × Dlock) → Session → Prop
  | v, [], u => v = u
  | v, (v', d) :: l, u => v' = v ∧ ∃ v'', d.target = some v'' ∧ Leads v'' l u

/-- The check saw the wait `d` of session `v`, and it was its wait. -/
def Saw (cfg : Config) (l : List Sighting) (v : Session) (d : Dlock) : Prop :=
  ∃ x ∈ l, x.session = v ∧ x.dlock = d ∧ x.world.dlock cfg v = d

/-- The local session `b` is on a cycle of waits that were all seen, and
were all seen again, unchanged, after that. -/
def OnSeenCycle (cfg : Config) (s : Sys) (b : Nat) : Prop :=
  ∃ pre post cyc, s.sightings = pre ++ post ∧ cyc ≠ [] ∧
    Leads (cfg.self, b) cyc (cfg.self, b) ∧
    ∀ x ∈ cyc, Saw cfg pre x.1 x.2 ∧ Saw cfg post x.1 x.2

/-- The number of the session that is waited for gives its node, and with
the resource manager and `xnum` it gives the transaction. -/
def named (home : Nat → Inst) (slot : Nat → Nat → Nat → Nat) (d : Dlock) : Bool :=
  match d.wxid, d.wsid, d.wrmid with
  | some x, some sid, some r => home sid == x.inst && slot x.xnum r sid == x.slot
  | _, _, _ => true

/-- The session whose wait the check reads next, and its resource manager. -/
def Pc.reads : Pc → Option (Session × Option Nat)
  | .collect (some v) rmid => some (v, rmid)
  | .verify _ v rmid => some (v, rmid)
  | _ => none

/-- The wait that the check reads next is for a session and a transaction
that the numbers give. -/
def readsNamed (cfg : Config) (home : Nat → Inst) (slot : Nat → Nat → Nat → Nat) (s : Sys) : Bool :=
  s.pc.reads.all fun x => named home slot (rmDlock cfg s.world x.1.1 x.2)

section
variable {cfg : Config} {home : Nat → Inst} {slot : Nat → Nat → Nat → Nat} {s t : Sys}
  {l l' : List Sighting} {v u : Session} {d : Dlock} {w : World}

/-! ## Waits -/

lemma Leads.append {cyc v0} (h : Leads v0 cyc v) (hd : d.target = some u) :
    Leads v0 (cyc ++ [(v, d)]) u := by
  induction cyc generalizing v0 with
  | nil =>
    obtain rfl : v0 = v := h
    exact ⟨rfl, u, hd, rfl⟩
  | cons x cyc ih =>
    obtain ⟨hv, v', hd', hrest⟩ := h
    exact ⟨hv, v', hd', ih hrest⟩

lemma Saw.mono (h : Saw cfg l v d) (hsub : l ⊆ l') : Saw cfg l' v d := by
  obtain ⟨x, hx, hsaw⟩ := h
  exact ⟨x, hsub hx, hsaw⟩

lemma Dlock.target_eq_some (h : d.target = some u) :
    ∃ x, d.wxid = some x ∧ x.inst = u.1 ∧ d.wsid = some u.2 := by
  obtain ⟨lsn, wxid, wsid, wrmid⟩ := d
  cases wxid with
  | none => cases h
  | some x =>
    cases wsid with
    | none => cases h
    | some =>
      cases h
      exact ⟨x, rfl, rfl, rfl⟩

/-- A session that is waited for is the one of the resource manager. -/
lemma World.dlock_rm (h : (w.dlock cfg v).target = some u) :
    ∃ r, (w.dlock cfg v).wrmid = some r ∧ cfg.rmSid u.1 r = some u.2 := by
  obtain ⟨x, hx, hinst, hsid⟩ := target_eq_some h
  have hx : (w.sess v).wxid = some x := hx
  have hsid : getRmSid cfg (w.sess v).wxid (w.sess v).wrmid = some u.2 := hsid
  show ∃ r, (w.sess v).wrmid = some r ∧ _
  cases hr : (w.sess v).wrmid with
  | none =>
    rw [hx, hr] at hsid
    cases hsid
  | some r =>
    rw [hx, hr] at hsid
    exact ⟨r, rfl, hinst ▸ hsid⟩

lemma named_target {r} (hn : named home slot d = true) (ht : d.target = some u)
    (hr : d.wrmid = some r) :
    home u.2 = u.1 ∧ ∃ x, d.wxid = some x ∧ x.inst = u.1 ∧ slot x.xnum r u.2 = x.slot := by
  obtain ⟨x, hx, hinst, hsid⟩ := target_eq_some ht
  simp only [named, hx, hsid, hr, and_eq_true, beq_iff_eq] at hn
  exact ⟨hn.1.trans hinst, x, hx, hinst, hn.2⟩

lemma eq_of_sameWait {c d r} (hc : named home slot c = true) (hd : named home slot d = true)
    (hsame : sameWait c d = true) (ht : d.target = some u) (hr : d.wrmid = some r) : c = d := by
  obtain ⟨clsn, cxid, csid, crmid⟩ := c
  obtain ⟨dlsn, dxid, dsid, drmid⟩ := d
  simp only [sameWait, and_eq_true, beq_iff_eq] at hsame
  obtain ⟨⟨⟨rfl, rfl⟩, rfl⟩, hxnum⟩ := hsame
  obtain ⟨-, x, rfl, hinst, hslot⟩ := named_target hd ht hr
  obtain ⟨x', rfl, hx'⟩ := map_eq_some_iff.mp hxnum
  have ht' : target ⟨clsn, some x', csid, crmid⟩ = some (x'.inst, u.2) := by
    obtain ⟨-, -, -, hsid⟩ := target_eq_some ht
    simp only [target] at hsid ⊢
    rw [hsid]
  obtain ⟨hhome, x'', hx'', -, hslot'⟩ := named_target hc ht' hr
  cases hx''
  obtain ⟨hhome', -⟩ := named_target hd ht hr
  have heq : x' = x := by
    obtain ⟨i, k, n⟩ := x
    obtain ⟨i', k', n'⟩ := x'
    obtain rfl : n' = n := hx'
    have hi : i' = i := hhome.symm.trans (hhome'.trans hinst.symm)
    have hk : k' = k := hslot'.symm.trans hslot
    rw [hi, hk]
  rw [heq]

/-! ## What the check knows -/

/-- The collected waits were all seen in `pre`. -/
def Collected (cfg : Config) (home : Nat → Inst) (slot : Nat → Nat → Nat → Nat) (s : Sys)
    (pre : List Sighting) : Prop :=
  ∀ v u, (s.shot v).target = some u →
    Saw cfg pre v (s.shot v) ∧ named home slot (s.shot v) = true

/-- The waits from the local session `b` to `v` were collected and seen
again. -/
def SeenAgain (cfg : Config) (home : Nat → Inst) (slot : Nat → Nat → Nat → Nat) (s : Sys)
    (b : Nat) (v : Session) (final : List Sighting → Prop) : Prop :=
  ∃ pre post cyc, s.sightings = pre ++ post ∧ Collected cfg home slot s pre ∧
    Leads (cfg.self, b) cyc v ∧ (∀ x ∈ cyc, Saw cfg pre x.1 x.2 ∧ Saw cfg post x.1 x.2) ∧
    final post

/-- The resource manager belongs to session `v`. -/
def rmOf (cfg : Config) (v : Session) (rmid : Option Nat) : Prop :=
  rmid.bind (cfg.rmSid v.1) = some v.2

def Known (cfg : Config) (home : Nat → Inst) (slot : Nat → Nat → Nat → Nat) (s : Sys) : Pc → Prop
  | .start _ => ∀ v, s.shot v = .invalid
  | .collect v rmid =>
    Collected cfg home slot s s.sightings ∧
      ∀ u, v = some u → rmOf cfg u rmid ∧ ((s.shot u).wsid ≠ none → home u.2 = u.1)
  | .locate _ _ => Collected cfg home slot s s.sightings
  | .candidate b => Collected cfg home slot s s.sightings ∧ home b = cfg.self
  | .verify b v rmid =>
    home b = cfg.self ∧ rmOf cfg v rmid ∧ SeenAgain cfg home slot s b v fun _ => True
  | .snapshot b v _ =>
    home b = cfg.self ∧ SeenAgain cfg home slot s b v fun post => Saw cfg post v (s.shot v)
  | .done none => True
  | .done (some b) => OnSeenCycle cfg s b

variable {rmid : Option Nat}

lemma rmDlock_of_rmOf (h : rmOf cfg v rmid) : rmDlock cfg w v.1 rmid = w.dlock cfg v := by
  unfold rmDlock
  rw [h]

/-- A collected wait leads to a session that its number gives, and to its
resource manager. -/
lemma Collected.target (hc : Collected cfg home slot s l) (ht : (s.shot v).target = some u) :
    home u.2 = u.1 ∧ rmOf cfg u (s.shot v).wrmid := by
  obtain ⟨⟨x, -, -, -, hx⟩, hnamed⟩ := hc v u ht
  rw [← hx] at ht hnamed ⊢
  obtain ⟨r, hr, hsid⟩ := World.dlock_rm ht
  refine ⟨(named_target hnamed ht hr).1, ?_⟩
  rw [rmOf, hr]
  exact hsid

/-- What a read of the wait of `v` gives: its wait, or nothing that leads
anywhere. -/
lemma readWait_cases {ans next} (hrm : rmOf cfg v rmid)
    (h : readWait cfg s v rmid ans next = some t) :
    t = s.goto (.done none) ∨
      ∃ d, t = next d ∧ (d = s.world.dlock cfg v ∨ d.wsid = none) := by
  unfold readWait at h
  split at h
  · cases h
  rw [getTxnDlock.eq_def] at h
  cases ans with
  | ok =>
    cases h
    exact .inr ⟨_, rfl, .inl (rmDlock_of_rmOf hrm)⟩
  | noSid =>
    cases h
    exact .inr ⟨_, rfl, .inr rfl⟩
  | lost =>
    cases h
    exact .inl rfl

lemma target_of_wsid_none (h : d.wsid = none) : d.target = none := by
  cases ht : d.target with
  | none => rfl
  | some =>
    obtain ⟨-, -, -, hsid⟩ := target_eq_some ht
    cases h.symm.trans hsid

/-! ## One step -/

lemma Known.record (h : Known cfg home slot s (.collect (some v) rmid))
    (hd : d = s.world.dlock cfg v ∨ d.wsid = none)
    (hnamed : named home slot (s.world.dlock cfg v) = true) :
    Known cfg home slot (s.record cfg v d) (.collect d.target d.wrmid) := by
  obtain ⟨hcoll, -⟩ := h
  have hwait : ∀ u, d.target = some u → d = s.world.dlock cfg v := by
    intro u hu
    refine hd.resolve_right fun hnone => ?_
    cases (target_of_wsid_none hnone).symm.trans hu
  have hcoll' : Collected cfg home slot (s.record cfg v d) (s.record cfg v d).sightings := by
    intro v' u hu
    by_cases hv : v' = v
    · subst hv
      have hshot : (s.record cfg v' d).shot v' = d := Function.update_self ..
      rw [hshot] at hu ⊢
      have hdw := hwait u hu
      refine ⟨⟨⟨s.world, v', d⟩, mem_append_right _ (mem_singleton_self _), rfl, rfl, hdw.symm⟩, ?_⟩
      rw [hdw]
      exact hnamed
    · have hshot : (s.record cfg v d).shot v' = s.shot v' := Function.update_of_ne hv ..
      rw [hshot] at hu ⊢
      obtain ⟨hsaw, hn⟩ := hcoll v' u hu
      exact ⟨hsaw.mono (subset_append_left _ _), hn⟩
  refine ⟨hcoll', fun u hu => ?_⟩
  have hshot : (s.record cfg v d).shot v = d := Function.update_self ..
  have ht : ((s.record cfg v d).shot v).target = some u := by rw [hshot, hu]
  obtain ⟨hhome, hrm⟩ := hcoll'.target ht
  rw [hshot] at hrm
  exact ⟨hrm, fun _ => hhome⟩

lemma Known.compare {b} (h : Known cfg home slot s (.verify b v rmid))
    (hd : d = s.world.dlock cfg v ∨ d.wsid = none)
    (hnamed : named home slot (s.world.dlock cfg v) = true) :
    Known cfg home slot (s.compare b v d) (s.compare b v d).pc := by
  obtain ⟨hhome, -, pre, post, cyc, hsight, hcoll, hleads, hcyc, -⟩ := h
  unfold Sys.compare
  simp only
  split
  · trivial
  rename_i hsid
  split
  · trivial
  rename_i hsame
  rw [not_eq_true, not_eq_false'] at hsame
  split
  · trivial
  rename_i x hx
  have hdw := hd.resolve_right hsid
  -- the wait leads to a session, so it is the collected one
  obtain ⟨sid, hsid⟩ := ne_none_iff_exists'.mp hsid
  have ht : d.target = some (x.inst, sid) := by
    rw [target, hx, hsid]
  have hshot : s.shot v = d := by
    obtain ⟨r, hr, -⟩ := World.dlock_rm (hdw ▸ ht)
    rw [← hdw] at hnamed hr
    refine eq_of_sameWait ?_ hnamed hsame ht hr
    obtain ⟨x', hx', hxnum⟩ : ∃ x', (s.shot v).wxid = some x' ∧ x'.xnum = x.xnum := by
      simp only [sameWait, and_eq_true, beq_iff_eq, hx] at hsame
      exact map_eq_some_iff.mp hsame.2
    have hsid' : (s.shot v).wsid = some sid := by
      simp only [sameWait, and_eq_true, beq_iff_eq] at hsame
      exact hsame.1.1.1.trans hsid
    have ht' : (s.shot v).target = some (x'.inst, sid) := by
      rw [target, hx', hsid']
    exact (hcoll v _ ht').2
  refine ⟨hhome, pre, post ++ [⟨s.world, v, d⟩], cyc, ?_, hcoll, hleads, fun y hy => ?_, ?_⟩
  · show s.sightings ++ _ = _
    rw [hsight, append_assoc]
  · exact ⟨(hcyc y hy).1, (hcyc y hy).2.mono (subset_append_left _ _)⟩
  · refine ⟨⟨s.world, v, d⟩, mem_append_right _ (mem_singleton_self _), rfl, ?_⟩
    show d = s.shot v ∧ s.world.dlock cfg v = s.shot v
    rw [hshot]
    exact ⟨rfl, hdw.symm⟩

lemma Known.switchNext {b x} (h : Known cfg home slot s (.snapshot b v x)) :
    Known cfg home slot (s.switchNext b v x) (s.switchNext b v x).pc := by
  obtain ⟨hhome, pre, post, cyc, hsight, hcoll, hleads, hcyc, hagain⟩ := h
  unfold Sys.switchNext
  split
  · trivial
  split
  · trivial
  rename_i u hu
  obtain ⟨hhome', hrm⟩ := hcoll.target hu
  have hleads' := hleads.append hu
  have hcyc' : ∀ y ∈ cyc ++ [(v, s.shot v)], Saw cfg pre y.1 y.2 ∧ Saw cfg post y.1 y.2 :=
    forall_mem_append.mpr ⟨hcyc, forall_mem_singleton.mpr (⟨(hcoll v u hu).1, hagain⟩)⟩
  split_ifs with hb
  · -- the number gives the node, so this is the session the check began at
    have hu' : u = (cfg.self, b) := Prod.ext (by rw [← hhome', hb, hhome]) hb
    refine ⟨pre, post, cyc ++ [(v, s.shot v)], hsight, by simp, ?_, hcyc'⟩
    rw [hu'] at hleads'
    exact hleads'
  · exact ⟨hhome, hrm, pre, post, _, hsight, hcoll, hleads', hcyc', trivial⟩

lemma Known.locate {entry} (h : Collected cfg home slot s s.sightings) :
    Known cfg home slot (s.locate cfg entry v) (s.locate cfg entry v).pc := by
  unfold Sys.locate
  split
  · trivial
  split
  · trivial
  rename_i u hu
  split_ifs with hself
  · exact ⟨h, (h.target hu).1.trans hself⟩
  · exact h

lemma Known.check {ans} (h : Known cfg home slot s s.pc) (hok : readsNamed cfg home slot s = true)
    (hstep : checkStep cfg s ans = some t) : Known cfg home slot t t.pc := by
  unfold checkStep at hstep
  split at hstep
  · rename_i sid hpc
    rw [hpc] at h
    split at hstep
    · cases hstep
      trivial
    cases hstep
    refine ⟨fun v u hu => ?_, fun u hu => ?_⟩
    · have hinv : s.shot v = .invalid := h v
      change (s.shot v).target = some u at hu
      rw [hinv] at hu
      cases hu
    · cases hu
      refine ⟨cfg.own sid, fun hne => absurd ?_ hne⟩
      show (s.shot _).wsid = none
      rw [h]
      rfl
  · cases hstep
    trivial
  · rename_i v rmid hpc
    rw [hpc] at h
    obtain ⟨hcoll, hv⟩ := h
    obtain ⟨hrm, hhome⟩ := hv v rfl
    split at hstep
    · rcases readWait_cases hrm hstep with rfl | ⟨d, rfl, hd⟩
      · trivial
      · simp only [readsNamed, hpc, Pc.reads, all_some, rmDlock_of_rmOf hrm] at hok
        exact Known.record ⟨hcoll, hv⟩ hd hok
    · rename_i hset
      split_ifs at hstep with hself
      · cases hstep
        exact ⟨hcoll, (hhome hset).trans hself⟩
      · cases hstep
        exact hcoll
  · rename_i entry v hpc
    rw [hpc] at h
    cases hstep
    exact Known.locate h
  · rename_i b hpc
    rw [hpc] at h
    obtain ⟨hcoll, hhome⟩ := h
    split at hstep
    · cases hstep
      trivial
    · cases hstep
      refine ⟨hhome, cfg.own b, s.sightings, [], [], ?_, hcoll, rfl, fun x hx => ?_, trivial⟩
      · exact (append_nil _).symm
      · cases hx
  · rename_i b v rmid hpc
    rw [hpc] at h
    obtain ⟨hhome, hrm, hseen⟩ := h
    rcases readWait_cases hrm hstep with rfl | ⟨d, rfl, hd⟩
    · trivial
    · simp only [readsNamed, hpc, Pc.reads, all_some, rmDlock_of_rmOf hrm] at hok
      exact Known.compare ⟨hhome, hrm, hseen⟩ hd hok
  · rename_i b v x hpc
    rw [hpc] at h
    cases hstep
    exact Known.switchNext h
  · cases hstep

lemma known_of_reachableBy
    (hs : ReachableBy (step cfg) Sys.Fresh (fun s _ => readsNamed cfg home slot s = true) s) :
    Known cfg home slot s s.pc := by
  refine hs.invariant (P := fun s => Known cfg home slot s s.pc) (fun s hf => ?_)
    fun s a t hok hk hstep => ?_
  · obtain ⟨sid, hpc⟩ := hf.pc
    rw [hpc]
    exact hf.shot
  · cases a with
    | change =>
      cases hstep
      exact hk
    | check => exact hk.check hok hstep

end

end Cantian.Smon
