import Cantian.Lib.Walk
import Cantian.Smon.Sound

/-!
# Deadlocks that the check finds

While no wait changes, the three loops of the check are followed one after
the other along the walk from the start session. It is said exactly which
cycles with a local session are found.
-/

namespace Cantian.Smon

open Lib Function List Option Sys Prod Sighting

/-- The session that session `v` waits for: it has the transaction, which is
not over. -/
def World.next (cfg : Config) (w : World) (v : Session) : Option Session :=
  match (w.sess v).wxid with
  | none => none
  | some x =>
    if sameTxn (w.dlock cfg v) (w.txn x.inst x.slot) then (w.dlock cfg v).target else none

/-- The check makes some steps, without a failure and while nothing changes. -/
def Goes (cfg : Config) (s t : Sys) : Prop :=
  ∃ k, run (step cfg) s (List.replicate k (.check .ok)) = some t

/-- The walk comes back for the first time at step `k`, to step `j`, and its
first local session from there on is the one of step `q`. -/
structure Enters (cfg : Config) (p : Nat → Session) (j k q : Nat) : Prop where
  lt : j < k
  back : p k = p j
  new : ∀ i < k, ∀ i' < i, p i' ≠ p i
  le : k ≤ q
  isLocal : (p q).1 = cfg.self
  remote : ∀ i, k ≤ i → i < q → (p i).1 ≠ cfg.self

/-- No session from step `k` to the local one at step `q` has the number of
the session of step `k`. -/
def NumberApart (p : Nat → Session) (k q : Nat) : Prop :=
  ∀ i, k < i → i ≤ q → (p i).2 ≠ (p k).2

/-- What the check needs to find the cycle: `dtc_smon_find_first_local_sid`
compares session numbers only, and an inactive start or candidate ends the
check. -/
structure Findable (w : World) (p : Nat → Session) (k q : Nat) : Prop where
  start : (w.sess (p 0)).status ≠ .inactive
  apart : NumberApart p k q
  candidate : (w.sess (p q)).status ≠ .inactive

section
variable {cfg : Config} {s t u : Sys} {w : World} {p : Nat → Session} {v : Session}
  {b i j k n m q : Nat} {rmid : Option Nat}

lemma Goes.refl (s : Sys) : Goes cfg s s := ⟨0, rfl⟩

lemma Goes.step (h : checkStep cfg s .ok = some t) (hrest : Goes cfg t u) : Goes cfg s u := by
  obtain ⟨k, hk⟩ := hrest
  refine ⟨k + 1, ?_⟩
  rw [replicate_succ, run_cons]
  show (checkStep cfg s .ok).bind _ = some u
  rw [h]
  exact hk

lemma Goes.trans (h : Goes cfg s t) (hrest : Goes cfg t u) : Goes cfg s u := by
  obtain ⟨k, hk⟩ := h
  induction k generalizing s with
  | zero =>
    cases hk
    exact hrest
  | succ k ih =>
    rw [replicate_succ, run_cons] at hk
    obtain ⟨s', hs', hk⟩ := bind_eq_some_iff.mp hk
    exact .step hs' (ih hk)

lemma Goes.done_unique {a b} (ha : Goes cfg s t) (hb : Goes cfg s u) (hta : t.pc = .done a)
    (hub : u.pc = .done b) : a = b := by
  have hstop : ∀ {s : Sys} {r : Option Nat}, s.pc = .done r → checkStep cfg s .ok = none := by
    intro s r hpc
    rw [checkStep, hpc]
  obtain ⟨k, hk⟩ := ha
  obtain ⟨m, hm⟩ := hb
  induction k generalizing s m with
  | zero =>
    cases hk
    cases m with
    | zero =>
      cases hm
      exact Pc.done.inj (hta.symm.trans hub)
    | succ m =>
      rw [replicate_succ, run_cons] at hm
      obtain ⟨_, hs', -⟩ := bind_eq_some_iff.mp hm
      cases (hstop hta).symm.trans hs'
  | succ k ih =>
    rw [replicate_succ, run_cons] at hk
    obtain ⟨s', hs', hk⟩ := bind_eq_some_iff.mp hk
    cases m with
    | zero =>
      cases hm
      cases (hstop hub).symm.trans hs'
    | succ m =>
      rw [replicate_succ, run_cons, hs'] at hm
      exact ih hk m hm

/-! ## The waits on the walk -/

lemma next_eq_some {u} (h : w.next cfg v = some u) : (w.dlock cfg v).target = some u ∧
      ∃ x, (w.dlock cfg v).wxid = some x ∧
        sameTxn (w.dlock cfg v) (w.txn x.inst x.slot) = true := by
  unfold World.next at h
  split at h
  · cases h
  · rename_i x hx
    obtain ⟨hsame, h⟩ := ite_none_right_eq_some.mp h
    exact ⟨h, x, hx, hsame⟩

/-- On a walk the next session is the one of the resource manager. -/
lemma walk_rm (hp : Walk (w.next cfg) p) (i : Nat) :
    rmOf cfg (p (i + 1)) (w.dlock cfg (p i)).wrmid := by
  obtain ⟨htarget, -⟩ := next_eq_some (hp i)
  obtain ⟨r, hr, hsid⟩ := World.dlock_rm htarget
  rw [rmOf, hr]
  exact hsid

lemma readWait_ok (hrm : rmOf cfg v rmid) (next : Dlock → Sys) :
    readWait cfg s v rmid .ok next = some (next (s.world.dlock cfg v)) := by
  unfold readWait
  rw [rmDlock_of_rmOf hrm]
  show some (next (rmDlock cfg s.world v.1 rmid)) = _
  rw [rmDlock_of_rmOf hrm]

lemma Enters.round (he : Enters cfg p j k q) : p (j + (k - j)) = p j := by
  rw [Nat.add_sub_cancel' he.lt.le]
  exact he.back

lemma Enters.exists (hp : Walk (w.next cfg) p) (hm : 0 < m) (hcycle : p (n + m) = p n) (hi : n ≤ i)
    (hlocal : (p i).1 = cfg.self) : ∃ j k q, Enters cfg p j k q := by
  classical
  obtain ⟨k, j, hj, hkj, hnew⟩ := Walk.first_repeat hcycle hm
  obtain ⟨i', hi', heq⟩ := hp.recur hcycle hm hi k
  have hex : ∃ i, k ≤ i ∧ (p i).1 = cfg.self := ⟨i', hi', heq ▸ hlocal⟩
  obtain ⟨hle, hself⟩ := Nat.find_spec hex
  exact ⟨j, k, Nat.find hex, hj, hkj, hnew, hle, hself, fun i hik hlt hloc =>
    Nat.find_min hex hlt ⟨hik, hloc⟩⟩

/-! ## The first loop -/

/-- The check has collected the first `k` waits of the walk. -/
structure Collecting (cfg : Config) (w : World) (p : Nat → Session) (k : Nat) (s : Sys) :
    Prop where
  world : s.world = w
  pc : ∃ rmid, s.pc = .collect (some (p k)) rmid ∧ rmOf cfg (p k) rmid
  shot : ∀ i < k, s.shot (p i) = w.dlock cfg (p i)
  rest : ∀ v, (∀ i < k, p i ≠ v) → s.shot v = .invalid

lemma Collecting.step (hp : Walk (w.next cfg) p) (hs : Collecting cfg w p k s)
    (hnew : ∀ i < k, p i ≠ p k) :
    ∃ t, checkStep cfg s .ok = some t ∧ Collecting cfg w p (k + 1) t := by
  obtain ⟨rmid, hpc, hrm⟩ := hs.pc
  have hunset : (s.shot (p k)).wsid = none := by
    rw [hs.rest _ hnew]
    rfl
  refine ⟨s.record cfg (p k) (w.dlock cfg (p k)), ?_, ?_⟩
  · simp only [checkStep, hpc, hunset, if_true]
    rw [readWait_ok hrm, hs.world]
  · obtain ⟨htarget, -⟩ := next_eq_some (hp k)
    refine ⟨hs.world, ⟨_, congrArg (Pc.collect · _) htarget, walk_rm hp k⟩, fun i hi => ?_,
      fun v hv => ?_⟩
    · show update s.shot (p k) _ (p i) = _
      by_cases hik : p i = p k
      · rw [hik, update_self]
      · have hlt : i < k := lt_of_le_of_ne (Nat.le_of_lt_succ hi) fun h => hik (congrArg p h)
        rw [update_of_ne hik, hs.shot i hlt]
    · show update s.shot (p k) _ v = _
      rw [update_of_ne fun h => hv k (Nat.lt_succ_self k) h.symm]
      exact hs.rest v fun i hi => hv i (Nat.lt_succ_of_lt hi)

lemma Collecting.run (hp : Walk (w.next cfg) p) (hs : Collecting cfg w p 0 s)
    (hnew : ∀ i < k, ∀ i' < i, p i' ≠ p i) : ∃ t, Goes cfg s t ∧ Collecting cfg w p k t := by
  induction k with
  | zero => exact ⟨s, .refl s, hs⟩
  | succ k ih =>
    obtain ⟨t, hgo, ht⟩ := ih fun i hi => hnew i (Nat.lt_succ_of_lt hi)
    obtain ⟨t', hstep, ht'⟩ := ht.step hp (hnew k (Nat.lt_succ_self k))
    exact ⟨t', hgo.trans (.step hstep (.refl t')), ht'⟩

/-! ## The second part -/

/-- All waits of the walk are collected. -/
structure Ready (cfg : Config) (w : World) (p : Nat → Session) (s : Sys) : Prop where
  world : s.world = w
  shot : ∀ i, s.shot (p i) = w.dlock cfg (p i)

lemma Collecting.ready (hp : Walk (w.next cfg) p) (hs : Collecting cfg w p k s) (hj : j < k)
    (hkj : p k = p j) : Ready cfg w p s := by
  refine ⟨hs.world, fun i => ?_⟩
  obtain ⟨i', hi', heq⟩ := hp.mem_before hj hkj i
  rw [← heq]
  exact hs.shot i' hi'

lemma Ready.goto {pc} (hs : Ready cfg w p s) : Ready cfg w p (s.goto pc) :=
  ⟨hs.world, hs.shot⟩

section
variable (hp : Walk (w.next cfg) p)
include hp

lemma Ready.target (hs : Ready cfg w p s) (i : Nat) :
    (s.shot (p i)).target = some (p (i + 1)) ∧ (s.shot (p i)).wsid = some (p (i + 1)).2 := by
  rw [hs.shot i]
  obtain ⟨htarget, -⟩ := next_eq_some (hp i)
  obtain ⟨-, -, -, hsid⟩ := Dlock.target_eq_some htarget
  exact ⟨htarget, hsid⟩

/-- One turn of the search after the session `p j`. -/
lemma Ready.locate_step (hs : Ready cfg w p s) (hpc : s.pc = .locate (p k) (p j)) :
    checkStep cfg s .ok = some
      (if (p (j + 1)).2 = (p k).2 then s.goto (.done none)
        else if (p (j + 1)).1 = cfg.self then s.goto (.candidate (p (j + 1)).2)
        else s.goto (.locate (p k) (p (j + 1)))) := by
  obtain ⟨htarget, hsid⟩ := hs.target hp j
  rw [checkStep, hpc]
  show some (s.locate cfg (p k) (p j)) = _
  unfold locate
  simp only [hsid, htarget, some.injEq]

/-- From a session of another node the first local session is found, unless
a session on the way to it has the number of the first one. -/
lemma Ready.locate (he : Enters cfg p i k q) {d} (hj : k ≤ j) (hq : j + d + 1 = q)
    (hpast : ∀ i, k < i → i ≤ j → (p i).2 ≠ (p k).2) (hs : Ready cfg w p s)
    (hpc : s.pc = .locate (p k) (p j)) : ∃ t, Goes cfg s t ∧ Ready cfg w p t ∧
      (NumberApart p k q ∧ t.pc = .candidate (p q).2 ∨ ¬NumberApart p k q ∧ t.pc = .done none) := by
  induction d generalizing j s with
  | zero =>
    subst hq
    have hstep := hs.locate_step hp hpc
    split_ifs at hstep with heq hself
    · exact ⟨_, .step hstep (.refl _), hs.goto,
        .inr ⟨fun h => h (j + 1) (by omega) (le_refl _) heq, rfl⟩⟩
    · refine ⟨_, .step hstep (.refl _), hs.goto, .inl ⟨fun i hi hij => ?_, rfl⟩⟩
      rcases Nat.lt_or_eq_of_le hij with hlt | rfl
      · exact hpast i hi (Nat.le_of_lt_succ hlt)
      · exact heq
    · exact absurd he.isLocal hself
  | succ d ih =>
    have hstep := hs.locate_step hp hpc
    rw [if_neg (he.remote (j + 1) (by omega) (by omega))] at hstep
    split_ifs at hstep with heq
    · exact ⟨_, .step hstep (.refl _), hs.goto,
        .inr ⟨fun h => h (j + 1) (by omega) (by omega) heq, rfl⟩⟩
    · obtain ⟨t, hgo, ht⟩ := ih (by omega : k ≤ j + 1) (by omega) (fun i hi hij => by
        rcases Nat.lt_or_eq_of_le hij with hlt | rfl
        · exact hpast i hi (Nat.le_of_lt_succ hlt)
        · exact heq) hs.goto rfl
      exact ⟨t, .step hstep hgo, ht⟩

/-- A wait of the cycle is read again, and its transaction. -/
lemma Ready.verify_step (hs : Ready cfg w p s) (hrm : rmOf cfg (p j) rmid)
    (hpc : s.pc = .verify b (p j) rmid) : ∃ t, Ready cfg w p t ∧ Goes cfg s
      (if (p (j + 1)).2 = b then t.goto (.done (some b))
        else t.goto (.verify b (p (j + 1)) (w.dlock cfg (p j)).wrmid)) := by
  obtain ⟨htarget, hsid⟩ := hs.target hp j
  obtain ⟨-, x, hx, htxn⟩ := next_eq_some (hp j)
  have hshot := hs.shot j
  refine ⟨(s.see (p j) (s.shot (p j))).goto (.snapshot b (p j) x), ⟨hs.world, hs.shot⟩, ?_⟩
  have hread : checkStep cfg s .ok =
      some ((s.see (p j) (s.shot (p j))).goto (.snapshot b (p j) x)) := by
    rw [checkStep, hpc]
    show readWait cfg s _ rmid .ok _ = _
    rw [readWait_ok hrm, hs.world, ← hshot]
    rw [← hshot] at hx
    simp [Sys.compare, Sys.see, Sys.goto, sameWait, hsid, hx]
  refine .step hread
    (.step (t := ((s.see (p j) (s.shot (p j))).goto _).switchNext b (p j) x) rfl ?_)
  have hsame : sameTxn (s.shot (p j)) (s.world.txn x.inst x.slot) = true := by
    rw [hshot, hs.world]
    exact htxn
  have hnext : ((s.see (p j) (s.shot (p j))).goto (.snapshot b (p j) x)).switchNext b (p j) x =
      if (p (j + 1)).2 = b then (s.see (p j) (s.shot (p j))).goto (.done (some b))
        else (s.see (p j) (s.shot (p j))).goto (.verify b (p (j + 1)) (s.shot (p j)).wrmid) := by
    simp [Sys.switchNext, Sys.goto, Sys.see, hsame, htarget]
  rw [hnext, hshot]
  exact .refl _

/-- The check goes on from a session of the cycle until it comes to a
session with the number it began at. -/
lemma Ready.verify (hlast : (p q).2 = b) {d} (hq : j + d + 1 = q) (hs : Ready cfg w p s)
    (hrm : rmOf cfg (p j) rmid) (hpc : s.pc = .verify b (p j) rmid) :
    ∃ t, Goes cfg s t ∧ t.pc = .done (some b) := by
  induction d generalizing j s rmid with
  | zero =>
    subst hq
    obtain ⟨t, ht, hgo⟩ := hs.verify_step hp hrm hpc
    rw [if_pos hlast] at hgo
    exact ⟨_, hgo, rfl⟩
  | succ d ih =>
    obtain ⟨t, ht, hgo⟩ := hs.verify_step hp hrm hpc
    by_cases hb : (p (j + 1)).2 = b
    · rw [if_pos hb] at hgo
      exact ⟨_, hgo, rfl⟩
    · rw [if_neg hb] at hgo
      obtain ⟨t', hgo', ht'⟩ := ih (by omega : j + 1 + d + 1 = q) ht.goto (walk_rm hp j) rfl
      exact ⟨t', hgo.trans hgo', ht'⟩

/-! ## The whole check -/

/-- The check finds the first local session of the cycle. -/
lemma Collecting.candidate (hs : Collecting cfg w p k s) (he : Enters cfg p j k q) :
    ∃ t, Goes cfg s t ∧ Ready cfg w p t ∧
      (NumberApart p k q ∧ t.pc = .candidate (p q).2 ∨ ¬NumberApart p k q ∧ t.pc = .done none) := by
  have hready := hs.ready hp he.lt he.back
  obtain ⟨rmid, hpc, -⟩ := hs.pc
  obtain ⟨-, hsid⟩ := hready.target hp k
  have hset : (s.shot (p k)).wsid ≠ none := by
    rw [hsid]
    exact some_ne_none _
  rcases Nat.eq_or_lt_of_le he.le with rfl | hkq
  · refine ⟨s.goto (.candidate (p k).2), .step ?_ (.refl _), hready.goto, .inl ⟨?_, rfl⟩⟩
    · simp only [checkStep, hpc, hset, he.isLocal, if_true, if_false]
    · intro i hi hik
      omega
  · have hremote : (p k).1 ≠ cfg.self := he.remote k (le_refl k) hkq
    have hstep : checkStep cfg s .ok = some (s.goto (.locate (p k) (p k))) := by
      simp only [checkStep, hpc, hset, hremote, if_false]
    obtain ⟨t, hgo, ht⟩ := Ready.locate hp he (le_refl k) (by omega : k + (q - k - 1) + 1 = q)
      (fun i hi hik => by omega) hready.goto rfl
    exact ⟨t, .step hstep hgo, ht⟩

/-- From an active candidate on, the whole cycle is seen again. -/
lemma Ready.flags (he : Enters cfg p j k q) (hs : Ready cfg w p s)
    (hact : (w.sess (p q)).status ≠ .inactive) (hpc : s.pc = .candidate (p q).2) :
    ∃ t, Goes cfg s t ∧ t.pc = .done (some (p q).2) := by
  have hpq : p q = (cfg.self, (p q).2) := Prod.ext he.isLocal rfl
  have hverify : checkStep cfg s .ok =
      some (s.goto (.verify (p q).2 (p q) (some (cfg.rmid (p q).2)))) := by
    rw [hpq, ← hs.world] at hact
    simp only [checkStep, hpc, hact, if_false]
    rw [← hpq]
  obtain ⟨q', hq', heq'⟩ := hp.recur he.round (Nat.sub_pos_of_lt he.lt) (he.lt.le.trans he.le)
    (q + 1)
  have hrm : rmOf cfg (p q) (some (cfg.rmid (p q).2)) := by
    rw [hpq]
    exact cfg.own _
  obtain ⟨t, hgo, hpc'⟩ := Ready.verify hp (congrArg snd heq')
    (by omega : q + (q' - q - 1) + 1 = q') hs.goto hrm rfl
  exact ⟨t, .step hverify hgo, hpc'⟩

end

/-- The check ends; it flags the first local session of the cycle exactly if
the cycle can be found. -/
lemma Enters.outcome {start} (he : Enters cfg p j k q) (hf : s.Fresh) (hpc : s.pc = .start start)
    (hp : Walk (s.world.next cfg) p) (hp0 : p 0 = (cfg.self, start)) :
    ∃ t r, Goes cfg s t ∧ t.pc = .done r ∧
      (Findable s.world p k q ∧ r = some (p q).2 ∨ ¬Findable s.world p k q ∧ r = none) := by
  by_cases hact0 : (s.world.sess (p 0)).status = .inactive
  · refine ⟨s.unmark start, none, .step ?_ (.refl _), rfl, .inr ⟨fun h => h.start hact0, rfl⟩⟩
    rw [hp0] at hact0
    simp only [checkStep, hpc, hact0, if_true]
  -- the first loop
  have hstart : checkStep cfg s .ok =
      some (s.goto (.collect (some (p 0)) (some (cfg.rmid start)))) := by
    have hact := hact0
    rw [hp0] at hact
    simp only [checkStep, hpc, hact, if_false, hp0]
  have hcoll : Collecting cfg s.world p 0
      (s.goto (.collect (some (p 0)) (some (cfg.rmid start)))) := by
    refine ⟨rfl, ⟨_, rfl, ?_⟩, fun i hi => absurd hi (Nat.not_lt_zero i), fun v _ => hf.shot v⟩
    rw [hp0]
    exact cfg.own start
  obtain ⟨s₁, hgo₁, hs₁⟩ := hcoll.run hp he.new
  -- the search for a local session
  obtain ⟨s₂, hgo₂, hs₂, ⟨hapart, hpc₂⟩ | ⟨hapart, hpc₂⟩⟩ := hs₁.candidate hp he
  · by_cases hact : (s.world.sess (p q)).status = .inactive
    · refine ⟨s₂.unmark (p q).2, none, .step hstart (hgo₁.trans (hgo₂.trans (.step ?_ (.refl _)))),
        rfl, .inr ⟨fun h => h.candidate hact, rfl⟩⟩
      rw [← hs₂.world, (Prod.ext he.isLocal rfl : p q = (cfg.self, (p q).2))] at hact
      simp only [checkStep, hpc₂, hact, if_true]
    -- the second loop
    · obtain ⟨s₃, hgo₃, hpc₃⟩ := hs₂.flags hp he hact hpc₂
      exact ⟨s₃, _, .step hstart (hgo₁.trans (hgo₂.trans hgo₃)), hpc₃,
        .inl ⟨⟨hact0, hapart, hact⟩, rfl⟩⟩
  · exact ⟨s₂, none, .step hstart (hgo₁.trans hgo₂), hpc₂, .inr ⟨fun h => hapart h.apart, rfl⟩⟩

/-- When the session numbers in the waits that the check reads give the node,
and with the resource manager and `xnum` the transaction, a session is
flagged only on a cycle of waits that were all seen again. While no wait
changes, a local session of a cycle that the walk comes to is flagged if and
only if the cycle can be found. -/
theorem check_flags_deadlocks (cfg : Config) (home : Nat → Inst) (slot : Nat → Nat → Nat → Nat) :
    (∀ s b, ReachableBy (step cfg) Sys.Fresh (fun s _ => readsNamed cfg home slot s = true) s →
      s.pc = .done (some b) → OnSeenCycle cfg s b) ∧
    (∀ (s : Sys) (start : Nat) (p : Nat → Session) (n m i : Nat), s.Fresh → s.pc = .start start →
      Walk (s.world.next cfg) p → p 0 = (cfg.self, start) → 0 < m → p (n + m) = p n → n ≤ i →
      (p i).1 = cfg.self →
      ((∃ t b, Goes cfg s t ∧ t.pc = .done (some b) ∧ ∃ j, n ≤ j ∧ p j = (cfg.self, b)) ↔
        ∃ j k q, Enters cfg p j k q ∧ Findable s.world p k q)) := by
  refine ⟨fun s b hs hpc => ?_, ?_⟩
  · have hknown := known_of_reachableBy hs
    rw [hpc] at hknown
    exact hknown
  · intro s start p n m i hf hpc hp hp0 hm hcycle hi hlocal
    constructor
    · rintro ⟨t, b, hgo, hdone, -⟩
      obtain ⟨j, k, q, he⟩ := Enters.exists hp hm hcycle hi hlocal
      obtain ⟨t', r, hgo', hdone', ⟨hfind, -⟩ | ⟨-, rfl⟩⟩ := he.outcome hf hpc hp hp0
      · exact ⟨j, k, q, he, hfind⟩
      · cases hgo.done_unique hgo' hdone hdone'
    · rintro ⟨j, k, q, he, hfind⟩
      obtain ⟨t, r, hgo, hdone, ⟨-, rfl⟩ | ⟨hnot, -⟩⟩ := he.outcome hf hpc hp hp0
      · obtain ⟨j', hj', heq⟩ := hp.recur he.round (Nat.sub_pos_of_lt he.lt)
          (he.lt.le.trans he.le) n
        exact ⟨t, _, hgo, hdone, j', hj', heq.trans (Prod.ext he.isLocal rfl)⟩
      · exact absurd hfind hnot

end

/-! ## Runs -/

/-- The check runs on node 0; the resource managers have the numbers of
their sessions. -/
def runConfig : Config := ⟨0, fun _ r => some r, fun sid => sid, fun _ => rfl⟩

/-- A session that waits for the transaction of `u`. -/
def waitsFor (u : Session) : Sess := ⟨.active, 10, some ⟨u.1, u.2, 7⟩, some u.2⟩

def idle : Sess := ⟨.active, 10, none, none⟩

/-- The transactions of all sessions run. -/
def runTxn (_ : Inst) (slot : Nat) : TxnSnapshot := ⟨some slot, 7, false⟩

def runStart (w : World) (sid : Nat) : Sys := ⟨w, .start sid, fun _ => .invalid, fun _ => false, []⟩

lemma runStart_fresh (w : World) (sid : Nat) : (runStart w sid).Fresh :=
  ⟨⟨sid, rfl⟩, fun _ => rfl, rfl⟩

/-- Session 3 of node 0 and session 5 of node 1 wait for each other. -/
def twoWaits : World where
  sess v := if v = (0, 3) then waitsFor (1, 5) else if v = (1, 5) then waitsFor (0, 3) else idle
  txn := runTxn

/-- The walk from session 3 of node 0. -/
def twoWalk (n : Nat) : Session := if n % 2 = 0 then (0, 3) else (1, 5)

lemma twoWalk_walk : Walk (twoWaits.next runConfig) twoWalk := by
  intro n
  rcases Nat.mod_two_eq_zero_or_one n with hn | hn
  · have hn' : (n + 1) % 2 = 1 := by omega
    simp only [twoWalk, hn, hn']
    decide
  · have hn' : (n + 1) % 2 = 0 := by omega
    simp only [twoWalk, hn, hn']
    decide

/-- A deadlock of two nodes is found, and its two waits were seen twice. -/
theorem check_flags_two_waits : (∃ s, s.pc = .done (some 3) ∧ OnSeenCycle runConfig s 3) ∧
    ∃ t b, Goes runConfig (runStart twoWaits 3) t ∧ t.pc = .done (some b) ∧
      ∃ j, 0 ≤ j ∧ twoWalk j = (0, b) := by
  obtain ⟨hsound, hcomplete⟩ := check_flags_deadlocks runConfig
    (fun sid => if sid = 5 then 1 else 0) (fun _ r _ => r)
  constructor
  · obtain ⟨s, hrun, hpc⟩ := exists_of_runOk_map (step runConfig)
      (fun s _ => readsNamed runConfig (fun sid => if sid = 5 then 1 else 0) (fun _ r _ => r) s)
      (runStart twoWaits 3) (replicate 9 (.check .ok)) pc (.done (some 3))
      (by decide +kernel)
    exact ⟨s, hpc, hsound s 3 (ReachableBy.of_runOk _ (.init (runStart_fresh _ _)) hrun) hpc⟩
  · refine (hcomplete (runStart twoWaits 3) 3 twoWalk 0 2 0 (runStart_fresh _ _) rfl twoWalk_walk
      rfl (by decide) rfl (le_refl 0) rfl).mpr ⟨0, 2, 2, ?_, by decide, fun i _ _ => ?_, by decide⟩
    · exact ⟨by decide, rfl, by decide, le_refl 2, rfl, fun i _ _ => by omega⟩
    · omega

/-- Sessions 5 of both nodes wait for each other, and session 3 of node 0
waits for session 5 of node 1. -/
def sameNumber : World where
  sess v :=
    if v = (0, 5) ∨ v = (0, 3) then waitsFor (1, 5)
    else if v = (1, 5) then waitsFor (0, 5) else idle
  txn := runTxn

/-- Session 5 of node 1 does not wait any more. -/
def oneWait : World where
  sess v := if v = (0, 5) ∨ v = (0, 3) then waitsFor (1, 5) else idle
  txn := runTxn

/-- The walk from session 3 of node 0. -/
def sameNumberWalk (n : Nat) : Session :=
  if n = 0 then (0, 3) else if n % 2 = 0 then (0, 5) else (1, 5)

lemma sameNumberWalk_walk : Walk (sameNumber.next runConfig) sameNumberWalk := by
  intro n
  rcases Nat.mod_two_eq_zero_or_one n with hn | hn
  · have hn' : (n + 1) % 2 = 1 := by omega
    rcases eq_or_ne n 0 with rfl | h0
    · decide
    · simp only [sameNumberWalk, hn, hn', h0, Nat.succ_ne_zero]
      decide
  · have hn' : (n + 1) % 2 = 0 := by omega
    have h0 : n ≠ 0 := by omega
    simp only [sameNumberWalk, hn, hn', h0, Nat.succ_ne_zero]
    decide

/-- A wait that was read once only is on no cycle of waits that were seen
again. -/
lemma not_onSeenCycle {s : Sys} (hs : s.sightings.map (fun x => (x.session, x.dlock.target)) =
      [((0, 5), some (1, 5)), ((1, 5), some (0, 5)), ((0, 5), some (1, 5))]) :
    ¬OnSeenCycle runConfig s 5 := by
  rintro ⟨pre, post, cyc, hsight, hne, hleads, hcyc⟩
  have htarget : ∀ x ∈ s.sightings, x.session = (0, 5) → x.dlock.target = some (1, 5) := by
    intro x hx hsess
    have hmem : (x.session, x.dlock.target) ∈
        s.sightings.map fun x => (x.session, x.dlock.target) := mem_map_of_mem hx
    rw [hs, hsess] at hmem
    simpa using hmem
  have hcount : (s.sightings.map session).count (1, 5) = 1 := by
    have hfst : s.sightings.map session =
        (s.sightings.map fun x => (x.session, x.dlock.target)).map fst := by
      rw [List.map_map]
      rfl
    rw [hfst, hs]
    decide
  -- the cycle begins with the wait of session 5 of node 0 and goes on with the other one
  match cyc, hne, hleads, hcyc with
  | (v, d) :: rest, _, hleads, hcyc =>
    obtain ⟨rfl, v', hd, hrest⟩ := hleads
    obtain ⟨x, hx, hsess, rfl, -⟩ := (hcyc (_, d) mem_cons_self).1
    have hv' := hd.symm.trans (htarget x (hsight ▸ mem_append_left post hx) hsess)
    cases hv'
    match rest, hrest, hcyc with
    | [], hrest, _ => cases hrest
    | (u, d') :: rest, hrest, hcyc =>
      obtain ⟨rfl, -⟩ := hrest
      have hboth := hcyc (_, d') (mem_cons_of_mem _ mem_cons_self)
      obtain ⟨⟨y, hy, hysess, -⟩, z, hz, hzsess, -⟩ := hboth
      have hpre : 0 < (pre.map session).count (1, 5) :=
        count_pos_iff.mpr (mem_map.mpr ⟨y, hy, hysess⟩)
      have hpost : 0 < (post.map session).count (1, 5) :=
        count_pos_iff.mpr (mem_map.mpr ⟨z, hz, hzsess⟩)
      rw [hsight, map_append, count_append] at hcount
      omega

/-- Sessions of two nodes have the same number. A session is flagged after
the other wait of the cycle is over, without a second look at it. And a
cycle that the walk comes to is not found, though nothing changes. -/
theorem check_confuses_nodes :
    (∃ s, Reachable (step runConfig) Sys.Fresh s ∧ s.pc = .done (some 5) ∧
      ¬OnSeenCycle runConfig s 5) ∧
    ∃ s t, s.Fresh ∧ s.pc = .start 3 ∧ Walk (s.world.next runConfig) sameNumberWalk ∧
      sameNumberWalk 0 = (0, 3) ∧ sameNumberWalk (1 + 2) = sameNumberWalk 1 ∧
      sameNumberWalk 2 = (0, 5) ∧ (s.world.sess (0, 5)).status = .active ∧
      Goes runConfig s t ∧ t.pc = .done none := by
  constructor
  · obtain ⟨s, hrun, hs⟩ := exists_of_run_map (step runConfig) (runStart sameNumber 5)
      (replicate 4 (.check .ok) ++ .change oneWait :: replicate 3 (.check .ok))
      (fun s => (s.pc, s.sightings.map fun x => (x.session, x.dlock.target)))
      (.done (some 5), [((0, 5), some (1, 5)), ((1, 5), some (0, 5)), ((0, 5), some (1, 5))])
      (by decide +kernel)
    obtain ⟨hpc, hs⟩ := mk.inj hs
    exact ⟨s, .of_run _ (.init (runStart_fresh _ _)) hrun, hpc, not_onSeenCycle hs⟩
  · obtain ⟨t, hrun, hpc⟩ := exists_of_run_map (step runConfig) (runStart sameNumber 3)
      (replicate 6 (.check .ok)) pc (.done none) (by decide +kernel)
    exact ⟨runStart sameNumber 3, t, runStart_fresh _ _, rfl, sameNumberWalk_walk, rfl, rfl, rfl,
      rfl, ⟨6, hrun⟩, hpc⟩

end Cantian.Smon
