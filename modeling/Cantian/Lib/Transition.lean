import Mathlib.Logic.Function.Basic

/-!
# Runs of a partial step function

A system is given by a partial step function `step : σ → α → Option σ`:
`none` means that the action is not enabled in the state. A *run* is a
list of actions; `ReachableBy` collects the states reached by runs every
step of which also meets a side condition. Invariants are proved through
`ReachableBy.invariant`, so that the induction over runs is done once.
-/

namespace Cantian.Lib

open Option

variable {σ α : Type*}

/-- Execute a list of actions, `none` as soon as one is not enabled. -/
def run (step : σ → α → Option σ) : σ → List α → Option σ
  | s, [] => some s
  | s, a :: as => (step s a).bind fun t => run step t as

@[simp] lemma run_nil (step : σ → α → Option σ) (s : σ) : run step s [] = some s := rfl

@[simp] lemma run_cons (step : σ → α → Option σ) (s : σ) (a : α) (as : List α) :
    run step s (a :: as) = (step s a).bind fun t => run step t as := rfl

/-- The states reached from an initial state by steps that all meet `ok`. -/
inductive ReachableBy (step : σ → α → Option σ) (init : σ → Prop)
    (ok : σ → α → Prop) : σ → Prop where
  | init {s : σ} (h : init s) : ReachableBy step init ok s
  | step {s t : σ} {a : α} (hs : ReachableBy step init ok s) (hok : ok s a)
      (hst : step s a = some t) : ReachableBy step init ok t

/-- The states reached by arbitrary runs. -/
def Reachable (step : σ → α → Option σ) (init : σ → Prop) : σ → Prop :=
  ReachableBy step init fun _ _ => True

variable {s t : σ}

section
variable {step : σ → α → Option σ} {init : σ → Prop} {ok : σ → α → Prop}

/-- What holds initially and is kept by every admitted step holds in every
state that admitted steps reach. -/
lemma ReachableBy.invariant {P : σ → Prop} (h0 : ∀ s, init s → P s)
    (hstep : ∀ s a t, ok s a → P s → step s a = some t → P t) (h : ReachableBy step init ok s) :
    P s := by
  induction h with
  | init h => exact h0 _ h
  | step _ hok hst ih => exact hstep _ _ _ hok ih hst

/-- A weaker side condition admits more runs. -/
lemma ReachableBy.mono {ok'} (hok : ∀ s a, ok s a → ok' s a) (h : ReachableBy step init ok s) :
    ReachableBy step init ok' s := by
  induction h with
  | init h => exact .init h
  | step _ ho hst ih => exact .step ih (hok _ _ ho) hst

/-- A successful run of actions stays within the reachable states. -/
lemma Reachable.of_run (as : List α) (hs : Reachable step init s) (h : run step s as = some t) :
    Reachable step init t := by
  induction as generalizing s with
  | nil =>
    cases h
    exact hs
  | cons a as ih =>
    obtain ⟨u, hu, hrest⟩ := bind_eq_some_iff.mp h
    exact ih (.step hs trivial hu) hrest

end

/-- Execute a list of actions, each of which must also pass the check `ok`. -/
def runOk (step : σ → α → Option σ) (ok : σ → α → Bool) : σ → List α → Option σ
  | s, [] => some s
  | s, a :: as =>
    if ok s a then (step s a).bind fun t => runOk step ok t as else none

/-- A checked run stays within the states that admitted steps reach. -/
lemma ReachableBy.of_runOk {step init ok} (as : List α)
    (hs : ReachableBy step init (fun s a => ok s a = true) s) (h : runOk step ok s as = some t) :
    ReachableBy step init (fun s a => ok s a = true) t := by
  induction as generalizing s with
  | nil =>
    cases h
    exact hs
  | cons a as ih =>
    simp only [runOk] at h
    obtain ⟨hok, h⟩ := ite_none_right_eq_some.mp h
    obtain ⟨u, hu, hrest⟩ := bind_eq_some_iff.mp h
    exact ih (.step hs hok hu) hrest

/-- What a run computes is read off its final state. -/
lemma exists_of_run_map {β : Type*} (step : σ → α → Option σ) (s : σ) (as : List α) (f : σ → β)
    (b : β) (h : (run step s as).map f = some b) : ∃ t, run step s as = some t ∧ f t = b :=
  map_eq_some_iff.mp h

lemma exists_of_runOk_map {β : Type*} (step : σ → α → Option σ) (ok : σ → α → Bool) (s : σ)
    (as : List α) (f : σ → β) (b : β) (h : (runOk step ok s as).map f = some b) :
    ∃ t, runOk step ok s as = some t ∧ f t = b :=
  map_eq_some_iff.mp h

/-- What an update of one cell does not change. -/
lemma apply_update_eq {ι β γ : Type*} [DecidableEq ι] {g : ι → β} {i : ι} {b : β} {f : β → γ}
    (h : f b = f (g i)) (j : ι) : f (Function.update g i b j) = f (g j) := by
  rcases eq_or_ne j i with rfl | hj
  · rw [Function.update_self, h]
  · rw [Function.update_of_ne hj]

end Cantian.Lib
