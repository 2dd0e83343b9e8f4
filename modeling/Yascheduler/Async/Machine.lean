import Mathlib.Data.List.Basic

/-!
# Machines

A machine is given by what an action does to a state, if it is enabled there. A
run is a list of actions that are enabled one after the other.

The pool of coroutines is the machine of the scheduler. This one is for the few
components that are state machines of their own, without programs: a queue with
its waiters, a session with its monitors, the shutdown of a daemon. Their
actions are the pieces of code between two `await`s, and a run is any order of
these that the state allows.
-/

namespace Machine

variable {S A : Type} {step : S → A → Option S}

/-- The state after a list of actions; nothing, if one of them is not possible. -/
def run (step : S → A → Option S) (s : S) : List A → Option S
  | [] => some s
  | a :: actions => (step s a).bind fun s' => run step s' actions

@[simp] theorem run_nil (s : S) : run step s [] = some s := rfl

@[simp] theorem run_cons (s : S) (a : A) (actions : List A) :
    run step s (a :: actions) = (step s a).bind fun s' => run step s' actions := rfl

/-- **What every step keeps holds throughout a run.** By induction on the actions.
-/
theorem run_invariant {I : S → Prop} (hstep : ∀ s a s', I s → step s a = some s' → I s')
    {s s' : S} {actions : List A} (h : run step s actions = some s') (hs : I s) : I s' := by
  induction actions generalizing s with
  | nil =>
    obtain rfl := Option.some.inj h
    exact hs
  | cons a actions ih =>
    obtain ⟨next, hnext, hrun⟩ := Option.bind_eq_some_iff.mp h
    exact ih hrun (hstep s a next hs hnext)

/-- Every step of a run meets a condition. The condition sees the state before the
step and the one after it. -/
def Along (step : S → A → Option S) (cond : S → A → S → Prop) (s : S) : List A → Prop
  | [] => True
  | a :: actions => ∀ s', step s a = some s' → cond s a s' ∧ Along step cond s' actions

/-- One more step, before the others. -/
theorem Along.cons {cond : S → A → S → Prop} {s s' : S} {a : A} {actions : List A}
    (h : step s a = some s') (hcond : cond s a s') (hrest : Along step cond s' actions) :
    Along step cond s (a :: actions) := by
  intro next hnext
  obtain rfl := Option.some.inj (h.symm.trans hnext)
  exact ⟨hcond, hrest⟩

/-- **What every step that meets the condition keeps** holds throughout a run
whose steps all do. -/
theorem run_invariant_along {I : S → Prop} {cond : S → A → S → Prop}
    (hstep : ∀ s a s', I s → step s a = some s' → cond s a s' → I s')
    {s s' : S} {actions : List A} (h : run step s actions = some s')
    (hcond : Along step cond s actions) (hs : I s) : I s' := by
  induction actions generalizing s with
  | nil =>
    obtain rfl := Option.some.inj h
    exact hs
  | cons a actions ih =>
    obtain ⟨next, hnext, hrun⟩ := Option.bind_eq_some_iff.mp h
    obtain ⟨hmeets, hrest⟩ := hcond next hnext
    exact ih hrun hrest (hstep s a next hs hnext hmeets)

end Machine
