import Yascheduler.Async.Invariant

/-!
# Scripted runs

A run can be described by saying which coroutine goes on, and for how many
steps, as long as nothing unusual happens to it; the unusual steps are given
as actions. A script that can be played is a run, and if every entry it
records passes a check, it is a run under the condition that is checked.

What a script is for is to show that a state can be reached: the counterexample
to an invariant that does not hold, or a run that meets the condition of one
that does. The usual steps of a coroutine are many and say nothing, so they are
driven by a number, and what stands out in a script is what is unusual about it.
The run is played by evaluation, so the proof that there is one is a
computation.
-/

namespace Async

variable {S : Sig} {W T Λ J E : Type} [DecidableEq T] [DecidableEq Λ]

/-- A move of a script. Driving a coroutine for several steps saves writing them out.
-/
inductive Move (S : Sig) (T J E : Type) where
  /-- one action -/
  | act (a : Action S T J E)
  /-- a coroutine goes on for a number of steps -/
  | drive (t : T) (n : Nat)

/-- How a script is played: what the outside world replies as long as nothing
unusual happens, and what is checked of every entry. A counterexample is a script
and a computation that plays it. -/
structure Script (S : Sig) (W T E : Type) where
  reply : S.Op → S.Choice
  check : W → List (Entry S T E) → Entry S T E → Bool := fun _ _ _ => true

namespace Script

variable (σ : Script S W T E) (H : Host S W T Λ J E)

/-- The usual next step of a coroutine: make the call, resolve the operation
as the reply says, resume. -/
def next (p : Pool S W T Λ E) (t : T) : Option (Action S T J E) :=
  match p.threads t with
  | some (.running _ _) => some (.exec t)
  | some (.waiting o _) => some (.perform t (σ.reply o))
  | some (.ready _ _ _) | some (.cancelling _ _) => some (.resume t)
  | _ => none

/-- One step, if the entry it records passes the check. -/
def step (p : Pool S W T Λ E) (a : Action S T J E) : Option (Pool S W T Λ E) :=
  (p.step H a).filter fun q => match q.log with
    | [] => true
    | e :: log => log.length != p.log.length || σ.check p.world p.log e

/-- Let a coroutine go on for a number of steps. -/
def drive (t : T) : Nat → Pool S W T Λ E → Option (Pool S W T Λ E)
  | 0, p => some p
  | n + 1, p => ((σ.next (J := J) p t).bind (σ.step H p)).bind (drive t n)

/-- Play a script. -/
def play : List (Move S T J E) → Pool S W T Λ E → Option (Pool S W T Λ E)
  | [], p => some p
  | .act a :: ms, p => (σ.step H p a).bind (play ms)
  | .drive t n :: ms, p => (σ.drive H t n p).bind (play ms)

variable {σ H} {p q : Pool S W T Λ E}

/-- The condition that is checked. It is decided at each step, so a run that was
played meets it. -/
abbrev condition (σ : Script S W T E) (w : W) (log : List (Entry S T E))
    (e : Entry S T E) : Prop := σ.check w log e = true

/-- A step that is played is a step of the pool, -/
theorem steps_of_step {a : Action S T J E} (h : σ.step H p a = some q) :
    Steps H σ.condition p q := by
  obtain ⟨hstep, hcheck⟩ := Option.filter_eq_some_iff.mp h
  refine Steps.tail a (.refl p) hstep fun e he => ?_
  rw [he] at hcheck
  simpa using hcheck

/-- and a coroutine that goes on is a run. -/
theorem steps_of_drive {t : T} {n : Nat} (h : σ.drive H t n p = some q) :
    Steps H σ.condition p q := by
  induction n generalizing p with
  | zero => cases h; exact .refl _
  | succ n ih =>
    simp only [drive, Option.bind_eq_some_iff] at h
    obtain ⟨r, ⟨a, _, hr⟩, hq⟩ := h
    exact (steps_of_step hr).trans (ih hq)

/-- **A script that can be played is a run** under the condition that is checked. By
induction on its moves. -/
theorem steps_of_play {ms : List (Move S T J E)} (h : σ.play H ms p = some q) :
    Steps H σ.condition p q := by
  induction ms generalizing p with
  | nil => cases h; exact .refl _
  | cons m ms ih =>
    cases m with
    | act a =>
      simp only [play, Option.bind_eq_some_iff] at h
      obtain ⟨r, hr, hq⟩ := h
      exact (steps_of_step hr).trans (ih hq)
    | drive t n =>
      simp only [play, Option.bind_eq_some_iff] at h
      obtain ⟨r, hr, hq⟩ := h
      exact (steps_of_drive hr).trans (ih hq)

/-- A state with a property, found by playing a script, is reachable. -/
theorem exists_of_play {ms : List (Move S T J E)} {b : Pool S W T Λ E → Bool}
    (h : ((σ.play H ms p).map b) = some true) :
    ∃ q, Steps H σ.condition p q ∧ b q = true := by
  cases hq : σ.play H ms p with
  | none => rw [hq] at h; cases h
  | some q =>
    rw [hq] at h
    exact ⟨q, steps_of_play hq, Option.some.inj h⟩

end Script

end Async
