import Yascheduler.Async.Invariant

/-!
# The jobs of a run

The log of a pool says what its coroutines do, and not what they were started
for. For most properties that is how it should be: they hold whatever is
started. But a property can also depend on what somebody has asked for – on
the arguments of a command line, say – and then it is about the jobs that were
started in this run, and about no others.

`StepsOf` is a run together with these jobs. It is a run of the pool in which
all other jobs do nothing (`StepsOf.only`), so an invariance proof has to look
at the programs of the jobs that were started, and at no others.
-/

namespace Async

variable {S : Sig} {W T Λ J E : Type} [DecidableEq T]

/-- The job an action starts. -/
def Action.jobs : Action S T J E → List (T × J)
  | .spawn t j => [(t, j)]
  | _ => []

/-- **A run and the jobs that are started in it.** A run by itself does not say who
takes part. -/
inductive StepsOf [DecidableEq Λ] (H : Host S W T Λ J E)
    (C : W → List (Entry S T E) → Entry S T E → Prop) :
    List (T × J) → Pool S W T Λ E → Pool S W T Λ E → Prop where
  | refl (p) : StepsOf H C [] p p
  | tail {jobs p q q'} (a : Action S T J E) (h : StepsOf H C jobs p q)
      (hstep : q.step H a = some q')
      (hC : ∀ e, q'.log = e :: q.log → C q.world q.log e) :
      StepsOf H C (a.jobs ++ jobs) p q'

variable {H : Host S W T Λ J E}

open Classical in
/-- The host, with other jobs doing nothing. A run in which they are never started
does not notice. -/
noncomputable def Host.only (H : Host S W T Λ J E) (jobs : List (T × J)) :
    Host S W T Λ J E :=
  { H with program := fun t j => if (t, j) ∈ jobs then H.program t j else .ret () }

/-- What is true of the programs of the jobs, and of doing nothing, is true of
all programs. -/
theorem Host.only_program {jobs : List (T × J)} {P : T → Co S Unit → Prop}
    (hjobs : ∀ t j, (t, j) ∈ jobs → P t (H.program t j)) (hret : ∀ t, P t (.ret ()))
    (t : T) (j : J) : P t ((H.only jobs).program t j) := by
  unfold Host.only
  dsimp only
  split
  · exact hjobs t j ‹_›
  · exact hret t

variable [DecidableEq Λ] {C : W → List (Entry S T E) → Entry S T E → Prop}
  {p q : Pool S W T Λ E}

/-- Every run has its jobs. -/
theorem Steps.exists_jobs (h : Steps H C p q) : ∃ jobs, StepsOf H C jobs p q := by
  induction h with
  | refl => exact ⟨[], .refl _⟩
  | tail a _ hstep hC ih =>
    obtain ⟨jobs, h⟩ := ih
    exact ⟨_, .tail a h hstep hC⟩

/-- A step that starts only such jobs is the same there. -/
theorem Pool.step_only {jobs : List (T × J)} {a : Action S T J E} (ha : a.jobs ⊆ jobs) :
    p.step (H.only jobs) a = p.step H a := by
  cases a with
  | spawn t j =>
    have hmem : (t, j) ∈ jobs := ha (List.mem_singleton_self _)
    have hprog : (H.only jobs).program t j = H.program t j := if_pos hmem
    simp only [Pool.step]
    rw [hprog]
    rfl
  | _ => rfl

/-- **A run with these jobs is one in which others do nothing.** So whatever is
proved of all programs of the one host may be proved of these. -/
theorem StepsOf.only {jobs jobs' : List (T × J)} (h : StepsOf H C jobs p q)
    (hjobs : jobs ⊆ jobs') : Steps (H.only jobs') C p q := by
  induction h with
  | refl p => exact .refl p
  | tail a _ hstep hC ih =>
    obtain ⟨ha, hrest⟩ := List.append_subset.mp hjobs
    exact .tail a (ih hrest) ((Pool.step_only ha).trans hstep) hC

end Async
