import Yascheduler.Domain

/-!
# The lifecycle of a task

The transitions of a task whose state is only known at run time. Each method
first looks at the state and raises when it is not the one it starts from; a
caller that catches the error still has the task it had, since tasks are
values.

What the transitions are for is an automaton with three stages, `Stage`: a
task waits, runs on a node, or has ended. The automaton knows nothing of
tasks – it reads a sequence of transitions, skips those that are not legal
where they stand, and writes down what happened. `performAll_spec` says
that the methods follow it: after any sequence of calls, the state of the task
is the stage of the automaton, and the events the task carries are those it
started with followed by what the automaton wrote down.
-/

namespace Yascheduler

/-! ## Transitions

A method is called on a task in any state, and looks at the state before it
does anything. There are two errors, one for the methods that need a task that
waits and one for those that need a running one, and each names the task. -/

/-- A call of a transition method, with its arguments. The arguments are part of it,
so that a sequence of calls is a list. -/
inductive Transition where
  | run (nodeId : NodeId) (remoteFolder : String)
  | reject (reason : String)
  | complete (localFolder remoteFolder : String)
  | fail (reason localFolder remoteFolder : String)
  | abandon (error : String)
deriving DecidableEq

namespace Transition

/-- The status a transition is legal from. -/
def source : Transition → TaskStatus
  | .run _ _ | .reject _ => .toDo
  | .complete _ _ | .fail _ _ _ | .abandon _ => .running

/-- The status a transition leads to. -/
def target : Transition → TaskStatus
  | .run _ _ => .running
  | .reject _ | .complete _ _ | .fail _ _ _ | .abandon _ => .done

/-- The error a transition raises where it is not legal. -/
def refusal (t : TaskId) (x : Transition) : Exc :=
  match x.source with
  | .toDo => .taskNotTodo t
  | _ => .taskNotRunning t

end Transition

/-- `TaskStatus.value`. -/
def TaskStatus.value : TaskStatus → Nat
  | .toDo => 0
  | .running => 1
  | .done => 2

/-- **Every transition moves the status forward.** It is what makes the statuses an
order, and is used for tasks and for the automaton. -/
theorem Transition.source_lt_target (x : Transition) :
    x.source.value < x.target.value := by
  cases x <;> simp [source, target, TaskStatus.value]

namespace AnyTask

/-- Call a method that is legal from `Todo`. -/
def fromTodo (t : AnyTask) (method : TodoTask → AnyTask) : Except Exc AnyTask :=
  match t.todo? with
  | some task => .ok (method task)
  | none => .error (.taskNotTodo t.taskId)

/-- Call a method that is legal from `Running`. -/
def fromRunning (t : AnyTask) (method : RunningTask → AnyTask) : Except Exc AnyTask :=
  match t.running? with
  | some task => .ok (method task)
  | none => .error (.taskNotRunning t.taskId)

/-- A transition method, called on a task in any state. -/
def transition (t : AnyTask) : Transition → Except Exc AnyTask
  | .run n folder => t.fromTodo fun task => (task.run n folder).anyRunning
  | .reject reason => t.fromTodo fun task => (task.reject reason).anyDone
  | .complete loc folder =>
    t.fromRunning fun task => (task.complete loc folder).anyDone
  | .fail reason loc folder =>
    t.fromRunning fun task => (task.fail reason loc folder).anyDone
  | .abandon error => t.fromRunning fun task => (task.abandon error).anyDone

/-- What the caller has after a call: the new task, or the old one when the
call raised. -/
def perform (t : AnyTask) (x : Transition) : AnyTask :=
  match t.transition x with
  | .ok t' => t'
  | .error _ => t

/-- What the caller has after a sequence of calls. -/
def performAll (t : AnyTask) (xs : List Transition) : AnyTask :=
  xs.foldl perform t

@[simp] theorem performAll_nil (t : AnyTask) : t.performAll [] = t := rfl

@[simp] theorem performAll_cons (t : AnyTask) (x : Transition) (xs : List Transition) :
    t.performAll (x :: xs) = (t.perform x).performAll xs := rfl

theorem performAll_append (t : AnyTask) (xs ys : List Transition) :
    t.performAll (xs ++ ys) = (t.performAll xs).performAll ys :=
  List.foldl_append

end AnyTask

/-! ## The automaton

The automaton is stated without tasks, so that it can be read without them. A
stage remembers on which node the task runs, because the event of an
abandonment has to name it, and nothing else. -/

/-- Where a task stands. There are three stages, as there are three statuses. -/
inductive Stage where
  | waiting
  | running (nodeId : NodeId)
  | ended
deriving DecidableEq

namespace Stage

/-- What a transition does in a stage, and what there is to tell about it;
`none` where it is not legal. -/
def read (engine : String) : Stage → Transition → Option (Stage × EventKind)
  | .waiting, .run n _ => some (.running n, .taskAllocated n engine)
  | .waiting, .reject reason => some (.ended, .taskFailed reason)
  | .running _, .complete loc _ => some (.ended, .taskCompleted loc)
  | .running _, .fail reason _ _ => some (.ended, .taskFailed reason)
  | .running n, .abandon _ => some (.ended, .taskAbandoned n)
  | _, _ => none

/-- The trace of the legal transitions of a sequence. -/
def trace (engine : String) (s : Stage) : List Transition → List EventKind
  | [] => []
  | x :: xs =>
    match s.read engine x with
    | some (s', kind) => kind :: s'.trace engine xs
    | none => s.trace engine xs

/-- The stage a sequence leads to. -/
def after (engine : String) (s : Stage) : List Transition → Stage
  | [] => s
  | x :: xs =>
    match s.read engine x with
    | some (s', _) => s'.after engine xs
    | none => s.after engine xs

/-- The status of a stage. -/
def status : Stage → TaskStatus
  | .waiting => .toDo
  | .running _ => .running
  | .ended => .done

/-- **What is legal** – a transition is read where its source is the status
of the stage, and leads to its target. -/
theorem read_eq_none_iff (engine : String) (s : Stage) (x : Transition) :
    s.read engine x = none ↔ s.status ≠ x.source := by
  cases s <;> cases x <;> simp [read, status, Transition.source]

theorem read_status {engine : String} {s s' : Stage} {x : Transition}
    {kind : EventKind} (h : s.read engine x = some (s', kind)) :
    s.status = x.source ∧ s'.status = x.target := by
  cases s <;> cases x <;> simp_all [read, status, Transition.source, Transition.target]
  all_goals exact h.1 ▸ rfl

/-- **The automaton never moves back.** By induction on the transitions; one that is
not legal is skipped and moves nothing. -/
theorem status_le_after (engine : String) (xs : List Transition) (s : Stage) :
    s.status.value ≤ (s.after engine xs).status.value := by
  induction xs generalizing s with
  | nil => exact Nat.le_refl _
  | cons x xs ih =>
    unfold after
    split
    · rename_i s' kind hread
      obtain ⟨hs, hs'⟩ := read_status hread
      calc s.status.value = x.source.value := by rw [hs]
        _ ≤ x.target.value := Nat.le_of_lt (Transition.source_lt_target x)
        _ = s'.status.value := by rw [hs']
        _ ≤ _ := ih s'
    · exact ih s

end Stage

/-- The stage of a task. -/
def TaskState.stage : TaskState → Stage
  | .todo _ => .waiting
  | .running s => .running s.allocatedNodeId
  | .done _ => .ended

@[simp] theorem TaskState.stage_status (s : TaskState) : s.stage.status = s.status := by
  cases s <;> rfl

/-! ## The methods follow the automaton

The relation between the two is that the state of the task stands for the
stage, and it is kept by each call: a legal one moves both, an illegal one
moves neither. The identity of the task and what was submitted are no part of
the automaton and stay as they are, which is what `Keeps` says. -/

namespace Task

variable {σ τ υ : Type}

/-- The event of a kind, with what every event of the task carries. -/
def event (t : Task σ) (kind : EventKind) : DomainEvent where
  taskId := t.taskId
  webhookUrl := t.webhookUrl
  webhookCustomParams := t.webhookCustomParams
  kind := kind

/-- What no transition changes. It relates tasks in different states, and so is said
field by field. -/
structure Keeps (t : Task σ) (t' : Task τ) : Prop where
  taskId : t'.taskId = t.taskId
  engine : t'.engine = t.engine
  label : t'.label = t.label
  createdAt : t'.createdAt = t.createdAt
  webhookUrl : t'.webhookUrl = t.webhookUrl
  webhookCustomParams : t'.webhookCustomParams = t.webhookCustomParams
  extra : t'.extra = t.extra

theorem Keeps.refl (t : Task σ) : t.Keeps t := ⟨rfl, rfl, rfl, rfl, rfl, rfl, rfl⟩

theorem Keeps.trans {t : Task σ} {t' : Task τ} {t'' : Task υ} (h : t.Keeps t')
    (h' : t'.Keeps t'') : t.Keeps t'' where
  taskId := h'.taskId.trans h.taskId
  engine := h'.engine.trans h.engine
  label := h'.label.trans h.label
  createdAt := h'.createdAt.trans h.createdAt
  webhookUrl := h'.webhookUrl.trans h.webhookUrl
  webhookCustomParams := h'.webhookCustomParams.trans h.webhookCustomParams
  extra := h'.extra.trans h.extra

theorem Keeps.event_eq {t : Task σ} {t' : Task τ} (h : t.Keeps t') (kind : EventKind) :
    t'.event kind = t.event kind := by
  simp only [event, h.taskId, h.webhookUrl, h.webhookCustomParams]

end Task

namespace AnyTask

variable (t : AnyTask)

/-- **A legal call** moves the task as the automaton moves, and appends the
one event. -/
theorem transition_ok {x : Transition} {s : Stage} {kind : EventKind}
    (h : t.state.stage.read t.engine x = some (s, kind)) :
    ∃ t', t.transition x = .ok t' ∧ t'.state.stage = s ∧
      t'.events = t.events ++ [t.event kind] ∧ t.Keeps t' := by
  obtain ⟨taskId, engine, state, createdAt, label, loc, url, params, extra, events⟩ := t
  cases state <;> cases x <;> simp only [TaskState.stage, Stage.read, Option.some.injEq,
    Prod.mk.injEq, reduceCtorEq] at h
  all_goals
    obtain ⟨rfl, rfl⟩ := h
    exact ⟨_, rfl, rfl, rfl, ⟨rfl, rfl, rfl, rfl, rfl, rfl, rfl⟩⟩

/-- **An illegal call** raises. The error tells which status the method needs, and it
names the task. -/
theorem transition_error {x : Transition}
    (h : t.state.stage.read t.engine x = none) :
    t.transition x = .error (x.refusal t.taskId) := by
  obtain ⟨taskId, engine, state, createdAt, label, loc, url, params, extra, events⟩ := t
  cases state <;> cases x <;> first | rfl | simp [TaskState.stage, Stage.read] at h

/-- After any sequence of calls the task is where the automaton is, has told
what the automaton told, and is the same task. -/
theorem performAll_spec (xs : List Transition) :
    (t.performAll xs).state.stage = t.state.stage.after t.engine xs ∧
      (t.performAll xs).events =
        t.events ++ (t.state.stage.trace t.engine xs).map t.event ∧
      t.Keeps (t.performAll xs) := by
  induction xs generalizing t with
  | nil => exact ⟨rfl, (List.append_nil _).symm, .refl t⟩
  | cons x xs ih =>
    rw [performAll_cons]
    cases hread : t.state.stage.read t.engine x with
    | none =>
      have hp : t.perform x = t := by unfold perform; rw [t.transition_error hread]
      rw [hp]
      obtain ⟨hstage, hevents, hkeeps⟩ := ih t
      refine ⟨?_, ?_, hkeeps⟩
      · rw [hstage]; simp only [Stage.after, hread]
      · rw [hevents]; simp only [Stage.trace, hread]
    | some r =>
      obtain ⟨s, kind⟩ := r
      obtain ⟨t', hok, hs, he, hk⟩ := t.transition_ok hread
      have hp : t.perform x = t' := by unfold perform; rw [hok]
      obtain ⟨hstage, hevents, hkeeps⟩ := ih t'
      rw [hp]
      refine ⟨?_, ?_, hk.trans hkeeps⟩
      · rw [hstage, hs, hk.engine]; simp only [Stage.after, hread]
      · have hev : t'.event = t.event := funext hk.event_eq
        rw [hevents, he, hs, hk.engine, hev, List.append_assoc]
        simp only [Stage.trace, hread, List.map_cons, List.singleton_append]

end AnyTask

end Yascheduler
