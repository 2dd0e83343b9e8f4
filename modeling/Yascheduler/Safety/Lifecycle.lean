import Yascheduler.Infra.TaskRepository

/-!
# The lifecycle and its persistence agree

A task is inserted, and then any transitions are tried on it, legal or not.
What the methods do is what the automaton of stages does, and whatever task
comes out of it can be saved: its row satisfies the CHECK of the table and is
read back as the same task.

Two accounts of the same thing are compared: the methods of the task, which refuse
what is not allowed, and the automaton, which says what is. That they agree on one
call is a case distinction; that they agree on any sequence of calls needs that a
refused call leaves the task as it was, in its state and in its events.

The table comes last. Its CHECK says of a row what the type of a state says of a
task, so a task that exists can be saved, and what is read is the task again.
-/

namespace Yascheduler

namespace AnyTask

variable {t : AnyTask} {x : Transition}

/-- A transition that is illegal in a state raises, with the identifier of the task.
-/
theorem transition_of_ne_source (h : t.state.status ≠ x.source) :
    t.transition x = .error (x.refusal t.taskId) := by
  refine t.transition_error ((Stage.read_eq_none_iff _ _ _).mpr ?_)
  rwa [TaskState.stage_status]

/-- A transition that is legal in a state leads to its target. -/
theorem transition_of_source (h : t.state.status = x.source) :
    ∃ t', t.transition x = .ok t' ∧ t'.state.status = x.target := by
  have hread : t.state.stage.read t.engine x ≠ none := fun hnone =>
    (Stage.read_eq_none_iff _ _ _).mp hnone (by rwa [TaskState.stage_status])
  obtain ⟨⟨s, kind⟩, hs⟩ := Option.ne_none_iff_exists'.mp hread
  obtain ⟨t', hok, hstage, -, -⟩ := t.transition_ok hs
  refine ⟨t', hok, ?_⟩
  rw [← TaskState.stage_status, hstage]
  exact (Stage.read_status hs).2

/-- **A task in any state is saved and read back.** What a row cannot tell is what
has been announced, and the time is that of the database. That the texts fit into
their columns has to be asked for: a text with a null character is refused. -/
theorem save_rowToTask (h : t.FitsColumns) {table : TaskTable} {row : TaskColumns}
    (hrow : table t.taskId = some row) {expected : Option TaskStatus}
    (hexp : expected.getD row.status = row.status) (savedTasks : List AnyTask) :
    ∃ row', TaskRepository.save table savedTasks t expected =
        .ok (Function.update table t.taskId (some row'), savedTasks ++ [t]) ∧
      row'.taskStatusFieldInvariants = true ∧
      row'.rowToTask t.taskId =
        .ok { t with createdAt := row.createdAt, events := [] } := by
  refine ⟨(TaskRow.ofTask t row.createdAt).columns, ?_,
    TaskColumns.taskStatusFieldInvariants_columns _, ?_⟩
  · unfold TaskRepository.save
    rw [hrow, Option.filter_some, if_pos (by simpa using hexp)]
    show (row.updateById t).bind _ = _
    rw [TaskColumns.updateById_eq row h]
    rfl
  · rw [TaskColumns.rowToTask_columns, TaskRow.toTask_ofTask]

end AnyTask

/-- **The lifecycle of a task and its persistence agree.** After any sequence
of transitions of a new task, an illegal transition raises and leaves the task
as it is, and a legal one leads to its target; no later transition moves the
status back; the events are the creation followed by the trace of the legal
transitions; and `save` writes a row that satisfies the CHECK and is read back
as the same task, up to its events and its creation time. -/
theorem lifecycleAgrees {new : NewTask} {t : TaskId} {createdAt : String}
    {row₀ : TaskColumns} {task₀ : AnyTask}
    (hins : TaskRepository.insert new t createdAt = .ok (row₀, task₀)) (xs : List Transition) :
    let task := task₀.performAll xs
    (∀ x : Transition, task.state.status ≠ x.source →
      task.transition x = .error (x.refusal t) ∧
        task₀.performAll (xs ++ [x]) = task) ∧
    (∀ x : Transition, task.state.status = x.source →
      ∃ task', task.transition x = .ok task' ∧
        task₀.performAll (xs ++ [x]) = task' ∧ task'.state.status = x.target) ∧
    (∀ ys : List Transition,
      task.state.status.value ≤ (task₀.performAll (xs ++ ys)).state.status.value) ∧
    task.events = task₀.event (.taskCreated task₀.engine) ::
      (Stage.waiting.trace task₀.engine xs).map task₀.event ∧
    ∀ (table : TaskTable) (savedTasks : List AnyTask) (row : TaskColumns)
      (expected : Option TaskStatus), table t = some row →
      expected.getD row.status = row.status → task.FitsColumns →
      ∃ row', TaskRepository.save table savedTasks task expected =
          .ok (Function.update table t (some row'), savedTasks ++ [task]) ∧
        row'.taskStatusFieldInvariants = true ∧
        row'.rowToTask t =
          .ok { task with createdAt := row.createdAt, events := [] } := by
  intro task
  obtain ⟨hid, hwaiting, hcreated⟩ := insert_spec hins
  obtain ⟨-, hevents, hkeeps⟩ := task₀.performAll_spec xs
  have htask : task.taskId = t := hkeeps.taskId.trans hid
  have hlast (x : Transition) : task₀.performAll (xs ++ [x]) = task.perform x :=
    task₀.performAll_append xs [x]
  refine ⟨fun x hx => ?_, fun x hx => ?_, fun ys => ?_, ?_, ?_⟩
  · have herr := AnyTask.transition_of_ne_source hx
    refine ⟨htask ▸ herr, ?_⟩
    rw [hlast, AnyTask.perform, herr]
  · obtain ⟨task', hok, htarget⟩ := AnyTask.transition_of_source hx
    refine ⟨task', hok, ?_, htarget⟩
    rw [hlast, AnyTask.perform, hok]
  · obtain ⟨hstage, -, -⟩ := task.performAll_spec ys
    rw [task₀.performAll_append, ← TaskState.stage_status task.state,
      ← TaskState.stage_status (AnyTask.performAll _ ys).state]
    exact hstage ▸ Stage.status_le_after _ _ _
  · show (task₀.performAll xs).events = _
    rw [hevents, hcreated, hwaiting]
    rfl
  · intro table savedTasks row expected hrow hexp hfits
    rw [← htask] at hrow ⊢
    exact AnyTask.save_rowToTask hfits hrow hexp savedTasks

namespace Lifecycle

/-- A task as `insert` returns it. -/
def inserted : AnyTask where
  taskId := 1
  engine := "dummy"
  state := .todo {}
  createdAt := "20240101_000000"
  label := "water"
  events := [{
    taskId := 1
    webhookUrl := none
    webhookCustomParams := []
    kind := .taskCreated "dummy" }]

/-- Its row. -/
def row : TaskColumns where
  title := "water"
  engine := "dummy"
  status := .toDo
  allocatedNodeId := none
  remoteFolder := none
  localFolder := none
  webhookUrl := none
  error := none
  webhookCustomParams := []
  extra := []
  createdAt := "20240101_000000"

end Lifecycle

open Lifecycle in
/-- A task that is started, refuses to be rejected, and fails: what it tells,
and the row it leaves. -/
theorem lifecycleAgrees_failed :
    let task := inserted.performAll
      [.complete "out" "work", .run 7 "work", .reject "late", .fail "bad" "out" "work"]
    task.events.map (·.kind) =
        [.taskCreated "dummy", .taskAllocated 7 "dummy", .taskFailed "bad"] ∧
      ∃ row', TaskRepository.save (Function.update (fun _ => none) 1 (some row)) [] task none =
          .ok (Function.update (Function.update (fun _ => none) 1 (some row)) 1
            (some row'), [task]) ∧
        row'.taskStatusFieldInvariants = true ∧
        row'.rowToTask 1 = .ok { task with events := [] } := by
  intro task
  have hins : TaskRepository.insert { engine := "dummy", label := "water" } 1 "20240101_000000" =
      .ok (row, inserted) := by decide
  obtain ⟨-, -, -, hevents, hsave⟩ := lifecycleAgrees hins
    [.complete "out" "work", .run 7 "work", .reject "late", .fail "bad" "out" "work"]
  refine ⟨?_, hsave _ [] row none (Function.update_self ..) rfl (by decide)⟩
  rw [hevents]
  rfl

end Yascheduler
