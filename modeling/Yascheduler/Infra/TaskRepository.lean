import Yascheduler.Infra.Database
import Yascheduler.Lifecycle
import Mathlib.Logic.Function.Basic

/-!
# The task repository, column by column

A row as SQL has it: every column on its own, so that a row the CHECK refuses
can be written down. `insert` and `save` fill in the columns from the
accessors of a task, the database cuts texts to the widths of the columns and
evaluates the CHECK, and `_row_to_task` reads the columns back. JSON columns
are read back as they were stored.

The three were written separately; what makes them agree is that the columns
`save` writes are those of a row of the table (`update_eq`), whose CHECK is
part of it, and that such a row is read as the task it stands for
(`rowToTask_columns`). Through the same two facts the tables of this module
are what a connection sees of the database (`save_of_exec`).
-/

namespace Yascheduler

open Store

/-! ## Columns

The columns have widths and the types of the domain have none. What exceeds a
width is refused by the database, unless it is blank, and the error is raised
by the statement. This is why a row is written by a function that may fail. -/

/-- The columns of `yascheduler_tasks`, without any constraint between them. The
constraint is a test here, since an update that fails it has to be seen to fail. -/
structure TaskColumns where
  title : String
  engine : String
  status : TaskStatus
  allocatedNodeId : Option NodeId
  remoteFolder : Option String
  localFolder : Option String
  webhookUrl : Option String
  error : Option String
  webhookCustomParams : Params
  extra : Params
  createdAt : String
deriving DecidableEq

/-- Assignment to a `VARCHAR(n)` column: what exceeds the width has to be blank, and
is cut off. PostgreSQL refuses a text that is too long otherwise. -/
def varchar (n : Nat) (s : String) : Except Exc String :=
  if s.length ≤ n then .ok s
  else if (s.toList.drop n).all (· = ' ') then .ok (String.ofList (s.toList.take n))
  else .error (.database ("value too long for type character varying(" ++
    toString n ++ ")"))

/-- The same for a nullable column. -/
def nullableVarchar (n : Nat) : Option String → Except Exc (Option String)
  | none => .ok none
  | some s => (varchar n s).map some

/-- A text within the width is stored as it is. -/
theorem varchar_eq {n : Nat} {s : String} (h : s.length ≤ n) : varchar n s = .ok s :=
  if_pos h

/-- The same for a text that may be missing. -/
theorem nullableVarchar_eq {n : Nat} {s : Option String}
    (h : ∀ text ∈ s, text.length ≤ n) : nullableVarchar n s = .ok s := by
  cases s with
  | none => rfl
  | some text =>
    show (varchar n text).map some = _
    rw [varchar_eq (h text rfl)]
    rfl

/-- What a column holds is within its width. -/
theorem nullableVarchar_le {n : Nat} {s s' : Option String}
    (h : nullableVarchar n s = .ok s') : ∀ text ∈ s', text.length ≤ n := by
  cases s with
  | none =>
    cases h
    exact fun _ hnone => nomatch hnone
  | some text =>
    have hmap : (varchar n text).map some = .ok s' := h
    unfold varchar at hmap
    split at hmap
    · rename_i hle
      cases hmap
      rintro _ ⟨⟩
      exact hle
    · split at hmap
      · cases hmap
        rintro _ ⟨⟩
        simp only [String.length_ofList, List.length_take]
        exact Nat.min_le_left ..
      · cases hmap

namespace TaskColumns

/-- `task_status_field_invariants`, as the schema writes it: one clause for each
status. -/
def taskStatusFieldInvariants (row : TaskColumns) : Bool :=
  (row.status = .toDo && row.allocatedNodeId.isNone && row.error.isNone) ||
  (row.status = .running && row.allocatedNodeId.isSome && row.error.isNone &&
    row.remoteFolder.isSome) ||
  row.status = .done

/-- A row is written with its texts cut to the widths of their columns, if the
CHECK admits it. -/
def store (row : TaskColumns) : Except Exc TaskColumns := do
  let title ← varchar 256 row.title
  let engine ← varchar 64 row.engine
  let localFolder ← nullableVarchar 1024 row.localFolder
  let remoteFolder ← nullableVarchar 1024 row.remoteFolder
  let webhookUrl ← nullableVarchar 2048 row.webhookUrl
  let stored := { row with
    title := title
    engine := engine
    localFolder := localFolder
    remoteFolder := remoteFolder
    webhookUrl := webhookUrl }
  if stored.taskStatusFieldInvariants then return stored
  else throw (.database "task_status_field_invariants")

/-- `update_by_id`: every column but the identifier and the creation time. The task
is written whole, so what another transaction has changed in the row meanwhile is
lost. -/
def updateById (row : TaskColumns) (task : AnyTask) : Except Exc TaskColumns :=
  store { row with
    title := task.label
    engine := task.engine
    remoteFolder := task.state.remoteFolder
    localFolder := task.localFolder
    webhookUrl := task.webhookUrl
    error := task.state.error
    webhookCustomParams := task.webhookCustomParams
    extra := task.extra
    status := task.state.status
    allocatedNodeId := task.state.allocatedNodeId }

/-- `_row_to_task`. Python would build a running task without a folder, which
the type of a running task excludes. -/
def rowToTask (row : TaskColumns) (t : TaskId) : Except Exc AnyTask :=
  let taskZygote (state : TaskState) : AnyTask := {
    taskId := t
    createdAt := row.createdAt
    label := row.title
    engine := row.engine
    extra := row.extra
    webhookUrl := row.webhookUrl
    webhookCustomParams := row.webhookCustomParams
    localFolder := row.localFolder
    state := state }
  match row.status with
  | .toDo => .ok (taskZygote (.todo { remoteFolder := row.remoteFolder }))
  | .running =>
    match row.allocatedNodeId, row.remoteFolder with
    | some n, some folder =>
      .ok (taskZygote (.running { allocatedNodeId := n, remoteFolder := folder }))
    | none, _ => .error (.other "int() argument must not be NoneType")
    | some _, none => .error (.other "a running task without a remote folder")
  | .done => .ok (taskZygote (.done {
      error := row.error
      allocatedNodeId := row.allocatedNodeId
      remoteFolder := row.remoteFolder }))

end TaskColumns

/-! ## The repository -/

/-- The table of tasks, as a function of the identifier. -/
abbrev TaskTable := TaskId → Option TaskColumns

namespace TaskRepository

/-- `insert`: the row of a new task under the identifier the database gives it, and
the task with the event of its creation. The event is not in the row, and exists
only until it is published. -/
def insert (new : NewTask) (t : TaskId) (createdAt : String) :
    Except Exc (TaskColumns × AnyTask) := do
  let row ← TaskColumns.store {
    title := new.label
    engine := new.engine
    status := .toDo
    allocatedNodeId := none
    remoteFolder := none
    localFolder := new.localFolder
    webhookUrl := new.webhookUrl
    error := none
    webhookCustomParams := new.webhookCustomParams
    extra := new.extra
    createdAt := createdAt }
  let task ← row.rowToTask t
  return (row, task.materialize)

/-- `save`: update the row by its identifier, if its status is the expected one, and
remember the instance. It is the instance that is published after the commit, and
not the row. -/
def save (table : TaskTable) (savedTasks : List AnyTask) (task : AnyTask)
    (expectedStatus : Option TaskStatus) : Except Exc (TaskTable × List AnyTask) :=
  match (table task.taskId).filter fun row =>
      expectedStatus.getD row.status = row.status with
  | none => .error (.taskRowNotFound task.taskId)
  | some row => do
    let row' ← row.updateById task
    return (Function.update table task.taskId (some row'), savedTasks ++ [task])

end TaskRepository

/-! ## What the columns can hold

The three descriptions of a task, the columns that are written, the row of the
table and the task that is read, are connected here once and for all. The other
modules work with rows of the table, which carry their CHECK, and never with
single columns. -/

/-- The texts of a task are within the widths of their columns. Nothing in the
daemon sees to it: it is an assumption about what was submitted. -/
def AnyTask.FitsColumns (task : AnyTask) : Prop :=
  task.label.length ≤ 256 ∧ task.engine.length ≤ 64 ∧
    (∀ s ∈ task.localFolder, s.length ≤ 1024) ∧
    (∀ s ∈ task.state.remoteFolder, s.length ≤ 1024) ∧
    (∀ s ∈ task.webhookUrl, s.length ≤ 2048)

instance (task : AnyTask) : Decidable task.FitsColumns := by
  unfold AnyTask.FitsColumns
  infer_instance

/-- The columns of a row of the table. The constraint the row carries is forgotten.
-/
def TaskRow.columns (r : TaskRow) : TaskColumns where
  title := r.title
  engine := r.engine
  status := r.status
  allocatedNodeId := r.allocatedNodeId
  remoteFolder := r.remoteFolder
  localFolder := r.localFolder
  webhookUrl := r.webhookUrl
  error := r.error
  webhookCustomParams := r.webhookCustomParams
  extra := r.extra
  createdAt := r.createdAt

namespace TaskColumns

/-- The CHECK of the schema is the one a row of the table carries. -/
theorem taskStatusFieldInvariants_eq (row : TaskColumns) :
    row.taskStatusFieldInvariants =
      fieldCheck row.status row.allocatedNodeId row.error row.remoteFolder := by
  unfold taskStatusFieldInvariants fieldCheck
  cases row.status <;> simp

/-- Such a row passes the CHECK. -/
theorem taskStatusFieldInvariants_columns (r : TaskRow) :
    r.columns.taskStatusFieldInvariants = true :=
  (taskStatusFieldInvariants_eq _).trans r.check

/-- A row that satisfies the CHECK and is within the widths is written as it is. -/
theorem store_eq {row : TaskColumns} (hcheck : row.taskStatusFieldInvariants = true)
    (htitle : row.title.length ≤ 256) (hengine : row.engine.length ≤ 64)
    (hlocal : ∀ s ∈ row.localFolder, s.length ≤ 1024)
    (hremote : ∀ s ∈ row.remoteFolder, s.length ≤ 1024)
    (hurl : ∀ s ∈ row.webhookUrl, s.length ≤ 2048) : row.store = .ok row := by
  unfold store
  rw [varchar_eq htitle, varchar_eq hengine, nullableVarchar_eq hlocal,
    nullableVarchar_eq hremote, nullableVarchar_eq hurl]
  exact if_pos hcheck

/-- **What a row is written as**: its texts are cut, its other columns are
kept, and the CHECK admits it. -/
theorem store_spec {row row' : TaskColumns} (h : row.store = .ok row') :
    row'.status = row.status ∧
      nullableVarchar 1024 row.localFolder = .ok row'.localFolder ∧
      nullableVarchar 2048 row.webhookUrl = .ok row'.webhookUrl ∧
      row'.taskStatusFieldInvariants = true := by
  unfold store at h
  simp only [bind, Except.bind] at h
  repeat' split at h
  all_goals first
    | cases h; exact ⟨rfl, ‹_›, ‹_›, ‹_›⟩
    | cases h

/-- **`save` writes the columns of a row of the table.** So the CHECK is never in the
way of a task that is within the widths: its type has seen to it. -/
theorem updateById_eq (row : TaskColumns) {task : AnyTask} (h : task.FitsColumns) :
    row.updateById task = .ok (TaskRow.ofTask task row.createdAt).columns :=
  store_eq (taskStatusFieldInvariants_columns (TaskRow.ofTask task row.createdAt))
    h.1 h.2.1 h.2.2.1 h.2.2.2.1 h.2.2.2.2

/-- **`_row_to_task` reads the task a row stands for.** The branches of the reader
are those of the CHECK. -/
theorem rowToTask_columns (r : TaskRow) (t : TaskId) :
    r.columns.rowToTask t = .ok (r.toTask t) := by
  obtain ⟨title, engine, status, node, remote, loc, url, error, params, extra, at_, hc⟩ := r
  cases status with
  | toDo => rfl
  | running =>
    simp only [fieldCheck, Bool.and_eq_true] at hc
    obtain ⟨n, rfl⟩ := Option.isSome_iff_exists.mp hc.1.1
    obtain ⟨folder, rfl⟩ := Option.isSome_iff_exists.mp hc.2
    rfl
  | done => rfl

end TaskColumns

/-- **A written task is read back** as it is, without its events and with the
creation time of its row. -/
theorem TaskRow.toTask_ofTask (task : AnyTask) (createdAt : String) :
    (TaskRow.ofTask task createdAt).toTask task.taskId =
      { task with createdAt := createdAt, events := [] } := by
  obtain ⟨taskId, engine, state, at_, label, loc, url, params, extra, events⟩ := task
  cases state <;> rfl

/-- **A new task** is returned waiting, and tells of its creation and of nothing
else. -/
theorem insert_spec {new : NewTask} {t : TaskId} {createdAt : String}
    {row : TaskColumns} {task : AnyTask}
    (h : TaskRepository.insert new t createdAt = .ok (row, task)) :
    task.taskId = t ∧ task.state.stage = .waiting ∧
      task.events = [task.event (.taskCreated task.engine)] := by
  unfold TaskRepository.insert at h
  simp only [bind, Except.bind] at h
  split at h
  · cases h
  · rename_i row' hstore
    have hst := (TaskColumns.store_spec hstore).1
    unfold TaskColumns.rowToTask at h
    simp only [hst] at h
    cases h
    exact ⟨rfl, rfl, rfl⟩

/-! ## The database -/

/-- The table of tasks as a connection sees it: its own writes, and what is
committed otherwise. -/
def Database.taskTable (db : Database) (c : Conn) : TaskTable :=
  fun t => (db.tasks.read c t).map TaskRow.columns

/-- **The statement does what `save` does** to what its connection sees. Here the
repository meets the transactions: what others have written meanwhile is not touched.
-/
theorem save_of_exec {db db' : Database} {c : Conn} {task : AnyTask}
    {expected : Option TaskStatus} (savedTasks : List AnyTask) (h : task.FitsColumns)
    (hexec : db.exec c (.taskUpdate task expected) = some (.ok true, db')) :
    TaskRepository.save (db.taskTable c) savedTasks task expected =
      .ok (db'.taskTable c, savedTasks ++ [task]) := by
  rcases Database.exec_taskUpdate hexec with
    ⟨row, hread, hexp, -, -, rfl⟩ | ⟨-, hr | hr⟩
  · have hguard : (db.taskTable c task.taskId).filter (fun columns =>
        expected.getD columns.status = columns.status) = some row.columns := by
      show ((db.tasks.read c task.taskId).map TaskRow.columns).filter _ = _
      rw [hread]
      cases expected with
      | none => simp [Option.filter]
      | some st =>
        have hst : st = row.status := by simpa using hexp
        simp [Option.filter, hst, TaskRow.columns]
    unfold TaskRepository.save
    rw [hguard]
    show (row.columns.updateById task).bind _ = _
    rw [TaskColumns.updateById_eq _ h]
    show Except.ok (Function.update (db.taskTable c) task.taskId
      (some (TaskRow.ofTask task row.createdAt).columns), _) = _
    refine congrArg (fun table => Except.ok (table, _)) (funext fun t => ?_)
    show _ = ((db.tasks.write c task.taskId _).read c t).map TaskRow.columns
    rw [RowStore.read_write]
    by_cases ht : t = task.taskId
    · subst ht
      rw [Function.update_self, Function.update_self]
      rfl
    · rw [Function.update_of_ne ht, Function.update_of_ne ht]
      rfl
  · cases hr
  · cases hr

end Yascheduler
