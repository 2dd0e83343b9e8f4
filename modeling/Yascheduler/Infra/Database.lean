import Mathlib.Data.List.Nodup
import Yascheduler.Domain
import Yascheduler.Store.RowStore

/-!
# The two tables and the statements on them

Task rows carry their CHECK constraint as a field, so a row the database
would refuse does not exist. Every statement of the repositories is executed
inside the transaction of a connection: it sees the committed rows and the
connection's own writes, and it waits – `none` – while another transaction
holds a lock it needs. A statement whose WHERE clause does not match returns
at once, and one that had to wait looks at the row again, as READ COMMITTED
does.

The foreign key from a task to its node is part of the semantics: setting it
waits for a pending deletion of the node and fails when the node is gone, and
deleting a node waits for the transactions that refer to it, clears the
reference of its finished tasks, and fails if a running task refers to it,
because the CHECK does not allow a running task without a node.

## What is not here

Statements are those of the repositories and no others, and there is no query
planner, no index and no version of a row but two (`Store.RowStore`). A statement
is one step: what it reads it reads at one moment, and if it has to wait it is
executed when it need not wait any more.

A list without an ORDER BY is in an order that is not determined. It is a field
of the database, so that no result can depend on it.
-/

namespace Yascheduler

open Store

/-! ## Rows

The CHECK is a field of the row, so a statement that would violate it can not
produce a row, and has to be seen to fail. For the scheduler the important
clause is that a running task has a node: it is why a node with a running task
cannot be deleted. -/

/-- A coroutine: its process and a number within it. The process is what shares
memory, and the number says which of its coroutines it is. -/
structure Tid where
  proc : Nat
  num : Nat
deriving DecidableEq

/-- A database connection, opened by a coroutine. No two coroutines share one. -/
structure Conn where
  thread : Tid
  serial : Nat
deriving DecidableEq

/-- `task_status_field_invariants`. A finished task may have any of the fields, so
clearing the node of one is allowed. -/
def fieldCheck (status : TaskStatus) (allocatedNodeId : Option NodeId)
    (error remoteFolder : Option String) : Bool :=
  match status with
  | .toDo => allocatedNodeId.isNone && error.isNone
  | .running => allocatedNodeId.isSome && error.isNone && remoteFolder.isSome
  | .done => true

/-- A task that was just submitted passes. -/
theorem fieldCheck_toDo : fieldCheck .toDo none none none = true := rfl

/-- A row of `yascheduler_tasks`. The CHECK constraint is a field, so there is no
row that violates it. -/
structure TaskRow where
  title : String := ""
  engine : String
  status : TaskStatus := .toDo
  allocatedNodeId : Option NodeId := none
  remoteFolder : Option String := none
  localFolder : Option String := none
  webhookUrl : Option String := none
  error : Option String := none
  webhookCustomParams : Params := []
  extra : Params := []
  createdAt : String := ""
  check : fieldCheck status allocatedNodeId error remoteFolder = true := by rfl
deriving DecidableEq

namespace TaskRow

/-- A running row has a node and a remote folder, by the CHECK constraint. -/
theorem isSome_of_running (r : TaskRow) (h : r.status = .running) :
    r.allocatedNodeId.isSome = true ∧ r.remoteFolder.isSome = true := by
  have hc := r.check
  rw [h] at hc
  simp only [fieldCheck, Bool.and_eq_true] at hc
  exact ⟨hc.1.1, hc.2⟩

/-- A row that waits has no node, by the same constraint. -/
theorem isNone_of_toDo (r : TaskRow) (h : r.status = .toDo) :
    r.allocatedNodeId = none := by
  have hc := r.check
  rw [h] at hc
  simp only [fieldCheck, Bool.and_eq_true, Option.isNone_iff_eq_none] at hc
  exact hc.1

/-- The lifecycle state a row stands for. The CHECK constraint provides what
the state of a running task needs. -/
def state (r : TaskRow) : TaskState :=
  match h : r.status with
  | .toDo => .todo { remoteFolder := r.remoteFolder }
  | .running => .running {
      allocatedNodeId := r.allocatedNodeId.get (r.isSome_of_running h).1
      remoteFolder := r.remoteFolder.get (r.isSome_of_running h).2 }
  | .done => .done {
      error := r.error
      allocatedNodeId := r.allocatedNodeId
      remoteFolder := r.remoteFolder }

/-- `_row_to_task`. -/
def toTask (r : TaskRow) (t : TaskId) : AnyTask where
  taskId := t
  engine := r.engine
  state := r.state
  createdAt := r.createdAt
  label := r.title
  localFolder := r.localFolder
  webhookUrl := r.webhookUrl
  webhookCustomParams := r.webhookCustomParams
  extra := r.extra

/-- The row that `update_by_id` writes for a task; the creation time stays. The task
carries its own invariant, and this is where it becomes the constraint of the row.
-/
def ofTask (task : AnyTask) (createdAt : String) : TaskRow where
  title := task.label
  engine := task.engine
  status := task.state.status
  allocatedNodeId := task.state.allocatedNodeId
  remoteFolder := task.state.remoteFolder
  localFolder := task.localFolder
  webhookUrl := task.webhookUrl
  error := task.state.error
  webhookCustomParams := task.webhookCustomParams
  extra := task.extra
  createdAt := createdAt
  check := by cases task.state <;> rfl

/-- The row after its node was deleted, which only a row that is not running
survives. -/
def clearNode (r : TaskRow) (h : r.status ≠ .running) : TaskRow :=
  { r with
    allocatedNodeId := none
    check := by
      have hc := r.check
      cases hs : r.status with
      | toDo =>
        rw [hs] at hc
        simp only [fieldCheck, Bool.and_eq_true] at hc ⊢
        exact ⟨rfl, hc.2⟩
      | running => exact absurd hs h
      | done => rfl }

/-- A row says that its task is running on a node. This is what two tasks may not
say of one node. -/
def RunsOn (r : TaskRow) (n : NodeId) : Prop :=
  r.status = .running ∧ r.allocatedNodeId = some n

instance (r : TaskRow) (n : NodeId) : Decidable (r.RunsOn n) :=
  inferInstanceAs (Decidable (_ ∧ _))

/-- A row and the state it stands for have the same status, -/
@[simp] theorem state_status (r : TaskRow) : r.state.status = r.status := by
  unfold state
  split <;> simp_all [TaskState.status]

/-- and the same node, unless the task waits: then the state has no place for one.
-/
@[simp] theorem state_allocatedNodeId (r : TaskRow) (h : r.status ≠ .toDo) :
    r.state.allocatedNodeId = r.allocatedNodeId := by
  unfold state
  split <;> simp_all [TaskState.allocatedNodeId]

/-- What is written has the status of the task, -/
@[simp] theorem ofTask_status (task : AnyTask) (s : String) :
    (ofTask task s).status = task.state.status := rfl

/-- and its node. -/
@[simp] theorem ofTask_allocatedNodeId (task : AnyTask) (s : String) :
    (ofTask task s).allocatedNodeId = task.state.allocatedNodeId := rfl

end TaskRow

/-! ## Statements

A statement returns what the repository looks at: the rows, the new identifier,
or whether a row was matched. An update that matches no row is no error in SQL,
and it is left to the repository to make one of it. -/

/-- The SQL statements of the repositories. What each of them reads and writes is
said in `Database.exec`. -/
inductive Stmt where
  /-- `task/get_by_id_and_status` -/
  | taskGet (t : TaskId) (status : TaskStatus)
  /-- `task/list_by_status` -/
  | taskList (status : TaskStatus) (limit : Option Nat)
  /-- `task/get_ids_by_node_id_and_status` -/
  | taskIds (n : NodeId) (status : TaskStatus)
  /-- `task/update_by_id` -/
  | taskUpdate (task : AnyTask) (expected : Option TaskStatus)
  /-- `node/list_all` -/
  | nodeListAll
  /-- `node/list_enabled` -/
  | nodeListEnabled
  /-- `node/list_disabled` -/
  | nodeListDisabled
  /-- `node/get_by_id` -/
  | nodeGet (n : NodeId)
  /-- `node/insert` -/
  | nodeInsert (row : NewNode)
  /-- `node/update` -/
  | nodeUpdate (node : Node)
  /-- `node/disable` -/
  | nodeDisable (n : NodeId)
  /-- `node/remove` -/
  | nodeRemove (n : NodeId)

/-- What a statement returns; an update or a deletion tells whether it matched
a row. -/
@[reducible] def Stmt.Res : Stmt → Type
  | .taskGet _ _ => Option AnyTask
  | .taskList _ _ => List AnyTask
  | .taskIds _ _ => List TaskId
  | .taskUpdate _ _ => Bool
  | .nodeListAll | .nodeListEnabled | .nodeListDisabled => List Node
  | .nodeGet _ => Option Node
  | .nodeInsert _ => Node
  | .nodeUpdate _ | .nodeDisable _ | .nodeRemove _ => Bool

/-! ## The database

A row of the query is a committed one or one of the transaction's own, never
one that somebody else has not committed yet. The uncommitted rows of others
matter all the same, since a statement may have to wait for their locks, and
this is the only way in which they do.

Identifiers come from sequences, which are not rolled back. So an identifier
that was handed out is never handed out again, even if its row was never
committed. -/

/-- The order in which a query without `ORDER BY` yields its rows: each of them
once, but PostgreSQL promises no more, and two transactions may see two orders. -/
structure RowOrder where
  arrange : Conn → List Node → List Node
  perm : ∀ c rows, (arrange c rows).Perm rows

namespace RowOrder

/-- As the rows were inserted, which is one of the orders. -/
def ascending : RowOrder where
  arrange _ rows := rows
  perm _ _ := .rfl

/-- The order does not decide which rows there are. -/
@[simp] theorem mem_arrange {o : RowOrder} {c : Conn} {rows : List Node} {node : Node} :
    node ∈ o.arrange c rows ↔ node ∈ rows :=
  (o.perm c rows).mem_iff

end RowOrder

/-- The database: two tables, and how many identifiers and connections have
been handed out. -/
structure Database where
  tasks : RowStore TaskId TaskRow Conn
  nodes : RowStore NodeId NewNode Conn
  lastTask : Nat
  lastNode : Nat
  lastConn : Nat := 0
  /-- of the queries that name none -/
  order : RowOrder := .ascending

namespace Database

/-- A database with these rows, numbered from one, and no transaction open. -/
def ofLists (tasks : List TaskRow) (nodes : List NewNode) : Database where
  tasks := .ofRows fun t => tasks[t.value - 1]?
  nodes := .ofRows fun n => nodes[n.value - 1]?
  lastTask := tasks.length
  lastNode := nodes.length

variable (db : Database) (c : Conn)

/-- All task identifiers handed out so far, in ascending order. Not each of them has
a row. -/
def taskIds : List TaskId :=
  (List.range db.lastTask).map fun i => ⟨i + 1, i.succ_pos⟩

theorem succ_lastNode_pos (db : Database) : 0 < db.lastNode + 1 := db.lastNode.succ_pos

/-- All node identifiers handed out so far, in ascending order. -/
def nodeIds : List NodeId :=
  (List.range db.lastNode).map fun i => ⟨i + 1, i.succ_pos⟩

/-- These are the identifiers up to the last. -/
theorem mem_taskIds {db : Database} {t : TaskId} : t ∈ db.taskIds ↔ t.value ≤ db.lastTask := by
  unfold taskIds
  rw [List.mem_map]
  constructor
  · rintro ⟨i, hi, rfl⟩
    exact List.mem_range.mp hi
  · intro h
    obtain ⟨_ | i, hpos⟩ := t
    · exact absurd hpos (Nat.lt_irrefl 0)
    · exact ⟨i, List.mem_range.mpr h, rfl⟩

/-- The same for the nodes. -/
theorem mem_nodeIds {db : Database} {n : NodeId} : n ∈ db.nodeIds ↔ n.value ≤ db.lastNode := by
  unfold nodeIds
  rw [List.mem_map]
  constructor
  · rintro ⟨i, hi, rfl⟩
    exact List.mem_range.mp hi
  · intro h
    obtain ⟨_ | i, hpos⟩ := n
    · exact absurd hpos (Nat.lt_irrefl 0)
    · exact ⟨i, List.mem_range.mpr h, rfl⟩

/-- The task rows a connection sees: the committed ones, with its own writes in
their place. -/
def visibleTasks : List (TaskId × TaskRow) :=
  db.taskIds.filterMap fun t => (db.tasks.read c t).map (t, ·)

/-- A task has one row, in whatever a list of rows is read from. -/
theorem nodup_rowsOf (rows : TaskId → Option TaskRow) :
    ((db.taskIds.filterMap fun t => (rows t).map (t, ·)).map Prod.fst).Nodup := by
  have hids : db.taskIds.Nodup := List.nodup_range.map fun i j h => by
    simpa using congrArg TaskId.value h
  rw [List.map_filterMap]
  refine hids.filterMap fun s t u hs ht => ?_
  obtain ⟨r, hr, rfl⟩ := Option.map_eq_some_iff.mp hs
  obtain ⟨row, -, rfl⟩ := Option.map_eq_some_iff.mp hr
  obtain ⟨r', hr', heq⟩ := Option.map_eq_some_iff.mp ht
  obtain ⟨row', -, rfl⟩ := Option.map_eq_some_iff.mp hr'
  exact heq.symm

/-- The nodes a connection sees, likewise. -/
def visibleNodes : List Node :=
  db.nodeIds.filterMap fun n => (db.nodes.read c n).map fun row =>
    { row with nodeId := n }

/-- Another transaction is deleting the node. A row that would refer to it has to
wait for the outcome. -/
def nodeDeleting (n : NodeId) : Bool :=
  match db.nodes.locks n with
  | some (c', none) => c' != c
  | _ => false

/-- Another transaction holds a task row that refers to the node, before or after
its write. Deleting the node would have to clear that row, and waits for it. -/
def nodeReferenced (n : NodeId) : Bool :=
  db.taskIds.any fun t => match db.tasks.locks t with
    | some (c', row) => c' != c &&
        (row.any (·.allocatedNodeId = some n) ||
          (db.tasks.rows t).any (·.allocatedNodeId = some n))
    | none => false

/-- The writes by which the deletion of a node clears the references of the tasks
that are not running. A running task's cannot be cleared, because the row would
violate the constraint. -/
def clearReferences (n : NodeId) (t : TaskId) : Option (Option TaskRow) :=
  match db.tasks.read c t with
  | some row =>
    if h : row.status ≠ .running then
      if row.allocatedNodeId = some n then some (some (row.clearNode h)) else none
    else none
  | none => none

/-- What is written is the row without its node, and the row was not running. -/
theorem clearReferences_eq_some {n : NodeId} {t : TaskId} {v : Option TaskRow}
    (h : db.clearReferences c n t = some v) :
    ∃ row, ∃ hr : row.status ≠ .running, db.tasks.read c t = some row ∧
      row.allocatedNodeId = some n ∧ v = some (row.clearNode hr) := by
  unfold clearReferences at h
  split at h
  · rename_i row hread
    split at h
    · rename_i hr
      split at h
      · rename_i hn
        exact ⟨row, hr, hread, hn, (Option.some.inj h).symm⟩
      · cases h
    · cases h
  · cases h

/-- Whether a running task refers to the node, as far as the transaction can see. -/
def runningOn (n : NodeId) : Bool :=
  db.taskIds.any fun t => (db.tasks.read c t).any fun row => row.RunsOn n

/-- Execute `update_by_id` on a row that it matches. The foreign key is checked only
if the reference changes, as PostgreSQL does. -/
def updateTask (task : AnyTask) (row : TaskRow) : Option (Except Exc Bool × Database) :=
  let row' := TaskRow.ofTask task row.createdAt
  let written := { db with tasks := db.tasks.write c task.taskId (some row') }
  match task.state.allocatedNodeId with
  | none => some (.ok true, written)
  | some n =>
    if row.allocatedNodeId = some n then some (.ok true, written)
    else if db.nodeDeleting c n then none
    else if (db.nodes.read c n).isSome then some (.ok true, written)
    else some (.error (.database "foreign key violation"), db)

/-- Write a node row that exists, or report that there is none. A row that another
transaction has written is waited for. -/
def writeNode (n : NodeId) (f : NewNode → NewNode) :
    Option (Except Exc Bool × Database) :=
  match db.nodes.read c n with
  | none => some (.ok false, db)
  | some row =>
    if db.nodes.lockedByOther c n then none
    else some (.ok true, { db with nodes := db.nodes.write c n (some (f row)) })

/-- **Execute a statement** in the transaction of a connection; `none` while it has
to wait. A read never waits. A statement that is refused changes nothing. -/
def exec : (st : Stmt) → Option (Except Exc st.Res × Database)
  | .taskGet t status =>
    some (.ok (((db.tasks.read c t).filter (·.status = status)).map (·.toTask t)), db)
  | .taskList status limit =>
    let rows := (db.visibleTasks c).filter (·.2.status = status)
    let rows := match limit with
      | some n => rows.take n
      | none => rows
    some (.ok (rows.map fun r => r.2.toTask r.1), db)
  | .taskIds n status =>
    some (.ok (((db.visibleTasks c).filter fun r =>
      r.2.allocatedNodeId = some n ∧ r.2.status = status).map (·.1)), db)
  | .taskUpdate task expected =>
    match db.tasks.read c task.taskId with
    | none => some (.ok false, db)
    | some row =>
      if expected.all (· = row.status) then
        if db.tasks.lockedByOther c task.taskId then none
        else db.updateTask c task row
      else some (.ok false, db)
  | .nodeListAll => some (.ok (db.visibleNodes c), db)
  | .nodeListEnabled =>
    some (.ok (db.order.arrange c ((db.visibleNodes c).filter (·.enabled))), db)
  | .nodeListDisabled =>
    some (.ok (db.order.arrange c
      ((db.visibleNodes c).filter fun n => !n.enabled ∧ n.hostname ≠ "")), db)
  | .nodeGet n =>
    some (.ok ((db.nodes.read c n).map fun row => { row with nodeId := n }), db)
  | .nodeInsert row =>
    let n : NodeId := ⟨db.lastNode + 1, db.succ_lastNode_pos⟩
    some (.ok { row with nodeId := n },
      { db with nodes := db.nodes.write c n (some row), lastNode := db.lastNode + 1 })
  | .nodeUpdate node => db.writeNode c node.nodeId fun _ => node.toNewNode
  | .nodeDisable n => db.writeNode c n fun row => { row with enabled := false }
  | .nodeRemove n =>
    match db.nodes.read c n with
    | none => some (.ok false, db)
    | some _ =>
      if db.nodes.lockedByOther c n || db.nodeReferenced c n then none
      else if db.runningOn c n then
        some (.error (.database "task_status_field_invariants"), db)
      else some (.ok true, { db with
        nodes := db.nodes.write c n none
        tasks := db.tasks.writeAll c (db.clearReferences c n) })

variable {db c}

/-- It writes the row or reports the foreign key, if it does not wait. -/
theorem updateTask_cases {task : AnyTask} {row : TaskRow} {r : Except Exc Bool}
    {db' : Database} (h : db.updateTask c task row = some (r, db')) :
    (r = .ok true ∧ db' = { db with
      tasks := db.tasks.write c task.taskId
        (some (TaskRow.ofTask task row.createdAt)) }) ∨
    (r = .error (.database "foreign key violation") ∧ db' = db) := by
  unfold updateTask at h
  split at h
  · cases h
    exact .inl ⟨rfl, rfl⟩
  · split at h
    · cases h
      exact .inl ⟨rfl, rfl⟩
    · split at h
      · cases h
      · split at h <;> cases h
        · exact .inl ⟨rfl, rfl⟩
        · exact .inr ⟨rfl, rfl⟩

/-- **What an update of a task can do**: write the row it matches, or leave
everything as it is. -/
theorem exec_taskUpdate {task : AnyTask} {expected : Option TaskStatus}
    {r : Except Exc Bool} {db' : Database}
    (h : db.exec c (.taskUpdate task expected) = some (r, db')) :
    (∃ row, db.tasks.read c task.taskId = some row ∧
      expected.all (· = row.status) = true ∧
      db.tasks.lockedByOther c task.taskId = false ∧ r = .ok true ∧
      db' = { db with
        tasks := db.tasks.write c task.taskId
          (some (TaskRow.ofTask task row.createdAt)) }) ∨
    (db' = db ∧ (r = .ok false ∨ r = .error (.database "foreign key violation"))) := by
  simp only [exec] at h
  split at h
  · cases h
    exact .inr ⟨rfl, .inl rfl⟩
  · rename_i row hread
    split at h
    · rename_i hexp
      split at h
      · cases h
      · rename_i hlock
        rcases updateTask_cases h with ⟨hr, hdb⟩ | ⟨hr, hdb⟩
        · exact .inl ⟨row, hread, hexp, Bool.eq_false_iff.mpr hlock, hr, hdb⟩
        · exact .inr ⟨hdb, .inr hr⟩
    · cases h
      exact .inr ⟨rfl, .inl rfl⟩

variable (db c)

/-- `COMMIT`. Both tables at once. -/
def commit : Database :=
  { db with tasks := db.tasks.commit c, nodes := db.nodes.commit c }

/-- `ROLLBACK`, and what the server does when a connection is closed or
lost. -/
def rollback : Database :=
  { db with tasks := db.tasks.rollback c, nodes := db.nodes.rollback c }

end Database

end Yascheduler
