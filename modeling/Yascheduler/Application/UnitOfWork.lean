import Yascheduler.Application.World

/-!
# Units of work and repositories

A unit of work is one transaction on a connection of its own. Leaving it
after an error rolls back; leaving it in any way closes the connection, and
whatever was not committed is gone with it. Both are awaited under
`suppress(Exception)`, so an exception there is swallowed – but a
cancellation is not, and then the rest of the exit does not run.

Committing awaits COMMIT and then delivers the events of the saved tasks to
the handlers, one after the other. A handler that raises is skipped; a
handler that is cancelled ends the commit with the cancellation, long after
COMMIT has taken effect.
-/

namespace Yascheduler

open Async

/-! ## The unit of work

The exit of a unit of work is the last chance to end a transaction, and it can
be cut short by a cancellation. What is then left open is ended when the
connection is reclaimed, which is some time after the coroutine has ended. -/

namespace Uow

/-- `__aenter__`: connect and begin. When BEGIN fails, `__aexit__` is not reached,
and the connection is closed here. -/
def enter : Prog Nat := do
  let c ← await .connect
  Co.tryCatch (do await (.begin c); return c) fun e => do
    suppress (await (.close c))
    raise e

/-- `rollback`. Once it has succeeded the saved tasks are forgotten, so nothing is
published for them. -/
def rollback (c : Nat) : Prog Unit := do
  await (.rollback c)
  ask (.savedClear c)

/-- `__aexit__`. A body that ends without a commit and without an error is not
rolled back but closed, which comes to the same. Only ordinary exceptions are
suppressed, so a cancellation can skip the close. -/
def exit (c : Nat) (exc : Option Exc) : Prog Unit := do
  if exc.isSome then
    suppress (rollback c)
  suppress (await (.close c))

/-- `async with uow_factory() as uow: body`. Each has a connection of its own, and
nothing is shared between two of them but the database. -/
def within {α : Type} (body : Nat → Prog α) : Prog α :=
  Co.asyncWith (S := sig) enter exit body

/-- `MessageBus.dispatch`, with at most one handler for each event. A handler that
fails is passed over. -/
def dispatch (cfg : Settings) : List DomainEvent → Prog Unit
  | [] => pure ()
  | e :: es => do
    if cfg.webhooks then
      suppress (await (.handler e))
    dispatch cfg es

/-- `publish_events`. The tasks are taken before the first handler is awaited. -/
def publishEvents (cfg : Settings) (c : Nat) : Prog Unit := do
  let tasks ← ask (.savedTake c)
  dispatch cfg (tasks.flatMap (·.events))
  ask (.savedClear c)

/-- `commit`. The events are published after COMMIT has succeeded, and their failure
cannot undo it. -/
def commit (cfg : Settings) (c : Nat) : Prog Unit := do
  await (.commit c)
  suppress (publishEvents cfg c)

end Uow

/-! ## The task repository

A save is guarded by the status that the caller has seen, where it says so.
This is the only thing that keeps a save of an old copy from overwriting what
somebody else has written, and only the claim of a task asks for it. -/

namespace Tasks

/-- `save`. The row is matched by its identifier, and by its status where one is
expected. A row that does not match is an error, and the caller's transaction is
rolled back with it. -/
def save (c : Nat) (task : AnyTask) (expected : Option TaskStatus := none) :
    Prog Unit := do
  let found ← await (.sql c (.taskUpdate task expected))
  if found then
    ask (.savedAppend c task)
  else
    raise (.taskRowNotFound task.taskId)

/-- `get_todo`. The query asks for the status as well, so there is no task for a row
in another status. -/
def getTodo (c : Nat) (t : TaskId) : Prog (Option TodoTask) := do
  let row ← await (.sql c (.taskGet t .toDo))
  return row.bind AnyTask.todo?

/-- `get_running`, likewise. -/
def getRunning (c : Nat) (t : TaskId) : Prog (Option RunningTask) := do
  let row ← await (.sql c (.taskGet t .running))
  return row.bind AnyTask.running?

/-- `list_todo`, in the order of the identifiers. -/
def listTodo (c : Nat) (limit : Option Nat) : Prog (List TodoTask) := do
  let rows ← await (.sql c (.taskList .toDo limit))
  return rows.filterMap AnyTask.todo?

/-- `list_running`, in the same order. -/
def listRunning (c : Nat) : Prog (List RunningTask) := do
  let rows ← await (.sql c (.taskList .running none))
  return rows.filterMap AnyTask.running?

/-- `list_ids_by_node_id_and_status`. -/
def listIdsByNodeIdAndStatus (c : Nat) (n : NodeId) (status : TaskStatus) :
    Prog (List TaskId) :=
  await (.sql c (.taskIds n status))

end Tasks

/-! ## The node repository -/

namespace Nodes

/-- `list_all`. -/
def listAll (c : Nat) : Prog (List Node) := await (.sql c .nodeListAll)

/-- `list_enabled`. The order of the rows is not settled by the query. -/
def listEnabled (c : Nat) : Prog (List Node) := await (.sql c .nodeListEnabled)

/-- `list_disabled`, in an order of its own. -/
def listDisabled (c : Nat) : Prog (List Node) := await (.sql c .nodeListDisabled)

/-- `get_by_id`. -/
def getById (c : Nat) (n : NodeId) : Prog (Option Node) := await (.sql c (.nodeGet n))

/-- `insert`. The identifier comes from the database. -/
def insert (c : Nat) (row : NewNode) : Prog Node := await (.sql c (.nodeInsert row))

/-- An update or deletion that has to match a row. The error leaves the unit of
work, which rolls the rest of the transaction back. -/
def mustMatch (n : NodeId) (found : Bool) : Prog Unit :=
  if found then pure () else raise (.nodeRowNotFound n)

/-- `update`. -/
def update (c : Nat) (node : Node) : Prog Unit := do
  let found ← await (.sql c (.nodeUpdate node))
  mustMatch node.nodeId found

/-- `disable`. -/
def disable (c : Nat) (n : NodeId) : Prog Unit := do
  let found ← await (.sql c (.nodeDisable n))
  mustMatch n found

/-- `remove`. -/
def remove (c : Nat) (n : NodeId) : Prog Unit := do
  let found ← await (.sql c (.nodeRemove n))
  mustMatch n found

end Nodes

end Yascheduler
