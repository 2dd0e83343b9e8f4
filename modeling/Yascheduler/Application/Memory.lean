import Yascheduler.Infra.Session
import Yascheduler.Infra.Database
import Yascheduler.Store.Dict
import Mathlib.Data.Finset.Basic
import Mathlib.Data.List.Sort

/-!
# The memory of one process

Everything the coroutines of a process share: the machine sessions and the
registry that maps a node to its current session, the allocation tracker, the
bookkeeping of the orchestrator, the queues, the locks, and the tasks each
unit of work has saved so far. A `Call` is a piece of code without an
`await` that reads or changes this memory; `Memory.call` says how.

A daemon has one event loop, so a call needs no lock: nothing else of the process
runs between its question and its answer. What another *process* does is not
seen here, since the only thing processes share is the database.

A session is kept in a heap under an identifier of its own, apart from the
registry, because the code passes sessions around. A coroutine may hold one that
was replaced in the registry, or closed, and go on to use it.
-/

namespace Yascheduler

open Store

/-! ## Queues

The queue keeps the identifiers of what is being worked on beside the messages
that wait. A message is a duplicate of either. Its identifier is taken out of
the first set by the worker, when it is done, and not when the message is
handed out. -/

/-- The queues of the orchestrator. There is one for each loop. -/
inductive QueueName where
  | connMachine
  | allocate
  | consume
  | deallocate
deriving DecidableEq

/-- The payload of a message. -/
@[reducible] def QueueName.Payload : QueueName → Type
  | .connMachine | .deallocate => Node
  | .allocate => TodoTask
  | .consume => RunningTask

/-- The identifier of a message. -/
def QueueName.msgId : (q : QueueName) → q.Payload → Nat
  | .connMachine, node | .deallocate, node => Node.nodeId node |>.value
  | .allocate, task => Task.taskId task |>.value
  | .consume, task => Task.taskId task |>.value

/-- `UniqueQueue`: the messages waiting, oldest first, and the identifiers of
those being worked on. -/
structure UniqueQueue (α : Type) where
  queue : List (Nat × α) := []
  donePending : List Nat := []

namespace UniqueQueue

variable {α : Type}

/-- `put`: a message whose identifier is queued or being worked on is
skipped. -/
def put (q : UniqueQueue α) (id : Nat) (payload : α) : UniqueQueue α :=
  if id ∈ q.queue.map (·.1) ∨ id ∈ q.donePending then q
  else { q with queue := q.queue ++ [(id, payload)] }

/-- `get`. -/
def get (q : UniqueQueue α) : Option (α × UniqueQueue α) :=
  match q.queue with
  | [] => none
  | m :: ms => some (m.2, { queue := ms, donePending := m.1 :: q.donePending })

/-- `item_done`. -/
def itemDone (q : UniqueQueue α) (id : Nat) : UniqueQueue α :=
  { q with donePending := q.donePending.erase id }

end UniqueQueue

/-! ## The memory -/

/-- The memory of a process. Each field is a part of the source, and nothing survives
the end of the process. -/
structure Memory where
  /-- the session objects -/
  heap : SessionId → Option Session := fun _ => none
  /-- the next number of a session object -/
  nextSession : Nat := 0
  /-- `SSHMachineRepository._sessions` -/
  registry : Dict NodeId SessionId := []
  /-- `AllocationTracker._entries` -/
  tracker : Dict TaskId (Option NodeId) := []
  /-- `Orchestrator._occupancy_started` -/
  occupancyStarted : Finset NodeId := ∅
  /-- `Orchestrator._consuming` -/
  consuming : Finset TaskId := ∅
  /-- `machine_not_found` -/
  machineNotFound : TaskId → Nat := fun _ => 0
  /-- `Orchestrator._connect_failures` -/
  connectFailures : Dict NodeId Nat := []
  /-- the allocation lock is held -/
  allocationLock : Bool := false
  /-- slots taken of each provider's semaphore -/
  slots : String → Nat := fun _ => 0
  /-- `PostgresUnitOfWork._saved_tasks`, by connection -/
  savedTasks : Nat → List AnyTask := fun _ => []
  queues : (q : QueueName) → UniqueQueue q.Payload := fun _ => {}

/-! ## Calls

A call is a question, a change, or both. They are the places where the source
touches its own memory between two awaits, cut as finely as is needed: where
two such places follow each other without an await they are two calls, and
nobody comes in between. -/

/-- Code without an `await` on the memory of the process. There is a constructor for
each such piece, with what it is given. -/
inductive Call where
  -- unit of work
  | savedAppend (c : Nat) (task : AnyTask)
  | savedTake (c : Nat)
  | savedClear (c : Nat)
  -- machine repository
  | listFree (platforms : Option (List String))
  | listConnected
  | getSession (n : NodeId)
  | contains (n : NodeId)
  | popSession (n : NodeId)
  -- machine session
  | machineState (s : SessionId)
  | isClosed (s : SessionId)
  | occupy (s : SessionId)
  | release (s : SessionId)
  | startOccupancyCheck (s : SessionId) (engine : Engine)
  | markClosed (s : SessionId)
  | closeConn (s : SessionId)
  -- allocation tracker
  | trackerAdd (t : TaskId)
  | trackerSetNode (t : TaskId) (n : NodeId)
  | trackerDiscard (t : TaskId)
  | trackerDiscardByNode (n : NodeId)
  -- orchestrator
  | startedContains (n : NodeId)
  | startedAdd (n : NodeId)
  | startedDiscard (n : NodeId)
  | consumingContains (t : TaskId)
  | consumingAdd (t : TaskId)
  | consumingDiscard (t : TaskId)
  | notFoundUpdate (t : TaskId)
  | failureSetdefault (n : NodeId)
  | failurePop (n : NodeId)
  | itemDone (q : QueueName) (id : Nat)
  -- locks and clocks
  | lockRelease
  | slotsTaken (provider : String)
  | slotRelease (provider : String)
  | monotonic

/-- The answer of a call. -/
@[reducible] def Call.Ans : Call → Type
  | .savedTake _ => List AnyTask
  | .listFree _ => List SessionId
  | .listConnected => List (SessionId × ConnectedMachine)
  | .getSession _ | .popSession _ => Option SessionId
  | .contains _ | .isClosed _ | .closeConn _ => Bool
  | .machineState _ => MachineState
  | .occupy _ => Except Exc Unit
  | .markClosed _ => Option Bool
  | .trackerAdd _ | .startedContains _ | .consumingContains _ => Bool
  | .trackerDiscardByNode _ | .notFoundUpdate _ | .slotsTaken _ | .monotonic
  | .failureSetdefault _ => Nat
  | _ => Unit

namespace Memory

/-- A memory with these sessions registered. -/
def ofSessions (sessions : List (SessionId × Session)) : Memory where
  heap s := sessions.lookup s
  nextSession := sessions.length
  registry := sessions.map fun e => (e.1.node, e.1)

variable (m : Memory)

/-- Change a session object. -/
def modifySession (s : SessionId) (f : Session → Session) : Memory :=
  { m with heap := Function.update m.heap s ((m.heap s).map f) }

/-- Change the saved tasks of a unit of work. -/
def modifySaved (c : Nat) (f : List AnyTask → List AnyTask) : Memory :=
  { m with savedTasks := Function.update m.savedTasks c (f (m.savedTasks c)) }

/-- Change a queue. -/
def modifyQueue (q : QueueName) (f : UniqueQueue q.Payload → UniqueQueue q.Payload) :
    Memory :=
  { m with queues := Function.update m.queues q (f (m.queues q)) }

/-- Change the number of slots taken of a provider. -/
def modifySlots (provider : String) (f : Nat → Nat) : Memory :=
  { m with slots := Function.update m.slots provider (f (m.slots provider)) }

/-- One more miss of a task's machine. -/
def bumpNotFound (t : TaskId) : Memory :=
  let count := m.machineNotFound t + 1
  { m with machineNotFound := Function.update m.machineNotFound t count }

/-- `session.machine.state`. -/
def machineState (s : SessionId) : MachineState :=
  ((m.heap s).map (·.machine.state)).getD .free

/-- `free_since or 0.0`. -/
def freeSince (s : SessionId) : Nat :=
  ((m.heap s).bind fun x => x.machine.freeSince).getD 0

/-- `list_free`: the registered sessions that are FREE and, if platforms are
given, share one of them, the one that has been free longest first. -/
def listFree (platforms : Option (List String)) : List SessionId :=
  let wanted := (m.registry.map (·.2)).filter fun s =>
    m.machineState s = .free && match platforms with
      | some ps => (m.heap s).any fun x => x.machine.platforms.any (· ∈ ps)
      | none => true
  wanted.insertionSort fun s s' => m.freeSince s ≤ m.freeSince s'

/-- `list_connected`. -/
def listConnected : List (SessionId × ConnectedMachine) :=
  m.registry.filterMap fun e => (m.heap e.2).map fun x => (e.2, x.machine)

/-- **Run a call**, at a time of the monotonic clock. It answers and changes the
memory in one step. -/
def call (now : Nat) : (c : Call) → c.Ans × Memory
  | .savedAppend c task =>
    ((), m.modifySaved c (· ++ [task]))
  | .savedTake c =>
    (m.savedTasks c, m.modifySaved c fun _ => [])
  | .savedClear c => ((), m.modifySaved c fun _ => [])
  | .listFree platforms => (m.listFree platforms, m)
  | .listConnected => (m.listConnected, m)
  | .getSession n => (m.registry.get n, m)
  | .contains n => ((m.registry.get n).isSome, m)
  | .popSession n => (m.registry.get n, { m with registry := m.registry.pop n })
  | .machineState s => (m.machineState s, m)
  | .isClosed s => ((m.heap s).any (·.closed), m)
  | .occupy s =>
    match (m.heap s).map Session.occupy with
    | some (.ok x) => (.ok (), m.modifySession s fun _ => x)
    | some (.error e) => (.error e, m)
    | none => (.error (.other "no such session"), m)
  | .release s => ((), m.modifySession s (·.release now))
  | .startOccupancyCheck s engine =>
    ((), m.modifySession s (·.startOccupancyCheck engine))
  | .markClosed s =>
    ((m.heap s).bind fun x => x.markClosed.1, m.modifySession s (·.markClosed.2))
  | .closeConn s =>
    ((m.heap s).any fun x => x.closeConn.1, m.modifySession s (·.closeConn.2))
  | .trackerAdd t =>
    if (m.tracker.get t).isSome then (false, m)
    else (true, { m with tracker := m.tracker.set t none })
  | .trackerSetNode t n =>
    if (m.tracker.get t).isSome then ((), { m with tracker := m.tracker.set t (some n) })
    else ((), m)
  | .trackerDiscard t => ((), { m with tracker := m.tracker.pop t })
  | .trackerDiscardByNode n =>
    let (gone, kept) := m.tracker.partition fun e => e.2 = some n
    (gone.length, { m with tracker := kept })
  | .startedContains n => (n ∈ m.occupancyStarted, m)
  | .startedAdd n => ((), { m with occupancyStarted := insert n m.occupancyStarted })
  | .startedDiscard n => ((), { m with occupancyStarted := m.occupancyStarted.erase n })
  | .consumingContains t => (t ∈ m.consuming, m)
  | .consumingAdd t => ((), { m with consuming := insert t m.consuming })
  | .consumingDiscard t => ((), { m with consuming := m.consuming.erase t })
  | .notFoundUpdate t => (m.machineNotFound t + 1, m.bumpNotFound t)
  | .failureSetdefault n =>
    match m.connectFailures.get n with
    | some since => (since, m)
    | none => (now, { m with connectFailures := m.connectFailures.set n now })
  | .failurePop n => ((), { m with connectFailures := m.connectFailures.pop n })
  | .itemDone q id => ((), m.modifyQueue q (·.itemDone id))
  | .lockRelease => ((), { m with allocationLock := false })
  | .slotsTaken provider => (m.slots provider, m)
  | .slotRelease provider => ((), m.modifySlots provider (· - 1))
  | .monotonic => (now, m)

end Memory

end Yascheduler
