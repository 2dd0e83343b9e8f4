import Mathlib.Algebra.Ring.Int.Defs
import Yascheduler.Application.AllocateTask
import Yascheduler.Application.ConsumeTask
import Yascheduler.Application.AbandonNode

/-!
# The loops of the daemon

Four loops drive the daemon, each with one producer and several workers. A
producer reads the database and the memory of the daemon and puts messages
into a queue that keeps at most one message for each identifier; a worker
takes a message out and runs the consumer on it. One cycle of a producer and
one message of a worker are the programs here; a loop repeats them.

An ordinary exception of a producer or a consumer is logged and the loop goes
on. A cancellation ends it.

The messages carry the data of the moment they were made: a worker of the consume
queue is given the task as its row was then, and abandons *that* if the machine
is gone. Whether it is still so in the database is decided by the statement that
saves it.

The periods of the loops and the number of workers are not here. A cycle may
begin at any time and a worker may be started at any time, which covers all of
them.
-/

namespace Yascheduler

open Store Async

/-! ## Producer and worker cycles -/

/-- Put messages into a queue, one after the other. A producer can be stopped
between two of them, by a cancellation or by a full queue, and the rest is put in a
later cycle. -/
def putAll (q : QueueName) : List q.Payload → Prog Unit
  | [] => pure ()
  | m :: ms => do
    await (.queuePut q m)
    putAll q ms

/-- One cycle of a producer that puts its messages into its queue. An exception only
costs the cycle; the sleep between two cycles is not here, since a cycle may begin
at any time. -/
def producerCycle (producer : Prog Unit) : Prog Unit :=
  exceptException producer fun _ => pure ()

/-- One message of a worker. The identifier leaves the queue's set of waiting and
running messages in the `finally`, so from then on the producer can put it again,
whatever became of the message. -/
def workerCycle (q : QueueName) (consumer : q.Payload → Prog Unit) : Prog Unit := do
  let m ← await (.queueGet q)
  Co.tryFinally (exceptException (consumer m) fun _ => pure ())
    (ask (.itemDone q (q.msgId m)))

/-! ## Connecting machines

The grace period of a node begins with its first failed connection and ends
with a connection or with the abandonment of the node. It is kept in the memory
of the daemon, so a daemon that is started anew gives every node a new one. -/

/-- Those of the nodes that are not registered, asked for without a suspension in
between. -/
def notConnected : List Node → Prog (List Node)
  | [] => return []
  | node :: nodes => do
    let connected ← ask (.contains node.nodeId)
    let rest ← notConnected nodes
    return if connected then rest else node :: rest

/-- The enabled nodes, and the disabled ones that still have a task. The latter are
connected because their results have yet to be fetched. -/
def enabledOrDraining : Prog (List Node) :=
  Uow.within fun c => do
    let enabled ← Nodes.listEnabled c
    let running ← Tasks.listRunning c
    let busy := running.map (·.state.allocatedNodeId)
    let disabled ← Nodes.listDisabled c
    return enabled ++ disabled.filter fun n => n.nodeId ∈ busy

/-- `_connect_machine_producer`. A node that is lost is found here again and again
until it is abandoned, because it is enabled and not registered. -/
def connectMachineProducer : Prog Unit := do
  let nodes ← enabledOrDraining
  let new ← notConnected nodes
  putAll .connMachine new

/-- `_connect_grace_for`. A cloud that is no longer configured has the default. -/
def connectGraceFor (cfg : Settings) (cloud : String) : Nat :=
  match cfg.clouds.find? fun c => c.name = cloud with
  | some c => c.connectGrace
  | none => 120

/-- What `_connect_machine_consumer` does about a connection error. The first
failure starts the clock and later ones leave it alone; a node that belongs to no
cloud is never abandoned. -/
def onConnectionError (cfg : Settings) (node : Node) : Prog Unit :=
  match node.cloud with
  | none => pure ()
  | some cloud => do
    let firstSeen ← ask (.failureSetdefault node.nodeId)
    let now ← ask .monotonic
    if now - firstSeen < connectGraceFor cfg cloud then
      return
    suppress (abandonNode cfg node)
    ask (.failurePop node.nodeId)

/-- `_connect_machine_consumer`. Only a connection error counts against the node. A
missing directory of keys is turned into one. -/
def connectMachineConsumer (cfg : Settings) (node : Node) : Prog Unit :=
  exceptException
    (do
      Co.tryCatch (await .listPrivateKeys) fun e => match e with
        | .fileNotFound _ => raise (.machineConnection node.nodeId node.hostname
            "keys_dir does not exist")
        | e => raise e
      let _ ← await (.connectMachine node)
      ask (.failurePop node.nodeId))
    fun e => match e with
      | .machineConnection _ _ _ => onConnectionError cfg node
      | _ => pure ()

/-! ## Allocating tasks

The number of tasks that are put in one cycle is an estimate. It does not say
which of them can be started, and it need not be right: a task for which
nothing is free is looked up, found to have no machine, and found again in the
next cycle. -/

/-- `_clouds_get_capacity`. A cloud that is over its limit takes from the capacity
of the others, and only the total is cut at zero. -/
def cloudsGetCapacity (cfg : Settings) : Prog Nat := do
  let nodes ← Uow.within fun c => Nodes.listAll c
  let counts := countNodesByCloud nodes
  let maxNodes := (cfg.activeClouds.map (·.maxNodes)).sum
  let current := (cfg.activeClouds.map fun c =>
    (((counts.get c.name).getD 0 : Nat) : Int)).sum
  return (maxNodes - current).toNat

/-- `_allocator_producer`. The number of tasks is an estimate of what can be
started, and never less than ten. -/
def allocatorProducer (cfg : Settings) : Prog Unit := do
  let ccap ← cloudsGetCapacity cfg
  let free ← ask (.listFree none)
  let tlim := max (max ccap free.length) 10
  let tasks ← Uow.within fun c => Tasks.listTodo c (some tlim)
  putAll .allocate tasks

/-- `_allocator_consumer`. The task is looked up again by its identifier: of the
message nothing else is used. -/
def allocatorConsumer (cfg : Settings) (task : TodoTask) : Prog Unit :=
  exceptException (do let _ ← allocateTask cfg task.taskId) fun _ => pure ()

/-! ## Consuming tasks

A task is consumed when its machine is free again. Its session says so once the
occupancy check has run, which is started in the first tick after the machine
was connected. So a tick may only start the check, or find the machine busy, or
consume the task, or miss the machine. -/

/-- Put the tasks that are not being consumed at that moment. The queue alone would
let a task in again once its worker is done with the message, though not before. -/
def putNotConsuming : List RunningTask → Prog Unit
  | [] => pure ()
  | task :: tasks => do
    let consuming ← ask (.consumingContains task.taskId)
    if !consuming then
      await (.queuePut .consume task)
    putNotConsuming tasks

/-- `_task_consumer_producer`. The tasks come from one query, and each is looked up
among those being consumed only when its turn comes. -/
def taskConsumerProducer : Prog Unit := do
  let tasks ← Uow.within fun c => Tasks.listRunning c
  putNotConsuming tasks

/-- Abandon a task whose machine is gone, as it was in the message. The row is saved
whatever its status is by then. -/
def abandonTask (cfg : Settings) (task : RunningTask) : Prog Unit :=
  Co.tryFinally
    (Uow.within fun c => do
      Tasks.save c (task.abandon).anyDone
      Uow.commit cfg c)
    (ask (.trackerDiscard task.taskId))

/-- The machine of the task is gone: after more than twenty cycles the task is
abandoned. -/
def machineGone (cfg : Settings) (task : RunningTask) : Prog Unit := do
  let count ← ask (.notFoundUpdate task.taskId)
  if 20 < count then
    abandonTask cfg task

/-- The count comes first, and the branch is chosen by it. -/
theorem machineGone_eq (cfg : Settings) (task : RunningTask) :
    machineGone cfg task = .call (.notFoundUpdate task.taskId) fun count =>
      if 20 < count then abandonTask cfg task else .ret () := rfl

/-- Consume the task, guarded by `_consuming`. The mark is taken away in a
`finally`, so a failed consumption can be repeated. -/
def consumeGuarded (cfg : Settings) (t : TaskId) (s : SessionId) : Prog Unit := do
  ask (.consumingAdd t)
  let finalised ← Co.tryFinally (consumeTask cfg t s) (ask (.consumingDiscard t))
  if finalised then
    ask (.startedDiscard s.node)

/-- Consume the task if its machine is FREE and was checked at least once. FREE
alone is not enough, because a machine that was just connected is FREE until the
first check. -/
def consumeIfFree (cfg : Settings) (t : TaskId) (s : SessionId) : Prog Unit := do
  let state ← ask (.machineState s)
  let started ← ask (.startedContains s.node)
  if state = .free ∧ started then
    consumeGuarded cfg t s

/-- What `_task_consumer_consumer` does when there is a session. The first time it
only starts the occupancy check, and the outputs are fetched when the check has
freed the machine. The source looks the session up once more after that, but nothing
has run in between, and the machine is BUSY. Without a configured engine there is no
check to start. -/
def consumeAt (cfg : Settings) (task : RunningTask) (s : SessionId) : Prog Unit := do
  if ← ask (.startedContains s.node) then
    consumeIfFree cfg task.taskId s
  else
    match cfg.engines.get task.engine with
    | none => consumeIfFree cfg task.taskId s
    | some engine =>
      ask (.startOccupancyCheck s engine)
      ask (.startedAdd s.node)
      match ← ask (.getSession s.node) with
      | none => return
      | some s => consumeIfFree cfg task.taskId s

/-- `_task_consumer_consumer`. The session is looked up once and used to the end,
even if another is registered for the node meanwhile. -/
def taskConsumerConsumer (cfg : Settings) (task : RunningTask) : Prog Unit := do
  match ← ask (.getSession task.state.allocatedNodeId) with
  | none => machineGone cfg task
  | some s => consumeAt cfg task s

/-- The session is looked up, and that decides the branch. -/
theorem taskConsumerConsumer_eq (cfg : Settings) (task : RunningTask) :
    taskConsumerConsumer cfg task =
      .call (.getSession task.state.allocatedNodeId) fun found => match found with
        | none => machineGone cfg task
        | some s => consumeAt cfg task s := by
  refine congrArg (Co.call (S := sig) (.getSession task.state.allocatedNodeId)) ?_
  funext found
  cases found <;> rfl

/-! ## Deallocating nodes

The producer both disables nodes and queues them, and the worker tears them
down one by one. By then a task may have been started on the machine, so the
worker first looks whether it is BUSY, and leaves it alone if it is. -/

/-- The machines that are FREE, with the time they became so. Without a time a
machine is not idle. -/
def idleMachines (machines : List (SessionId × ConnectedMachine)) : Dict NodeId Nat :=
  machines.foldl (fun idle m =>
    match m.2.state, m.2.freeSince with
    | .free, some since => idle.set m.1.node since
    | _, _ => idle) []

/-- `_deallocator_producer`. What was idle when the machines were listed is looked
up in the database afterwards, so the nodes it puts were idle some time ago. -/
def deallocatorProducer (cfg : Settings) : Prog Unit := do
  let machines ← ask .listConnected
  let nodes ← deallocateNodes cfg (idleMachines machines)
  putAll .deallocate nodes

/-- `_deallocator_consumer`. A failure is logged, and the next cycle of the producer
finds the node again. -/
def deallocatorConsumer (cfg : Settings) (node : Node) : Prog Unit :=
  suppress (deallocateNode cfg node)

end Yascheduler
