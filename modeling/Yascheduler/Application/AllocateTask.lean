import Yascheduler.Application.StartTask
import Yascheduler.Infra.CloudProvisioner

/-!
# Allocating a task

A TO_DO task is offered to every free machine its engine can run on, one
after the other, until one of them takes it. Which machines are free is read
once: the running tasks and the enabled nodes in one transaction, the free
sessions right after it. If no machine takes the task, a node is requested
from a cloud provider: a temporary row reserves the capacity, the provider
creates the VM, and the row becomes the enabled node.

## Two ways to leave

A machine is tried in a unit of work of its own, so giving up on one leaves
nothing open when the next one is tried. The cloud section is different. It holds
a row that other allocators count, and has to give it back by hand in every way
it can be left; its `finally` is written out here as the code has it, with the
two variables it reads.
-/

namespace Yascheduler

open Store Async

/-! ## Free machines

Three lists are joined: the free sessions of the process, the enabled nodes and
the running tasks. The last two are of one moment, and the first of the next,
with nothing in between that could suspend. From there on the pairs get old
while the machines are tried. -/

/-- `_validate_engine`: a task with an unknown engine is rejected. The rejection
does not ask which status the row has by then. -/
def validateEngine (cfg : Settings) (task : TodoTask) : Prog (Option Engine) :=
  match cfg.engines.getNonempty task.engine with
  | some engine => pure (some engine)
  | none => do
    Uow.within fun c => do
      Tasks.save c (task.reject "unsupported engine").anyDone
      Uow.commit cfg c
    return none

/-- The pairs of a free session and its node: the node has to be enabled and may not
be busy. Which nodes are busy is known from the query only, so it may be out of date
when the task is started. -/
def freePairs (running : List RunningTask) (enabled : List Node)
    (sessions : List SessionId) : List (SessionId × Node) :=
  let busy := running.map (·.state.allocatedNodeId)
  sessions.filterMap fun s =>
    match (enabled.reverse.find? fun n => n.nodeId = s.node) with
    | some n => if s.node ∈ busy then none else some (s, n)
    | none => none

/-- `_find_free_machines`. The sessions are listed after the query, without a
suspension in between. -/
def findFreeMachines (engine : Engine) : Prog (List (SessionId × Node)) := do
  let (running, enabled) ← Uow.within fun c => do
    let running ← Tasks.listRunning c
    let enabled ← Nodes.listEnabled c
    return (running, enabled)
  let sessions ← ask (.listFree (some engine.platforms))
  return freePairs running enabled sessions

/-- The loop of `_allocate_free_machine`: a machine that fails does not end it.
Between two machines others run, and the later pairs get older. -/
def tryMachines (cfg : Settings) (engine : Engine) (task : TodoTask) :
    List (SessionId × Node) → Prog Bool
  | [] => pure false
  | (s, node) :: pairs => do
    let started ← exceptException (tryStartOnMachine cfg s node engine task)
      fun _ => pure false
    if started then
      return true
    tryMachines cfg engine task pairs

/-- `_allocate_free_machine`. Whether a machine was found and the task was started
on it. -/
def allocateFreeMachine (cfg : Settings) (engine : Engine) (task : TodoTask) :
    Prog Bool := do
  let pairs ← findFreeMachines engine
  tryMachines cfg engine task pairs

/-! ## A node from the cloud

The part has three transactions: one that reserves a place with a temporary
row, one that makes it a node, and one that removes it if this does not come
about. In between the VM is created, which takes minutes. The lock is held for
the first one only. -/

/-- `_count_nodes_by_cloud`. Temporary rows count as well, and that is what keeps
two coroutines from taking the same place. -/
def countNodesByCloud (nodes : List Node) : Dict String Nat :=
  nodes.foldl (fun counts n =>
    if n.hasCloud then
      let cloud := n.cloud.getD ""
      counts.set cloud ((counts.get cloud).getD 0 + 1)
    else counts) []

/-- `_select_and_insert_tmp`: the provider and the temporary row. The lock is held
until the row is committed, so within one process the next count sees it. -/
def selectAndInsertTmp (cfg : Settings) (engine : Engine) :
    Prog (Option (String × Node)) :=
  Co.asyncWith (await .lockAcquire) (fun _ _ => ask .lockRelease) fun _ =>
    Uow.within fun c => do
      let nodes ← Nodes.listAll c
      match ← selectProvider cfg engine.platforms (countNodesByCloud nodes) with
      | none => return none
      | some name =>
        let tmp ← Nodes.insert c { cloud := some name, enabled := false }
        Uow.commit cfg c
        return some (name, tmp)

/-- `_cleanup_tmp_node_best_effort`. It may be called for a row that is gone
already; then the error of the repository is suppressed with the others. -/
def cleanupTmpNode (cfg : Settings) (n : NodeId) : Prog Unit :=
  exceptException
    (Uow.within fun c => do
      Nodes.remove c n
      Uow.commit cfg c)
    fun _ => pure ()

/-- `_allocate_cloud_node`. The temporary row is removed on an ordinary failure;
after a cancellation this is left to the `finally` further out. -/
def allocateCloudNode (cfg : Settings) (name : String) (tmp : Node) : Prog Node :=
  exceptException (cloudsAllocate cfg name tmp) fun e => do
    cleanupTmpNode cfg tmp.nodeId
    raise e

/-- `_persist_node_with_cleanup`. Here even a cancellation is caught: the VM is
there, and nobody else knows of it. -/
def persistNodeWithCleanup (cfg : Settings) (node : Node) (tmp : NodeId) : Prog Unit :=
  Co.tryCatch
    (Uow.within fun c => do
      Nodes.update c node
      Uow.commit cfg c)
    fun e => do
      exceptException (cloudsDeallocate cfg node) fun _ => pure ()
      cleanupTmpNode cfg tmp
      raise e

/-- The guarded part of the cloud section: whether a node was provisioned, and the
temporary row as far as it is known. The two mutable variables of the source are the
state of this part, which its `finally` reads; here the part reports them itself,
whether it ends normally or by raising. A row that was committed before the
selection was interrupted is not known. -/
def cloudSection (cfg : Settings) (engine : Engine) (task : TodoTask) :
    Prog (Except Exc Unit × Bool × Option NodeId) := do
  match ← Co.attempt (selectAndInsertTmp cfg engine) with
  | .error e => return (.error e, false, none)
  | .ok none => return (.ok (), false, none)
  | .ok (some (name, tmp)) =>
    ask (.trackerSetNode task.taskId tmp.nodeId)
    let r ← Co.attempt (do
      let node ← allocateCloudNode cfg name tmp
      persistNodeWithCleanup cfg node tmp.nodeId)
    return (r, Except.isOk r, some tmp.nodeId)

/-- The cloud critical section of `allocate_task`, with its `finally`. It never
reports success: the task is started by a later cycle, when the node is connected.
-/
def allocateCloud (cfg : Settings) (engine : Engine) (task : TodoTask) :
    Prog Bool := do
  let added ← ask (.trackerAdd task.taskId)
  if !added then
    return false
  let (r, cloudAllocated, tmp) ← cloudSection cfg engine task
  if !cloudAllocated then
    ask (.trackerDiscard task.taskId)
    match tmp with
    | some n => cleanupTmpNode cfg n
    | none => pure ()
  Co.ofExcept (S := sig) r
  return false

/-! ## The use case -/

/-- `allocate_task`. A task that is not TO_DO any more is left alone, and a free
machine is preferred to a new one. -/
def allocateTask (cfg : Settings) (t : TaskId) : Prog Bool := do
  match ← Uow.within fun c => Tasks.getTodo c t with
  | none => return false
  | some task =>
    match ← validateEngine cfg task with
    | none => return false
    | some engine =>
      if ← allocateFreeMachine cfg engine task then
        return true
      if engine.platforms.isEmpty then
        return false
      allocateCloud cfg engine task

end Yascheduler
