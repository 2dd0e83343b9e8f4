import Yascheduler.Application.UnitOfWork
import Yascheduler.Codec.PosixPath

/-!
# Starting a task on a machine

The claim of a task is a status-guarded update whose row lock is held, in an
open transaction, across the whole deployment: occupying the machine,
uploading the inputs and spawning the process. Only then is the claim
committed and the occupancy monitor of the machine started.

The occupation is rolled back by the deployer itself, and only for what fails
up to and including the spawn.
-/

namespace Yascheduler

open Async
open PosixPath (joinPath)

/-! ## The deployer

The machine is occupied before the deployer awaits anything, so two coroutines
of one process cannot both get it. From there on an error has to give it back,
and `rollbackBusy` is the handler that does. -/

/-- Write the input files into the task's directory. The content is looked up under
the name of the file among the other data of the task, and a missing one is an
error. -/
def writeInputs (s : SessionId) (task : RunningTask) (remoteDir : String) :
    List String → Prog Unit
  | [] => pure ()
  | file :: files => do
    match task.extra.lookup file with
    | none => raise (.key file)
    | some data =>
      await (.sftpWrite s (joinPath remoteDir file)
        (if file = "fort.9" then .decoded data else .text data))
      writeInputs s task remoteDir files

/-- `_upload_task_data`. It returns `True` or raises. -/
def uploadTaskData (s : SessionId) (task : RunningTask) (remoteDir : String)
    (inputFiles : List String) : Prog Bool :=
  Co.asyncWith (await (.sftpOpen s)) (fun _ _ => await (.sftpClose s)) fun _ => do
    await (.sftpMakedirs s remoteDir)
    writeInputs s task remoteDir inputFiles
    return true

/-- `_exec_spawn_command`. The operation returns when the process was handed to the
shell of the machine. -/
def execSpawnCommand (s : SessionId) (engine : Engine) (task : RunningTask)
    (taskDir enginePath : String) (ncpus : Nat) : Prog Unit :=
  await (.runBg s task.taskId
    { template := engine.spawn
      enginePath := enginePath
      taskPath := taskDir
      ncpus := ncpus })

/-- The guarded part of `start_task_on_machine`: upload and spawn. The machine is
marked BUSY meanwhile, so a failure here has to free it again. -/
def deployAndSpawn (s : SessionId) (engine : Engine) (task : RunningTask)
    (ncpus : Nat) (enginesDir : String) : Prog Unit := do
  let dirs ← Co.asyncWith (await (.sftpOpen s)) (fun _ _ => await (.sftpClose s))
    fun _ => do
      let root ← await (.sftpRealpath s)
      let taskDir := joinPath root task.state.remoteFolder
      let enginePath := joinPath (joinPath root enginesDir) engine.name
      let _ ← uploadTaskData s task taskDir engine.inputFiles
      return (taskDir, enginePath)
  execSpawnCommand s engine task dirs.1 dirs.2 ncpus

/-- Roll back the BUSY marking, unless the session is closed. It also frees a
machine on which the process was started and only the answer failed. -/
def rollbackBusy (s : SessionId) (e : Exc) : Prog Unit := do
  let closed ← ask (.isClosed s)
  if closed then
    raise e
  let _ ← ask (.machineState s)
  ask (.release s)
  raise e

/-- `TaskDeployer.start_task_on_machine`. The machine is occupied before the first
suspension; a machine that is BUSY already is refused by an exception. -/
def deployerStart (s : SessionId) (engine : Engine) (task : RunningTask)
    (ncpus : Nat) (enginesDir : String) : Prog Bool := do
  let occupied ← ask (.occupy s)
  Co.ofExcept (S := sig) occupied
  Co.tryCatch (deployAndSpawn s engine task ncpus enginesDir) (rollbackBusy s)
  return true

/-- `Orchestrator._start_task_on_machine`: the number of cores comes from the
node row, or else from the machine. -/
def startTaskOnMachine (cfg : Settings) (s : SessionId) (engine : Engine)
    (task : RunningTask) : Prog Bool := do
  let node ← Uow.within fun c => Nodes.getById c task.state.allocatedNodeId
  let ncpus ← match node.bind (·.ncpus) with
    | some n => pure n
    | none => await (.cpuCores s)
  deployerStart s engine task ncpus cfg.remoteEnginesDir

/-! ## The claim

The claim is made before the machine is occupied and committed after the
process is spawned. In between the row is locked, and this is meant: whoever
else wants the task waits there, and finds it taken or free again. -/

/-- `_try_start_on_machine`. The row is claimed in the transaction that is committed
after the spawn, so its lock is held all along. -/
def tryStartOnMachine (cfg : Settings) (s : SessionId) (node : Node)
    (engine : Engine) (task : TodoTask) : Prog Bool := do
  let remoteFolder := joinPath cfg.remoteTasksDir
    (task.createdAt ++ "_" ++ toString task.taskId.value)
  let running := task.run node.nodeId remoteFolder
  let started ← Uow.within fun c => do
    Tasks.save c running.anyRunning (some .toDo)
    let started ← startTaskOnMachine cfg s engine running
    if !started then
      Uow.rollback c
      return false
    Uow.commit cfg c
    return true
  if !started then
    return false
  ask (.startOccupancyCheck s engine)
  ask (.trackerDiscard running.taskId)
  return true

end Yascheduler
