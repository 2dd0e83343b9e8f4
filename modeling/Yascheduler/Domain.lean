import Mathlib.Data.List.Basic

/-!
# Entities of the scheduler

Tasks, nodes and connected machines, as immutable values. A task carries its
lifecycle state on its type: a `Task Todo` can be run or rejected, a
`Task Running` can be completed, failed or abandoned, and a `Task Done` can
do nothing. The state says which of the correlated fields – node, remote
folder, error – the task has, so that a running task without a node cannot
be written down. Every transition appends its event.

Identifiers are positive by construction, as the columns that generate them
count from one.

## States on types, and texts in columns

The source has one class for each state, so that a method of the wrong state is
a type error, and so has the model. What comes out of the database is a task in
some state, `AnyTask`, and whoever loads one has to look which it is. The
columns of a row allow more than that: a status that does not fit the other
fields. Such a row is refused by a CHECK of the table, and reading one that was
not refused is total.

Strings are texts of any length here. What a column can hold is less, and is
said where rows are written.
-/

namespace Yascheduler

/-! ## Identifiers and enumerations

A task identifier and a node identifier are different types, although both are
numbers, as in the source. An exception carries what its handlers look at, and
its text where some code passes the text on. -/

/-- Task primary key. -/
structure TaskId where
  value : Nat
  pos : 0 < value
deriving DecidableEq

/-- Node primary key. -/
structure NodeId where
  value : Nat
  pos : 0 < value
deriving DecidableEq

instance (k : Nat) : OfNat TaskId (k + 1) := ⟨⟨k + 1, k.succ_pos⟩⟩

instance (k : Nat) : OfNat NodeId (k + 1) := ⟨⟨k + 1, k.succ_pos⟩⟩

/-- Task lifecycle states. They are in the order in which a task goes through them.
-/
inductive TaskStatus where
  | toDo
  | running
  | done
deriving DecidableEq

/-- Machine occupancy states. -/
inductive MachineState where
  | free
  | busy
deriving DecidableEq

/-- SFTP error codes. The codes that no code path looks at individually are
numbered. -/
inductive SftpCode where
  | eof
  | failure
  | badMessage
  | noConnection
  | connectionLost
  | invalidHandle
  | lockConflict
  | byteRangeLockConflict
  | byteRangeLockRefused
  | deletePending
  | noMatchingByteRangeLock
  | noSuchFile
  | other (code : Nat)
deriving DecidableEq

/-- Exceptions. `cancelled` and those that end the process, such as
`KeyboardInterrupt` and `SystemExit`, are outside `Exception`. -/
inductive Exc where
  | cancelled
  | control (name : String)
  | unsupportedEngine (engineName : String)
  | missingInputFile (engineName filename : String)
  | taskNotTodo (taskId : TaskId)
  | taskNotRunning (taskId : TaskId)
  | taskRowNotFound (taskId : TaskId)
  | nodeRowNotFound (nodeId : NodeId)
  | nodeAlreadyInDB (host : String)
  | machineBusy (nodeId : NodeId)
  | machineConnection (nodeId : NodeId) (hostname reason : String)
  | cloudAllocate (msg : String)
  | cloudSetup (msg : String)
  | sftp (code : SftpCode) (reason : String)
  | timeout (msg : String)
  | fileNotFound (msg : String)
  | os (msg : String)
  | key (name : String)
  | database (msg : String)
  | other (msg : String)
deriving DecidableEq

/-- `isinstance(e, Exception)`. -/
def Exc.isException : Exc → Bool
  | .cancelled | .control _ => false
  | _ => true

/-- `SFTPRetryExc`: the errors worth another attempt. -/
def Exc.isSftpRetry : Exc → Bool
  | .timeout _ => true
  | .sftp code _ =>
    match code with
    | .noSuchFile | .other _ => false
    | _ => true
  | _ => false

/-- `isinstance(e, (OSError, SFTPError))`. A timeout is an `OSError`. -/
def Exc.isOSOrSftp : Exc → Bool
  | .os _ | .fileNotFound _ | .timeout _ | .sftp _ _ => true
  | _ => false

/-- `str(e)`. -/
def Exc.str : Exc → String
  | .cancelled => ""
  | .control _ => ""
  | .unsupportedEngine name => "unsupported engine: " ++ name
  | .missingInputFile name file =>
    "missing input file '" ++ file ++ "' for engine: " ++ name
  | .taskNotTodo t => "task " ++ toString t.value ++ " is not in TODO status"
  | .taskNotRunning t => "task " ++ toString t.value ++ " is not in running status"
  | .taskRowNotFound t => "task row not found for task_id=" ++ toString t.value
  | .nodeRowNotFound n => "node row not found for node_id=" ++ toString n.value
  | .nodeAlreadyInDB h => h
  | .machineBusy n => "machine (" ++ toString n.value ++ ") is busy"
  | .machineConnection n h r =>
    "cannot connect to machine (" ++ toString n.value ++ ") at " ++ h ++ ": " ++ r
  | .cloudAllocate m | .cloudSetup m | .timeout m | .fileNotFound m | .os m
  | .database m | .other m => m
  | .sftp _ r => r
  | .key k => k

/-! ## Tasks

A transition takes a task in one state and gives one in another, so it cannot
be applied twice. The methods differ in the state, in the kind of the event and
in what becomes of the folder; what they have in common is `advance`, the only
place where an event is appended. -/

/-- A string-keyed mapping, in insertion order. The values are kept as the
text `str(value)`, which is all that is ever read of them. -/
abbrev Params := List (String × String)

/-- What distinguishes the events of a task. Every event also names its task and its
webhook, which is not repeated here. -/
inductive EventKind where
  | taskCreated (engineName : String)
  | taskAllocated (nodeId : NodeId) (engineName : String)
  | taskCompleted (localFolder : String)
  | taskFailed (reason : String)
  | taskAbandoned (nodeId : NodeId)
deriving DecidableEq

/-- A domain event. It carries its webhook with it, so a handler need not load the
task. -/
structure DomainEvent where
  taskId : TaskId
  webhookUrl : Option String
  webhookCustomParams : Params
  kind : EventKind
deriving DecidableEq

/-- The fields of a task before the database has given it an identifier. -/
structure NewTask where
  engine : String
  label : String := ""
  localFolder : Option String := none
  webhookUrl : Option String := none
  webhookCustomParams : Params := []
  extra : Params := []
deriving DecidableEq

/-- The state of a task that has not been started. It may have a folder already, but
no node. -/
structure Todo where
  remoteFolder : Option String := none
deriving DecidableEq

/-- The state of a running task. -/
structure Running where
  allocatedNodeId : NodeId
  remoteFolder : String
deriving DecidableEq

/-- The state of a finished task. A task that was rejected has no node, and one that
was completed has no error. -/
structure Done where
  error : Option String := none
  allocatedNodeId : Option NodeId := none
  remoteFolder : Option String := none
deriving DecidableEq

/-- The state of any task. It is what a row stands for. -/
inductive TaskState where
  | todo (s : Todo)
  | running (s : Running)
  | done (s : Done)
deriving DecidableEq

/-- **A persisted task**, with the lifecycle state on its type. `createdAt`
is the creation time as `strftime("%Y%m%d_%H%M%S")` writes it. -/
structure Task (σ : Type) where
  taskId : TaskId
  engine : String
  state : σ
  createdAt : String := ""
  label : String := ""
  localFolder : Option String := none
  webhookUrl : Option String := none
  webhookCustomParams : Params := []
  extra : Params := []
  events : List DomainEvent := []
deriving DecidableEq

/-- A task that waits to be started. -/
abbrev TodoTask := Task Todo
/-- A task that was started. Its node and its remote folder are there by its type.
-/
abbrev RunningTask := Task Running
/-- A task that is finished, well or not. -/
abbrev DoneTask := Task Done
/-- A task in any state, as the table has them. -/
abbrev AnyTask := Task TaskState

namespace TaskState

/-- The status a state stands for. -/
def status : TaskState → TaskStatus
  | .todo _ => .toDo
  | .running _ => .running
  | .done _ => .done

/-- `allocated_node_id_of`. -/
def allocatedNodeId : TaskState → Option NodeId
  | .todo _ => none
  | .running s => some s.allocatedNodeId
  | .done s => s.allocatedNodeId

/-- `remote_folder_of`. -/
def remoteFolder : TaskState → Option String
  | .todo s => s.remoteFolder
  | .running s => some s.remoteFolder
  | .done s => s.remoteFolder

/-- `error_of`. -/
def error : TaskState → Option String
  | .done s => s.error
  | _ => none

end TaskState

namespace Task

/-- Forget the lifecycle state of the type. -/
def withState {σ τ : Type} (t : Task σ) (state : τ) : Task τ :=
  { t with state := state }

def anyTodo (t : TodoTask) : AnyTask := t.withState (.todo t.state)
def anyRunning (t : RunningTask) : AnyTask := t.withState (.running t.state)
def anyDone (t : DoneTask) : AnyTask := t.withState (.done t.state)

/-- `materialize_task`: the event of the creation. -/
def materialize {σ : Type} (t : Task σ) : Task σ :=
  { t with
    events := [{
      taskId := t.taskId
      webhookUrl := t.webhookUrl
      webhookCustomParams := t.webhookCustomParams
      kind := .taskCreated t.engine }] }

/-- `_advance`: the one place a task changes its state. -/
def advance {σ τ : Type} (t : Task σ) (state : τ) (kind : EventKind)
    (localFolder : Option String := none) : Task τ :=
  { t with
    state := state
    events := t.events ++ [{
      taskId := t.taskId
      webhookUrl := t.webhookUrl
      webhookCustomParams := t.webhookCustomParams
      kind := kind }]
    localFolder := localFolder.or t.localFolder }

/-- TO_DO → RUNNING. -/
def run (t : TodoTask) (nodeId : NodeId) (remoteFolder : String) : RunningTask :=
  t.advance { allocatedNodeId := nodeId, remoteFolder := remoteFolder }
    (.taskAllocated nodeId t.engine)

/-- TO_DO → DONE with an error. -/
def reject (t : TodoTask) (reason : String) : DoneTask :=
  t.advance
    { error := some reason
      allocatedNodeId := none
      remoteFolder := t.state.remoteFolder }
    (.taskFailed reason)

/-- RUNNING → DONE on success. -/
def complete (t : RunningTask) (localFolder remoteFolder : String) : DoneTask :=
  t.advance
    { error := none
      allocatedNodeId := some t.state.allocatedNodeId
      remoteFolder := some remoteFolder }
    (.taskCompleted localFolder) (some localFolder)

/-- RUNNING → DONE on failure. -/
def fail (t : RunningTask) (reason localFolder remoteFolder : String) : DoneTask :=
  t.advance
    { error := some reason
      allocatedNodeId := some t.state.allocatedNodeId
      remoteFolder := some remoteFolder }
    (.taskFailed reason) (some localFolder)

/-- RUNNING → DONE when the node disappeared. -/
def abandon (t : RunningTask) (error : String := "node is gone") : DoneTask :=
  t.advance
    { error := some error
      allocatedNodeId := some t.state.allocatedNodeId
      remoteFolder := some t.state.remoteFolder }
    (.taskAbandoned t.state.allocatedNodeId)

end Task

/-- `isinstance(t.state, Todo)`. -/
def AnyTask.todo? (t : AnyTask) : Option TodoTask :=
  match t.state with
  | .todo s => some (t.withState s)
  | _ => none

/-- `isinstance(t.state, Running)`. -/
def AnyTask.running? (t : AnyTask) : Option RunningTask :=
  match t.state with
  | .running s => some (t.withState s)
  | _ => none

/-! ## Nodes and machines

A node is a row, and a machine is what a process knows of a node that it is
connected to. The two are loosely coupled: a row may be there without a
machine, and a machine may be there for a while after its row was removed. -/

/-- A node before it is persisted. With a host it is a machine, and without one it
reserves a place at its provider. -/
structure NewNode where
  enabled : Bool := true
  hostname : String := ""
  username : String := "root"
  port : Nat := 22
  jumpHost : Option String := none
  jumpPort : Nat := 22
  jumpUsername : String := "root"
  ncpus : Option Nat := none
  cloud : Option String := none
  externalId : Option String := none
deriving DecidableEq

/-- A persisted node. -/
structure Node extends NewNode where
  nodeId : NodeId
deriving DecidableEq

/-- `if node.cloud:` – set and not empty. -/
def NewNode.hasCloud (n : NewNode) : Bool :=
  match n.cloud with
  | some c => c != ""
  | none => false

/-- A connected machine. The time since when it is free is that of the monotonic
clock of its process. -/
structure ConnectedMachine where
  nodeId : NodeId
  platforms : List String
  state : MachineState := .free
  freeSince : Option Nat := none
deriving DecidableEq

namespace ConnectedMachine

/-- FREE → BUSY; a busy machine refuses. -/
def occupy (m : ConnectedMachine) : Except Exc ConnectedMachine :=
  if m.state = .busy then .error (.machineBusy m.nodeId)
  else .ok { m with state := .busy }

/-- Back to FREE, with the time it became available. -/
def release (m : ConnectedMachine) (now : Nat) : ConnectedMachine :=
  { m with state := .free, freeSince := some now }

end ConnectedMachine

/-! ## Engines and clouds -/

/-- A calculation engine. The spawn template is carried as it is configured;
filling it in is left to the machine that runs it. -/
structure Engine where
  name : String
  spawn : String := ""
  inputFiles : List String := []
  outputFiles : List String := []
  platforms : List String := []
  checkCmd : Option String := none
  checkPname : Option String := none
  checkCmdCode : Int := 0
  sleepInterval : Nat := 10
deriving DecidableEq

/-- Engines by name. -/
abbrev EngineRepository := List (String × Engine)

/-- `engines.get(name)`. -/
def EngineRepository.get (engines : EngineRepository) (name : String) : Option Engine :=
  engines.lookup name

/-- `engines.get(engine_name) if engine_name else None`. -/
def EngineRepository.getNonempty (engines : EngineRepository) (name : String) :
    Option Engine :=
  if name = "" then none else engines.get name

/-- The part of a cloud configuration the scheduling core reads. The defaults are
those of the source. -/
structure CloudConfig where
  name : String
  maxNodes : Int
  idleTolerance : Nat := 120
  connectGrace : Nat := 120
  priority : Int := 0
deriving DecidableEq

end Yascheduler
