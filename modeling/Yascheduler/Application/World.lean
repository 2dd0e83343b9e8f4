import Yascheduler.Application.Memory
import Yascheduler.Async.Pool

/-!
# The world the coroutines run in

The world is the database, which all processes share, the clock, and the
memory of each process. The awaited operations are those of the code: opening
and ending a transaction, executing a statement, talking to a machine over
SSH, asking a cloud provider, waiting for a lock or a queue.

The outside world decides how an operation ends. It may take effect and
return; it may fail without an effect; and it may take effect and fail all
the same – a COMMIT whose acknowledgement is lost. An operation that waits
for a lock, a slot or a message is not resolved until it can be.

## Effects and reports

Whether an operation takes effect and whether it reports an error are two
questions, and the code can only see the answer to the second. Everything that
is difficult about cleaning up comes from this: after an error the coroutine
does not know whether there is something to be cleaned up. So a `Choice` of the
outside world answers both questions, wherever they can come apart.

The identifiers of new rows, connections and sessions are not chosen. They are
counted, so that two things that are created never have the same name.
-/

namespace Yascheduler

open Store Async

/-! ## Settings -/

/-- The configuration of a process, and what it finds installed. It is read once,
when the process is started, and two processes may have different ones. -/
structure Settings where
  engines : EngineRepository := []
  /-- `config.clouds` -/
  clouds : List CloudConfig := []
  /-- whether `resolve_adapter` finds the SDK of a provider -/
  resolves : String → Bool := fun _ => true
  /-- whether an adapter supports a platform -/
  supports : String → String → Bool := fun _ _ => true
  /-- `CloudAdapter.op_limit` -/
  opLimit : String → Nat := fun _ => 1
  /-- `CloudAdapter.create_node_timeout`, in seconds -/
  createNodeTimeout : String → Nat := fun _ => 300
  /-- `CloudAdapter.needs_cloud_init` -/
  needsCloudInit : String → Bool := fun _ => false
  remoteTasksDir : String := "data/tasks"
  remoteEnginesDir : String := "data/engines"
  localTasksDir : String := "data/tasks"
  /-- `config.remote.username` and the jump host of the remote defaults -/
  remoteUsername : String := "root"
  jumpHost : Option String := none
  jumpPort : Nat := 22
  jumpUsername : Option String := none
  /-- handlers are registered on the message bus -/
  webhooks : Bool := true
  /-- `conn_machine_pending` and the like: the sizes of the queues -/
  pending : QueueName → Nat := fun
    | .connMachine => 10
    | .allocate | .consume | .deallocate => 1

/-! ## Operations

Everything that suspends a coroutine is an operation, with the types of what it
is given and what it returns. Operations that the source groups under one
`await`, such as a connection with its retries, are one operation here if
nothing else of the scheduler is done in between. -/

/-- What the provider returns for a new VM. The defaults are those of the source,
and an adapter fills in the rest from its configuration. -/
structure CloudCreateNodeDTO where
  hostname : String
  externalId : String
  username : String := "root"
  port : Nat := 22
  jumpHost : Option String := none
  jumpPort : Nat := 22
  jumpUsername : String := "root"
deriving DecidableEq

/-- Exit code and captured output of a remote process. An exit code other than zero
is a result, and no error by itself. -/
structure ProcessResult where
  exitCode : Int
  stdout : String := ""
  stderr : String := ""
deriving DecidableEq

/-- Content of an uploaded file. Only the base64 text is kept of a decoded one,
since what it decodes to is a matter of the codec. -/
inductive FileData where
  | decoded (base64 : String)
  | text (content : String)
deriving DecidableEq

/-- A spawn command: the template with what fills it in. The text is not built here,
because nothing reads it. -/
structure SpawnCommand where
  template : String
  enginePath : String
  taskPath : String
  ncpus : Nat
deriving DecidableEq

/-- Awaited operations. Whatever suspends the coroutine is one of them, and
everything else is a call. -/
inductive Op where
  -- database
  | connect
  | begin (c : Nat)
  | sql (c : Nat) (st : Stmt)
  | commit (c : Nat)
  | rollback (c : Nat)
  | close (c : Nat)
  /-- an event handler of the message bus -/
  | handler (e : DomainEvent)
  -- machine session
  | cpuCores (s : SessionId)
  | sftpOpen (s : SessionId)
  | sftpRealpath (s : SessionId)
  | sftpMakedirs (s : SessionId) (path : String)
  | sftpWrite (s : SessionId) (path : String) (data : FileData)
  | sftpGet (s : SessionId) (t : TaskId) (file localDir : String)
  | sftpRmtree (s : SessionId) (t : TaskId) (path : String)
  | sftpClose (s : SessionId)
  | runBg (s : SessionId) (t : TaskId) (cmd : SpawnCommand)
  | monitorEnd (s : SessionId)
  | waitClosed (s : SessionId)
  | setupNode (s : SessionId)
  | cloudInit (s : SessionId)
  -- machine repository
  | listPrivateKeys
  | connectMachine (node : Node)
  -- local disk
  | mkdir (path : String)
  -- cloud provider
  | sshKey
  | createNode (provider : String)
  | deleteNode (provider externalId : String)
  -- locks and queues
  | lockAcquire
  | slotAcquire (provider : String)
  | queueGet (q : QueueName)
  | queuePut (q : QueueName) (m : q.Payload)

/-- The result of an operation. -/
@[reducible] def Op.Res : Op → Type
  | .connect | .cpuCores _ => Nat
  | .sql _ st => st.Res
  | .sftpRealpath _ => String
  | .cloudInit _ => ProcessResult
  | .connectMachine _ => SessionId
  | .createNode _ => CloudCreateNodeDTO
  | .queueGet q => q.Payload
  | _ => Unit

/-- The connection an operation uses. -/
def Op.conn : Op → Option Nat
  | .begin c | .sql c _ | .commit c | .rollback c | .close c => some c
  | _ => none

/-- What the outside world puts into the result of an operation. An operation that
needs another kind of reply cannot be resolved with it. -/
inductive Reply where
  | none
  | count (n : Nat)
  | process (r : ProcessResult)
  | text (s : String)
  | vm (dto : CloudCreateNodeDTO)
  | machine (platforms : List String) (ncpus : Nat)

/-- How the outside world resolves an operation. The late failure is what makes a
COMMIT or a spawn uncertain: the caller sees an error and the effect is there. -/
inductive Choice where
  /-- it takes effect and returns -/
  | done (r : Reply)
  /-- it fails and has no effect -/
  | fail (e : Exc)
  /-- it takes effect and fails all the same -/
  | lateFail (r : Reply) (e : Exc)
  /-- the connection of a coroutine that has ended is reclaimed -/
  | collect (c : Nat)

/-- The vocabulary of the programs. -/
@[reducible] def sig : Sig where
  Call := Call
  Ans := Call.Ans
  Op := Op
  Res := Op.Res
  Err := Exc
  cancelled := .cancelled
  Choice := Choice

/-- A coroutine of the scheduler. -/
abbrev Prog := Co sig

/-- Make a call. -/
abbrev ask (c : Call) : Prog c.Ans := Co.sync (S := sig) c

/-- Await an operation. -/
abbrev await (o : Op) : Prog o.Res := Co.op (S := sig) o

/-- Raise. -/
abbrev raise {α : Type} (e : Exc) : Prog α := Co.throw (S := sig) e

/-- `try: x except Exception as e: h(e)`. A cancellation is not an `Exception` and
passes through, which is why so much of the cleanup is skipped by it. -/
def exceptException {α : Type} (x : Prog α) (h : Exc → Prog α) : Prog α :=
  Co.tryCatch x fun e => if Exc.isException e then h e else raise e

/-- `with contextlib.suppress(Exception): x`. Like the above, it lets a cancellation
through. -/
def suppress (x : Prog Unit) : Prog Unit := exceptException x fun _ => pure ()

/-! ## The world

What is kept of the outside is what decides how an operation ends. A machine or
a provider can answer anything, so it needs no state. The database cannot: what
it answers depends on what was written, and on who holds which lock. -/

/-- The world: one database for all processes, and the memory of each. The SSH
connections and the VMs are not in it, as far as they do not decide what an
operation returns. -/
structure World where
  db : Database
  now : Nat := 0
  procs : Nat → Memory := fun _ => {}
  /-- the connections that were lost while somebody had them -/
  lost : List Conn := []

namespace World

variable (w : World)

/-- Change the memory of a process. -/
def modifyProc (p : Nat) (f : Memory → Memory) : World :=
  { w with procs := Function.update w.procs p (f (w.procs p)) }

/-- A call of a coroutine. It sees the memory of its own process and the clock, and
nothing of the database. -/
def call (t : Tid) (c : Call) : c.Ans × World :=
  let a := (w.procs t.proc).call w.now c
  (a.1, w.modifyProc t.proc fun _ => a.2)

/-- An operation on the connection of a session that is closed fails, and on a
session that does not exist as well. On an open one the outside world may make it
fail. -/
def overSsh {α : Type} (t : Tid) (s : SessionId) (x : Option α) :
    Option (Except Exc α × World) :=
  if ((w.procs t.proc).heap s).all (·.connClosed) then
    some (.error (.os "connection lost"), w)
  else x.map fun a => (.ok a, w)

/-- Register a new session for a node: `SSHMachineRepository._connect_impl`
after the connection is open. -/
def register (t : Tid) (node : Node) (platforms : List String) (ncpus : Nat) :
    SessionId × World :=
  let m := w.procs t.proc
  let s : SessionId := ⟨node.nodeId, m.nextSession⟩
  let x : Session := {
    machine := {
      nodeId := node.nodeId
      platforms := platforms
      state := .free
      freeSince := some w.now }
    cachedNcpus := some ncpus }
  (s, w.modifyProc t.proc fun m => { m with
    heap := Function.update m.heap s (some x)
    nextSession := m.nextSession + 1
    registry := m.registry.set node.nodeId s })

/-- The effect of an operation, and the result it returns. -/
def effect (cfg : Nat → Settings) (t : Tid) :
    (o : Op) → Reply → Option (Except Exc o.Res × World)
  | .connect, _ =>
    let c := w.db.lastConn + 1
    some (.ok c, { w with db := { w.db with lastConn := c } })
  | .sql c st, _ => (w.db.exec ⟨t, c⟩ st).map fun a => (a.1, { w with db := a.2 })
  | .commit c, _ => some (.ok (), { w with db := w.db.commit ⟨t, c⟩ })
  | .rollback c, _ | .close c, _ => some (.ok (), { w with db := w.db.rollback ⟨t, c⟩ })
  | .begin _, _ | .handler _, _ | .mkdir _, _ | .listPrivateKeys, _ | .sshKey, _
  | .monitorEnd _, _ | .waitClosed _, _ | .deleteNode _ _, _ => some (.ok (), w)
  | .cpuCores s, .count n =>
    match ((w.procs t.proc).heap s).bind (·.cachedNcpus) with
    | some k => some (.ok k, w)
    | none => w.overSsh t s (some n)
  | .sftpRealpath s, .text path => w.overSsh t s (some path)
  | .cloudInit s, .process r => w.overSsh t s (some r)
  | .sftpOpen s, _ | .sftpMakedirs s _, _ | .sftpWrite s _ _, _ | .sftpGet s _ _ _, _
  | .sftpRmtree s _ _, _ | .sftpClose s, _ | .runBg s _ _, _ | .setupNode s, _ =>
    w.overSsh t s (some ())
  | .connectMachine node, .machine platforms ncpus =>
    let a := w.register t node platforms ncpus
    some (.ok a.1, a.2)
  | .createNode _, .vm dto => some (.ok dto, w)
  | .lockAcquire, _ =>
    if (w.procs t.proc).allocationLock then none
    else some (.ok (), w.modifyProc t.proc fun m => { m with allocationLock := true })
  | .slotAcquire provider, _ =>
    if (w.procs t.proc).slots provider < (cfg t.proc).opLimit provider then
      some (.ok (), w.modifyProc t.proc (·.modifySlots provider (· + 1)))
    else none
  | .queueGet q, _ =>
    ((w.procs t.proc).queues q).get.map fun a =>
      (.ok a.1, w.modifyProc t.proc (·.modifyQueue q fun _ => a.2))
  | .queuePut q m, _ =>
    some (.ok (), w.modifyProc t.proc (·.modifyQueue q (·.put (q.msgId m) m)))
  | _, _ => none

/-- **Resolve an operation.** A connection that is used was opened before. A failure
without an effect is open to every operation, and one with an effect to every
operation that can be carried out; neither of them is a cancellation, which the pool
delivers by itself. -/
def perform (cfg : Nat → Settings) (t : Tid) (o : Op) (ch : Choice) :
    Option (Except Exc o.Res × World) :=
  if o.conn.all (· ≤ w.db.lastConn) then
    match ch with
    | .done r => w.effect cfg t o r
    | .fail e => if e.isException then some (.error e, w) else none
    | .lateFail r e =>
      if e.isException then (w.effect cfg t o r).map fun a => (.error e, a.2) else none
    | .collect _ => none
  else none

/-- What happens without a coroutine: time passes, the check of an occupancy
monitor is answered, a monitor reacts to the answer, and a connection to the
database is lost. -/
inductive Env where
  | tick (d : Nat)
  | check (p : Nat) (s : SessionId) (engine : Engine) (pgrep : Option Bool)
      (exitCode : Option Int)
  | react (p : Nat) (s : SessionId)
  | lose (c : Conn)

/-- Replace a session object. The registry is left alone, so this also reaches a
session that is not registered any more. -/
def setSession (p : Nat) (s : SessionId) (x : Session) : World :=
  w.modifyProc p fun m => m.modifySession s fun _ => x

/-- The effect of an event of the environment, as long as connections are
kept. -/
def env : Env → Option World
  | .tick d => some { w with now := w.now + d }
  | .check p s engine pgrep exitCode =>
    (((w.procs p).heap s).bind fun x =>
      x.monitorAnswer engine (occupancyCheck engine pgrep exitCode)).map
      (w.setSession p s)
  | .react p s =>
    (((w.procs p).heap s).bind fun x => x.monitorReact w.now).map (w.setSession p s)
  | .lose _ => none

/-- Reclaim the connection of a coroutine that has ended. A coroutine that was
cancelled in the middle of its cleanup leaves its transaction open, and this
releases the locks. -/
def reap (t : Tid) : Choice → Option World
  | .collect c => some { w with db := w.db.rollback ⟨t, c⟩ }
  | _ => none

end World

/-- Whether an operation is carried out in a thread of its own. These can take
effect while the loop runs another coroutine. -/
def Op.offLoop : Op → Bool
  | .connect | .begin _ | .sql _ _ | .commit _ | .rollback _ | .close _
  | .listPrivateKeys | .sshKey | .mkdir _ => true
  | _ => false

/-- The loop an event of the environment runs on. Time and the network belong to
none. -/
def World.Env.loop : World.Env → Option Nat
  | .tick _ | .lose _ => none
  | .check p _ _ _ _ | .react p _ => some p

end Yascheduler
