import Yascheduler.Infra.CloudProvisioner

/-!
# `yasetnode`

The command line tool adds and removes nodes from a process of its own. It
shares the database with the daemon and nothing else; its message bus has no
handlers.

Adding a node takes two transactions, with a connection to the machine in
between: the row is inserted as a disabled one, so that no daemon uses it before
it is set up, and enabled afterwards. Removing one checks for running tasks in the
same transaction as it removes the row, or abandons them there.
-/

namespace Yascheduler

open Async

/-- The host specification of the command line. A node that is added has no provider,
so nothing in it says which VM it is. -/
structure HostSpec where
  host : String
  port : Nat := 22
  username : Option String := none
  ncpus : Option Nat := none
deriving DecidableEq

/-- `x or y` on optional strings. -/
def strOr (x : Option String) (y : String) : String :=
  match x with
  | some s => if s = "" then y else s
  | none => y

/-- Abandon the running tasks of a node, one by one, in the open
transaction. -/
def abandonTasks (c : Nat) : List TaskId → Prog Unit
  | [] => pure ()
  | t :: ts => do
    match ← Tasks.getRunning c t with
    | some task => Tasks.save c (task.abandon).anyDone
    | none => pure ()
    abandonTasks c ts

/-- `_remove_node_hard`. -/
def removeNodeHard (cfg : Settings) (node : Node) : Prog Unit :=
  Uow.within fun c => do
    let ids ← Tasks.listIdsByNodeIdAndStatus c node.nodeId .running
    abandonTasks c ids
    Nodes.remove c node.nodeId
    Uow.commit cfg c

/-- `_remove_node_soft`. -/
def removeNodeSoft (cfg : Settings) (node : Node) : Prog Unit :=
  Uow.within fun c => do
    let ids ← Tasks.listIdsByNodeIdAndStatus c node.nodeId .running
    if ids.isEmpty then
      Nodes.remove c node.nodeId
      Uow.commit cfg c
    else
      Nodes.disable c node.nodeId
      Uow.commit cfg c

/-- The disabled row that `_add_node` inserts first. -/
def tmpNodeOf (cfg : Settings) (spec : HostSpec) : NewNode where
  hostname := spec.host
  port := spec.port
  username := strOr spec.username cfg.remoteUsername
  ncpus := spec.ncpus
  enabled := false
  jumpHost := cfg.jumpHost
  jumpUsername := strOr cfg.jumpUsername "root"
  jumpPort := cfg.jumpPort

/-- Connect to the new node; if that fails its row is removed again. Reading
the keys is part of the connection here: it does not suspend, and its errors
take the same way. -/
def connectNewNode (cfg : Settings) (tmp : Node) : Prog SessionId :=
  exceptException (await (.connectMachine tmp)) fun e => do
    suppress (Uow.within fun c => do
      Nodes.remove c tmp.nodeId
      Uow.commit cfg c)
    raise e

/-- `_add_node`. -/
def addNode (cfg : Settings) (spec : HostSpec) (skipSetup : Bool) : Prog Unit := do
  let tmp ← Uow.within fun c => do
    let tmp ← Nodes.insert c (tmpNodeOf cfg spec)
    Uow.commit cfg c
    return tmp
  Co.tryFinally
    (do
      let s ← connectNewNode cfg tmp
      if !skipSetup then
        await (.setupNode s)
      Uow.within fun c => do
        Nodes.update c { tmp with enabled := true }
        Uow.commit cfg c)
    (disconnect tmp.nodeId)

end Yascheduler
