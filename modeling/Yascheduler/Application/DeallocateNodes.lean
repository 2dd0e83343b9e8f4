import Yascheduler.Infra.CloudProvisioner

/-!
# Deallocating nodes

Idle cloud nodes are disabled, and every disabled node that is not busy is
torn down: its session is disconnected, its VM deleted, its row removed.
Choosing the nodes and tearing one down are two use cases, connected by a
queue; before the teardown only the occupancy of the machine is looked at
again.

That the two are connected by a queue means that a node may be needed again by
the time it is torn down. It is disabled before it is queued, so an allocation that
begins later is not offered its machine; one that has read the enabled nodes
before is only noticed by the occupancy of the machine.
-/

namespace Yascheduler

open Store Async

/-! ## Teardown

The order is session, VM, row. Whoever finds the row later can repeat what
failed, and this is why the row goes last, and stays if the deletion of the VM
raises. -/

/-- Remove the row of a node; a row that is gone is no error, and any other
failure is only logged. -/
def removeNodeRow (cfg : Settings) (n : NodeId) : Prog Unit :=
  exceptException
    (Uow.within fun c => do
      Nodes.remove c n
      Uow.commit cfg c)
    fun _ => pure ()

/-- Disable a node in a transaction of its own. -/
def disableNode (cfg : Settings) (n : NodeId) : Prog Unit :=
  Uow.within fun c => do
    Nodes.disable c n
    Uow.commit cfg c

/-- The teardown itself, after the recheck. -/
def teardownNode (cfg : Settings) (node : Node) : Prog Unit := do
  if ← ask (.contains node.nodeId) then
    disconnect node.nodeId
  if node.hasCloud then
    disableNode cfg node.nodeId
    cloudsDeallocate cfg node
  removeNodeRow cfg node.nodeId

/-- `deallocate_node`: a machine that is BUSY is left alone. -/
def deallocateNode (cfg : Settings) (node : Node) : Prog Unit := do
  match ← ask (.getSession node.nodeId) with
  | none => teardownNode cfg node
  | some s =>
    if (← ask (.machineState s)) = .busy then
      return
    teardownNode cfg node

/-! ## Choosing the nodes -/

/-- Disable nodes, each in a transaction of its own. -/
def disableAll (cfg : Settings) : List Node → Prog Unit
  | [] => pure ()
  | node :: nodes => do
    disableNode cfg node.nodeId
    disableAll cfg nodes

/-- The nodes of a cloud that have been idle for longer than it tolerates. -/
def nodesToDisable (ccfg : CloudConfig) (idle : Dict NodeId Nat) (now : Nat)
    (enabled : List Node) : List Node :=
  enabled.filter fun node => node.cloud = some ccfg.name &&
    match idle.get node.nodeId with
    | some since => ccfg.idleTolerance ≤ now - since
    | none => false

/-- The loop over the configured clouds. -/
def disableIdle (cfg : Settings) (idle : Dict NodeId Nat) (now : Nat)
    (enabled : List Node) : List CloudConfig → Prog Unit
  | [] => pure ()
  | ccfg :: ccfgs => do
    disableAll cfg (nodesToDisable ccfg idle now enabled)
    disableIdle cfg idle now enabled ccfgs

/-- `deallocate_nodes`. -/
def deallocateNodes (cfg : Settings) (idle : Dict NodeId Nat) : Prog (List Node) := do
  let (busy, enabled) ← Uow.within fun c => do
    let running ← Tasks.listRunning c
    let busy := running.map (·.state.allocatedNodeId)
    let enabled ← Nodes.listEnabled c
    return (busy, enabled.filter fun n => n.nodeId ∉ busy)
  let now ← ask .monotonic
  disableIdle cfg idle now enabled cfg.clouds
  Uow.within fun c => do
    let disabled ← Nodes.listDisabled c
    return disabled.filter fun n => n.nodeId ∉ busy

end Yascheduler
