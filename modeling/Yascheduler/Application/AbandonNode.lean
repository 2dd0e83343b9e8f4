import Yascheduler.Application.DeallocateNodes

/-!
# Abandoning a node that never connected

The row is disabled, the VM deleted, the row removed, and whatever happens
the tracker entries of the node are released.

Each of the three is a step of its own, and a failure of one ends the use case
there. So the row is the last to go: as long as it exists somebody can try again.
-/

namespace Yascheduler

open Async

/-- `_remove_row`: a row that is gone is no error, any other failure is
raised. -/
def abandonRow (cfg : Settings) (n : NodeId) : Prog Unit :=
  exceptException
    (Uow.within fun c => do
      Nodes.remove c n
      Uow.commit cfg c)
    fun e => match e with
      | .nodeRowNotFound _ => pure ()
      | e => raise e

/-- `abandon_node`. -/
def abandonNode (cfg : Settings) (node : Node) : Prog Unit :=
  Co.tryFinally
    (match node.cloud with
      | some _ => do
        disableNode cfg node.nodeId
        cloudsDeallocate cfg node
        abandonRow cfg node.nodeId
      | none => abandonRow cfg node.nodeId)
    (do let _ ← ask (.trackerDiscardByNode node.nodeId))

end Yascheduler
