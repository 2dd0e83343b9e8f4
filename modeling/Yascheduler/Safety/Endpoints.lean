import Yascheduler.Application.Holdings
import Yascheduler.Safety.Capacity

/-!
# Where a machine comes from

A daemon opens connections to the machines of its node rows, runs commands as
root on them, and deletes VMs by the identifiers in these rows. The rows are
filled in piece by piece – a placeholder first, the answer of the provider
later – are copied into queues and messages, and outlive the daemon. So it is
not obvious that a connection goes to one machine, with the user and the jump
host of that machine and of no other, or that what is deleted is a VM of the
scheduler.

Which machines are known depends on the run: a provider returns VMs while it
goes on, and an operator names hosts on the command line of `yasetnode`. The
first are read off the log of the run and the second off the jobs that were
started in it, so no machine is known only because somebody could have named
it. Connections to the database may be lost at any time: a VM of which no row
remembers is known all the same.
-/

namespace Yascheduler

open Store Async Contract

/-- **The machines that are known** in a run with these jobs and this log: those of
the rows at the beginning, the VMs that a provider has returned, and the hosts named
on the command lines. It is a matter of what was done, and not of what is in the
database. -/
inductive Endpoint.Known (cfg : Nat → Settings) (w : World) (jobs : List (Tid × Job))
    (log : Log) : Endpoint → Prop
  | row {n : NodeId} {row : NewNode} (h : w.db.nodes.rows n = some row) :
      Known cfg w jobs log row.endpoint
  | vm {x : Tid} {provider : String} {ch : Choice} {dto : CloudCreateNodeDTO}
      (h : .thread x (.performed (.createNode provider) ch (.ok dto)) ∈ log) :
      Known cfg w jobs log (dto.endpoint provider)
  | host {x : Tid} {spec : HostSpec} {skipSetup : Bool}
      (h : (x, .addNode spec skipSetup) ∈ jobs) :
      Known cfg w jobs log (tmpNodeOf (cfg x.proc) spec).endpoint

/-- A VM of a known machine was created in the run, or there at the beginning. -/
theorem Endpoint.Known.vm_cases {cfg : Nat → Settings} {w : World}
    {jobs : List (Tid × Job)} {log : Log} {e : Endpoint} (h : e.Known cfg w jobs log)
    {provider externalId : String} (hc : e.cloud = some provider)
    (hid : e.externalId = some externalId) :
    (∃ n row, w.db.nodes.rows n = some row ∧ row.cloud = some provider ∧
      row.externalId = some externalId) ∨
    ∃ x ch dto, .thread x (.performed (.createNode provider) ch (.ok dto)) ∈ log ∧
      CloudCreateNodeDTO.externalId dto = externalId := by
  cases h with
  | row h => exact .inl ⟨_, _, h, hc, hid⟩
  | vm h =>
    cases hc
    cases hid
    exact .inr ⟨_, _, _, h, rfl⟩
  | host h => cases hc

namespace Endpoints

/-- The machine does not answer, and the worker deletes the VM again. -/
def script : List (Move sig Tid Job World.Env) :=
  [.act (.spawn ⟨0, 1⟩ .allocateWorker), .drive ⟨0, 1⟩ 49,
   .act (.perform ⟨0, 1⟩ (.fail (.os "connection refused"))), .drive ⟨0, 1⟩ 2]

/-- The worker is about to delete a VM of the provider. -/
def deletes (q : State) : Bool :=
  match q.threads ⟨0, 1⟩ with
  | some (.waiting (.deleteNode provider externalId) _) =>
    provider = "hetzner" && externalId = "vm-1"
  | _ => false

/-- The script can be played, and ends where the VM is going to be deleted. -/
theorem script_deletes : ((oneProcess.play (lossySystem fun _ => Capacity.settings) script
    (State.initial Capacity.world)).map deletes) = some true := by
  decide +kernel

theorem fresh_world : Capacity.world.Fresh where
  tasks _ := rfl
  nodes _ := rfl
  saved _ _ := rfl
  queued _ q h := by
    cases q with
    | allocate => exact absurd rfl h
    | _ => rfl

end Endpoints

end Yascheduler
