import Yascheduler.Application.UnitOfWork

/-!
# Machines that come and go with their cloud

The machine repository of a process connects and disconnects machines; the
cloud provisioner creates a VM for a node, sets it up over SSH, and deletes
it. Which providers a daemon can use is decided once, when it is wired: those
with a positive `max_nodes` whose SDK is installed. For every other provider
the provisioner has neither an adapter nor a configuration.

A deletion for a provider that was not wired up does nothing and raises nothing.
The callers cannot tell this from a deletion that was made, and it is the one
place where a VM can be forgotten without an error.

An error is passed on under one of two names: that the VM could not be requested,
or that it could not be set up. The text of the original error is part of it, and
is all that is left of it.
-/

namespace Yascheduler

open Store Async

/-! ## The machine repository -/

/-- `SSHMachineSession._close`. The cancellation of the monitor is awaited with
`CancelledError` suppressed. A cancellation of the closing coroutine itself that
arrives there is suppressed with it, so the connection is closed all the same. -/
def closeSession (s : SessionId) : Prog Unit := do
  match ← ask (.markClosed s) with
  | none => pure ()
  | some monitored =>
    if monitored then
      Co.tryCatch (await (.monitorEnd s)) fun e =>
        if e = .cancelled then pure () else raise e
    let wasOpen ← ask (.closeConn s)
    if wasOpen then
      await (.waitClosed s)

/-- `SSHMachineRepository.disconnect`. The session is taken out of the registry
before it is closed, so nobody finds it while it is being closed. -/
def disconnect (n : NodeId) : Prog Unit := do
  match ← ask (.popSession n) with
  | none => pure ()
  | some s => closeSession s

/-! ## Providers

The daemon passes two mappings to the provisioner, and both leave out a
provider with `max_nodes = 0`. The option is meant to say that no more nodes
are to be created. With it the adapter is gone as well, and with the adapter
the only way to delete the nodes that are there. -/

namespace Settings

variable (cfg : Settings)

/-- `active_clouds`, as `make_daemon` collects them. A cloud with `max_nodes = 0` is
not among them, even if the database still has nodes of it. -/
def activeClouds : List CloudConfig :=
  cfg.clouds.filter fun c => 0 < c.maxNodes && cfg.resolves c.name

/-- The adapters `make_daemon` hands to the provisioner. An adapter carries
the name it was resolved under. -/
def adapters : Dict String String :=
  cfg.activeClouds.foldl (fun d c => Dict.set d c.name c.name) []

/-- The configurations `make_daemon` hands to the provisioner. Of two with one name
the last is kept. -/
def configs : Dict String CloudConfig :=
  cfg.activeClouds.foldl (fun d c => Dict.set d c.name c) []

/-- `_adapter_supports_any_platform`. For an engine without platforms no adapter
does. -/
def supportsAny (adapter : String) (platforms : List String) : Bool :=
  platforms.any (cfg.supports adapter)

/-- `select_provider_pure`: of the providers with spare capacity for one of the
platforms, the first of the highest priority. The sort is stable, as Python's, so
providers of one priority stay in the order of the configuration. -/
def selectProviderPure (platforms : List String) (counts : Dict String Nat) :
    Option String :=
  let suitable := cfg.adapters.filterMap fun a =>
    match cfg.configs.get a.1 with
    | none => none
    | some config =>
      if config.maxNodes ≤ (((counts.get a.1).getD 0 : Nat) : Int) then none
      else if cfg.supportsAny a.2 platforms then some (a.2, config.priority)
      else none
  ((suitable.insertionSort fun a b => a.2 ≥ b.2).head?).map (·.1)

end Settings

/-- `CloudProvisionerImpl.select_provider`. If the provider that was chosen is busy
up to its limit, no other is tried. -/
def selectProvider (cfg : Settings) (platforms : List String)
    (counts : Dict String Nat) : Prog (Option String) :=
  match cfg.selectProviderPure platforms counts with
  | none => pure none
  | some adapter => do
    let taken ← ask (.slotsTaken adapter)
    return if cfg.opLimit adapter ≤ taken then none else some adapter

/-! ## Creating and deleting a VM

From the moment when the provider has returned a VM, `allocate` is responsible
for it: either it returns the node, or it tears the VM down. The teardown has
two parts, and the second must be tried even if the first fails, because a
connection that is not closed costs nothing and a VM does. -/

/-- `_connect_to_vm`; the retries are part of the awaited connection. An error of
the keys is not translated here. -/
def connectToVm (node : Node) : Prog SessionId := do
  await .listPrivateKeys
  exceptException (await (.connectMachine node)) fun e =>
    raise (.cloudSetup ("SSH connect to " ++ node.hostname ++ " failed: " ++ e.str))

/-- What the two handlers around the wait for cloud-init make of an error. A
time-out is an `Exception` as well, so the order of the handlers matters. -/
def cloudInitError (cfg : Settings) (node : Node) (adapter : String) : Exc → Exc
  | .timeout _ => .cloudSetup ("cloud-init status --long --wait timed out on "
      ++ node.hostname ++ " after " ++ toString (cfg.createNodeTimeout adapter) ++ "s")
  | e => .cloudSetup ("cloud-init status --long --wait failed on "
      ++ node.hostname ++ ": " ++ e.str)

/-- The error of a cloud-init that has ended with an exit code other than clean
and degraded. -/
def cloudInitFailed (node : Node) (result : ProcessResult) : Exc :=
  .cloudSetup ("cloud-init failed on " ++ node.hostname ++ ": exit="
    ++ toString result.exitCode ++ " stdout=" ++ result.stdout ++ " stderr=" ++ result.stderr)

/-- `_setup_vm`. A degraded cloud-init counts as done. The session that was opened
for it is not closed here, whatever happens. -/
def setupVm (cfg : Settings) (node : Node) (adapter : String) : Prog Node := do
  let s ← connectToVm node
  if cfg.needsCloudInit adapter then
    let result ← exceptException (await (.cloudInit s)) fun e =>
      raise (cloudInitError cfg node adapter e)
    if result.exitCode ≠ 2 ∧ result.exitCode ≠ 0 then
      raise (cloudInitFailed node result)
  exceptException (await (.setupNode s)) fun e =>
    raise (.cloudSetup ("Setup node " ++ node.hostname ++ " failed: " ++ e.str))
  return { node with enabled := true }

/-- What `allocate` copies from the provider's answer onto the node. -/
def Node.withVm (node : Node) (dto : CloudCreateNodeDTO) (adapter : String) : Node :=
  { node with
    hostname := dto.hostname
    externalId := some dto.externalId
    cloud := some adapter
    username := dto.username
    port := dto.port
    jumpHost := dto.jumpHost
    jumpPort := dto.jumpPort
    jumpUsername := dto.jumpUsername }

/-- Tear down a VM whose setup did not complete, whatever fails on the way. Neither
failure replaces the error that led here; an ordinary one is reported as an error of
the setup. -/
def teardownVm (adapter : String) (node : Node) (dto : CloudCreateNodeDTO)
    (e : Exc) : Prog Node := do
  Co.tryCatch (disconnect node.nodeId) fun _ => pure ()
  Co.tryCatch (await (.deleteNode adapter dto.externalId)) fun _ => pure ()
  match e with
  | .cloudSetup m => raise (.cloudSetup m)
  | .cancelled => raise .cancelled
  | .control name => raise (.control name)
  | e => raise (.cloudSetup ("Setup node error: " ++ e.str))

/-- The part of `allocate` that runs under the provider's slot. Until the provider
has answered there is nothing to tear down as far as `allocate` knows: what a failed
`create_node` leaves behind is the adapter's business. -/
def createVm (cfg : Settings) (adapter : String) (node : Node) : Prog Node := do
  let dto ← exceptException (do await .sshKey; await (.createNode adapter)) fun e =>
    raise (.cloudAllocate ("Create node error: " ++ e.str))
  let node := node.withVm dto adapter
  Co.tryCatch (setupVm cfg node adapter) (teardownVm adapter node dto)

/-- `CloudProvisionerImpl.allocate`. The slot is given back however the part under
it ends. -/
def cloudsAllocate (cfg : Settings) (provider : String) (node : Node) : Prog Node :=
  match cfg.adapters.get provider, cfg.configs.get provider with
  | none, _ => raise (.cloudAllocate ("Unknown provider: " ++ provider))
  | _, none => raise (.cloudAllocate ("Config not found for provider " ++ provider))
  | some adapter, some _ =>
    Co.asyncWith (await (.slotAcquire adapter)) (fun _ _ => ask (.slotRelease adapter))
      fun _ => createVm cfg adapter node

/-- **`CloudProvisionerImpl.deallocate`.** Without a cloud, an adapter, a
configuration or an external id it does nothing and returns, which its callers take
for a success. -/
def cloudsDeallocate (cfg : Settings) (node : Node) : Prog Unit :=
  match node.cloud with
  | none => pure ()
  | some cloud =>
    match cfg.adapters.get cloud, cfg.configs.get cloud, node.externalId with
    | some adapter, some _, some externalId => await (.deleteNode adapter externalId)
    | _, _, _ => pure ()

end Yascheduler
