import Yascheduler.Application.World
import Yascheduler.Infra.CloudUtils
import Yascheduler.Json

/-!
# Azure

Creating a virtual machine takes two resources: the network interface (NIC),
and the machine that uses it. Each is requested with `begin_create_or_update`,
which is accepted or refused at once; an accepted request is a poller, and the
resource is there when the poller has been waited for.

What the SDK answers is not modelled any further, and neither are the names
that are drawn at random.

Everything the creation asks of the SDK is an operation, and so are the waits for
the pollers. An operation may be cancelled while it is awaited. Whether the
request has reached Azure by then is not known to the code, and the model takes
the side of the code: a resource counts as accepted when the SDK has said so.
-/

namespace Yascheduler.Azure

open Store Async

/-- `AzureImageReference`. -/
structure ImageReference where
  publisher : String := "Debian"
  offer : String := "debian-11-daily"
  sku : String := "11-backports-gen2"
  version : String := "latest"
deriving DecidableEq

/-- `ConfigCloudAzure`, as far as a creation reads it. The defaults are those of the
source. -/
structure Config where
  resourceGroup : String := "yascheduler-rg"
  location : String := "westeurope"
  vnet : String := "yascheduler-vnet"
  subnet : String := "yascheduler-subnet"
  nsg : String := "yascheduler-nsg"
  vmImage : ImageReference := {}
  vmSize : String := "Standard_B1s"
  username : String := "yascheduler"
  jumpUsername : Option String := none
  jumpHost : Option String := none
  jumpPort : Nat := 22
  label : String := "yascheduler"

/-- `CloudInitConfig`. -/
structure CloudInitConfig where
  bootcmd : List (String ⊕ List String) := []
  runcmd : List String := []
  packageUpgrade : Bool := false
  packages : List String := []
  users : List (Dict String Json) := []

/-- The parameters of a NIC. They have no name, which is given with the request. -/
structure NicParams where
  name : String
  location : String
  ipConfigName : String
  /-- the subnet and the security group that were fetched -/
  subnet : String
  networkSecurityGroup : String

/-- A NIC as the SDK returns it. An address can be missing, and so can all of them.
-/
structure Nic where
  id : String
  name : String
  /-- the private addresses of `ip_configurations` -/
  ipConfigurations : List (Option String) := []
deriving DecidableEq

/-- The parameters of a virtual machine. It refers to its NIC, so the NIC comes
first. -/
structure VmParams where
  location : String
  tags : List (String × String)
  vmSize : String
  imageReference : ImageReference
  networkInterface : String
  computerName : String
  adminUsername : String
  customData : Option String
  keyPath : String
  keyData : String

/-- An exception. -/
inductive Error where
  /-- of the SDK -/
  | azure (name : String)
  | runtime (message : String)
  /-- of a library -/
  | other (name : String)
  | cancelled
deriving DecidableEq

/-- What is computed at once: eight random letters, the public key in OpenSSH
format, the user-data in base64. -/
inductive Call where
  | rndLetters
  | exportPublicKey
  | renderBase64 (cloudConfig : CloudInitConfig)

/-- The answers. Only the letters cannot fail. -/
@[reducible] def Call.Ans : Call → Type
  | .rndLetters => String
  | _ => Except Error String

/-- What is asked of the SDK. A request and its completion are two operations, since
a failure between them leaves something behind. -/
inductive Op where
  | getSubnet (resourceGroup vnet subnet : String)
  | getNsg (resourceGroup nsg : String)
  | beginCreateNic (resourceGroup name : String) (params : NicParams)
  | nicWait
  | nicResult
  | updateTags (resourceGroup name : String) (tags : List (String × String))
  | beginCreateVm (resourceGroup name : String) (params : VmParams)
  | vmWait
  | vmResult
  | beginDeleteVm (resourceGroup name : String)
  | vmDeleteWait
  | beginDeleteNic (resourceGroup name : String)
  | nicDeleteWait

@[reducible] def Op.Res : Op → Type
  | .getSubnet .. | .getNsg .. => String
  | .nicResult => Nic
  | _ => Unit

@[reducible] def sig : Sig where
  Call := Call
  Ans := Call.Ans
  Op := Op
  Res := Op.Res
  Err := Error
  cancelled := .cancelled
  Choice := Unit

/-- Code that uses the SDK. -/
abbrev Script := Co sig

abbrev perform (o : Op) : Script o.Res := Co.op (S := sig) o

abbrev raise {α : Type} (e : Error) : Script α := Co.throw (S := sig) e

/-- `ID_TAG_NAME`. -/
def idTagName : String := "yascheduler_ip"

/-- **`get_rnd_name`.** -/
abbrev getRndName (label : String) : Script String :=
  Yascheduler.getRndName (Co.sync (S := sig) .rndLetters) label

/-! ## The network interface

A NIC is there from the moment when its request was accepted. The steps that
follow read it, wait for it and tag it, and none of them deletes it when
something goes wrong. -/

/-- `_fetch_network_resources`. It creates nothing. -/
def fetchNetworkResources (cfg : Config) : Script (String × String) := do
  let subnet ← perform (.getSubnet cfg.resourceGroup cfg.vnet cfg.subnet)
  let nsg ← perform (.getNsg cfg.resourceGroup cfg.nsg)
  return (subnet, nsg)

/-- The name of the NIC of a virtual machine. -/
def nicName (vmName : String) : String := vmName ++ "-nic"

/-- The NIC is requested. From here on there may be one. -/
def requestNic (cfg : Config) (vmName : String) : Script Unit := do
  let (subnet, nsg) ← fetchNetworkResources cfg
  perform (.beginCreateNic cfg.resourceGroup (nicName vmName)
    { name := nicName vmName
      location := cfg.location
      ipConfigName := nicName vmName ++ "-ip-config"
      subnet
      networkSecurityGroup := nsg })

/-- The address of the last configuration, unless it is missing or empty. -/
def Nic.ipAddr (nic : Nic) : Option String :=
  (nic.ipConfigurations.getLast?.getD none).filter (· ≠ "")

/-- The message of a machine without an address. -/
def noIpMessage : String := "Azure VM created but no IP is assigned"

/-- The NIC is waited for, and tagged. Each of these steps can fail while the NIC is
there. -/
def awaitNic (cfg : Config) : Script (Nic × String) := do
  perform .nicWait
  let nic ← perform .nicResult
  match nic.ipAddr with
  | none => raise (.runtime noIpMessage)
  | some ipAddr => do
    perform (.updateTags cfg.resourceGroup nic.name [(idTagName, ipAddr)])
    return (nic, ipAddr)

/-- **`create_nic`.** It returns the NIC with its address, or raises, and in the
second case the NIC may be there. -/
def createNic (cfg : Config) (vmName : String) : Script (Nic × String) := do
  requestNic cfg vmName
  awaitNic cfg

/-! ## The virtual machine

The parameters of the machine are computed from the NIC and from texts that
have to be rendered, which can fail. This is still outside of the `try` that
begins with the request of the machine. -/

/-- A call that can raise. -/
abbrev fallible (c : Call) (h : sig.Ans c = Except Error String) : Script String :=
  Co.fallible (S := sig) c h

/-- **`_render_custom_data`.** -/
def renderCustomData : Option CloudInitConfig → Script (Option String)
  | none => return none
  | some cloudConfig => do
    let myBootCmds := [.inl "systemctl mask waagent-apt.service"]
    let text ← fallible
      (.renderBase64 { cloudConfig with bootcmd := myBootCmds ++ cloudConfig.bootcmd }) rfl
    return some text

/-- **`create_vm_params`.** It asks nothing of Azure, and can raise all the same,
since it reads the key and renders the user-data. -/
def createVmParams (cfg : Config) (vmName : String) (nic : Nic) (tags : List (String × String))
    (cloudConfig : Option CloudInitConfig) : Script VmParams := do
  let keyData ← fallible .exportPublicKey rfl
  let customData ← renderCustomData cloudConfig
  return {
    location := cfg.location
    tags
    vmSize := cfg.vmSize
    imageReference := cfg.vmImage
    networkInterface := nic.id
    computerName := String.ofList (vmName.toList.take 15)
    adminUsername := cfg.username
    customData
    keyPath := "/home/" ++ cfg.username ++ "/.ssh/authorized_keys"
    keyData }

/-- **`_cleanup_vm_and_nic`.** The two deletions are independent: the NIC is deleted
even if there was no virtual machine to delete. -/
def cleanupVmAndNic (cfg : Config) (vmName nicName : String) : Script Unit := do
  Co.tryCatch (do
    perform (.beginDeleteVm cfg.resourceGroup vmName)
    perform .vmDeleteWait) fun _ => pure ()
  Co.tryCatch (do
    perform (.beginDeleteNic cfg.resourceGroup nicName)
    perform .nicDeleteWait) fun _ => pure ()

/-- The virtual machine is requested and waited for. -/
def createVm (cfg : Config) (vmName : String) (vmParams : VmParams) : Script Unit := do
  perform (.beginCreateVm cfg.resourceGroup vmName vmParams)
  perform .vmWait
  perform .vmResult

/-- What is returned for a machine with this address. -/
def created (cfg : Config) (ipAddr : String) : CloudCreateNodeDTO :=
  { externalId := ipAddr
    hostname := ipAddr
    username := cfg.username
    jumpHost := cfg.jumpHost
    jumpPort := cfg.jumpPort
    jumpUsername := (cfg.jumpUsername.filter (· ≠ "")).getD "root" }

/-- **`create_node`.** The `try` begins with the request of the machine. What comes
before is outside of it, and by then there is a NIC. -/
def createNode (cfg : Config) (cloudConfig : Option CloudInitConfig) :
    Script CloudCreateNodeDTO := do
  let vmName ← getRndName cfg.label
  let (nic, ipAddr) ← createNic cfg vmName
  let vmParams ← createVmParams cfg vmName nic [(idTagName, ipAddr)] cloudConfig
  Co.tryCatch (createVm cfg vmName vmParams) fun exc => do
    cleanupVmAndNic cfg vmName nic.name
    raise exc
  return created cfg ipAddr

end Yascheduler.Azure
