import Yascheduler.Infra.Providers.Azure
import Yascheduler.Infra.Providers.Upcloud

/-!
# An UpCloud server is created

The SDK returns the server when it exists, and it is billed from then on. A
server without a public address could not be found again, so it is destroyed
before the error leaves, and so is one whose address cannot be told because the
SDK raises when it is asked for.

Up to that moment there is nothing to destroy. A request that raises may have
created a server all the same, but the SDK returns nothing by which it could be
named, and the code only logs the hostname.
-/

namespace Yascheduler.Upcloud.Creation

open Async

/-- `ConfigCloudUpcloud`, as far as a creation reads it. -/
structure Config where
  username : String := "root"
  jumpUsername : Option String := none
  jumpHost : Option String := none
  jumpPort : Nat := 22
  label : String := "yascheduler"

/-- What `login_user_block` returns. -/
structure LoginUser where
  username : String
  sshKeys : List String
  createPassword : Bool

/-- The server that is asked for. -/
structure ServerRequest where
  coreNumber : Nat
  memoryAmount : Nat
  hostname : String
  zone : String
  /-- the operating system and the size of each storage -/
  storageDevices : List (String × Nat)
  loginUser : LoginUser
  userData : Option String

/-- What is computed at once: eight random letters, the public key in OpenSSH
format, the user-data, the public address of a server. -/
inductive Call where
  | rndLetters
  | exportPublicKey
  | render (cloudConfig : Azure.CloudInitConfig)
  | getPublicIp (server : Server)

/-- The answers. -/
@[reducible] def Call.Ans : Call → Type
  | .rndLetters => String
  | .getPublicIp _ => Except Error (Option String)
  | _ => Except Error String

/-- What is asked of the SDK: a server, and all that a deletion asks. -/
inductive Op where
  | createServer (server : ServerRequest)
  | sdk (o : Upcloud.Op)

/-- The results. -/
@[reducible] def Op.Res : Op → Type
  | .createServer _ => Server
  | .sdk o => o.Res

@[reducible] def sig : Sig where
  Call := Call
  Ans := Call.Ans
  Op := Op
  Res := Op.Res
  Err := Error
  cancelled := .other "KeyboardInterrupt"
  Choice := Unit

/-- Code that uses the SDK. -/
abbrev Script := Co sig

abbrev perform (o : Op) : Script o.Res := Co.op (S := sig) o

abbrev raise {α : Type} (e : Error) : Script α := Co.throw (S := sig) e

/-- A call that can raise. -/
abbrev fallible (c : Call) (h : c.Ans = Except Error String) : Script String :=
  Co.fallible (S := sig) c h

/-- **`get_rnd_name`.** -/
abbrev getRndName (label : String) : Script String :=
  Yascheduler.getRndName (Co.sync (S := sig) .rndLetters) label

/-- The storages, up to the first that fails. -/
def destroyStorages : List String → Script Unit
  | [] => pure ()
  | storage :: storages => do
    perform (.sdk (.destroyStorage storage))
    destroyStorages storages

/-- **`_destroy_created_server_best_effort`.** One attempt, and its failure is
logged. -/
def destroyCreatedServerBestEffort (server : Server) : Script Unit :=
  Co.tryCatch (do
    perform (.sdk (.stop server))
    perform (.sdk (.sleep stopWaitSeconds))
    match ← Co.attempt (perform (.sdk (.destroy server))) with
    | .ok () => destroyStorages server.storageDevices
    | .error (.api exc) => if exc.notFound then pure () else raise (.api exc)
    | .error e => raise e) fun _ => pure ()

/-- `cloud_config.render() if cloud_config else None`. -/
def renderUserData : Option Azure.CloudInitConfig → Script (Option String)
  | none => return none
  | some cloudConfig => do
    let text ← fallible (.render cloudConfig) rfl
    return some text

/-- What is returned for a server with this address. -/
def created (cfg : Config) (ipAddr : String) : CloudCreateNodeDTO :=
  { externalId := ipAddr
    hostname := ipAddr
    username := cfg.username
    jumpHost := cfg.jumpHost
    jumpPort := cfg.jumpPort
    jumpUsername := (cfg.jumpUsername.filter (· ≠ "")).getD "root" }

/-- **`upcloud_create_node_sync`.** Until the server is returned, a failure is
logged and nothing else. -/
def createNodeSync (cfg : Config) (cloudConfig : Option Azure.CloudInitConfig) :
    Script CloudCreateNodeDTO := do
  perform (.sdk .getClient)
  let key ← fallible .exportPublicKey rfl
  let hostname ← getRndName cfg.label
  let userData ← renderUserData cloudConfig
  let server ← perform (.createServer
    { coreNumber := 8
      memoryAmount := 4096
      hostname
      zone := "uk-lon1"
      storageDevices := [("Debian 10.0", 40)]
      loginUser := { username := cfg.username, sshKeys := [key], createPassword := false }
      userData })
  let ipAddr ← Co.tryCatch (do
    match ← Co.fallible (S := sig) (.getPublicIp server) rfl with
    | none => raise (.other "RuntimeError")
    | some ipAddr => return ipAddr) fun err => do
    destroyCreatedServerBestEffort server
    raise err
  return created cfg ipAddr

end Yascheduler.Upcloud.Creation
