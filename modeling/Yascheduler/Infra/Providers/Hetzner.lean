import Yascheduler.Application.World
import Yascheduler.Infra.Providers.Http

/-!
# Hetzner

Creating a server is not idempotent: a request that fails may have created one
all the same. So each creation has a label of its own, and after a failure the
servers with this label are listed, and the one that is found is deleted.

What the client makes of a response depends on its shape, and a response that is
not of the expected one is an error as a whole. The shapes are written out here
for that reason: which of its parts a response has to have before any of them is
looked at decides what the clean-up can know.
-/

namespace Yascheduler.Http.Hetzner

open Async

/-- `ConfigCloudHetzner`, as far as a creation reads it. -/
structure Config where
  username : String := "root"
  serverType : String := "cx52"
  location : String := "fsn1"
  imageName : String := "debian-13"
  jumpUsername : Option String := none
  jumpHost : Option String := none
  jumpPort : Nat := 22
  label : String := "yascheduler"

/-- `_RECONCILE_ATTEMPTS`. -/
def reconcileAttempts : Nat := 5

/-- `_RECONCILE_INTERVAL`. -/
def reconcileInterval : Nat := 10

/-- `_RECONCILE_LABEL_KEY`. -/
def reconcileLabelKey : String := "yascheduler/reconcile"

/-! ## Shapes

A response has the shape or has not, and it is tested before anything is read
out of it. For a server this includes the address, which may be missing for a
server that is there. -/

/-- `_is_api_ssh_key`. -/
def isApiSshKey (obj : Value) : Bool :=
  (obj.get "id").any Value.isInt && (obj.get "name").any Value.isStr &&
    (obj.get "fingerprint").any Value.isStr

/-- `_is_api_ipv4`. -/
def isApiIpv4 (obj : Value) : Bool := (obj.get "ip").any Value.isStr

/-- `_is_api_public_net`. -/
def isApiPublicNet (obj : Value) : Bool := (obj.get "ipv4").any isApiIpv4

/-- `_is_api_server`. -/
def isApiServer (obj : Value) : Bool :=
  (obj.get "id").any Value.isInt && (obj.get "name").any Value.isStr &&
    (obj.get "public_net").any isApiPublicNet && (obj.get "labels").any Value.isDict

/-- The server in a response, if `_is_api_create_server_response`. -/
def apiServer (obj : Value) : Option Value := (obj.get "server").filter isApiServer

/-- The key in a response, if `_is_api_ssh_key_create_response`. -/
def apiSshKey (obj : Value) : Option Value := (obj.get "ssh_key").filter isApiSshKey

/-- The keys in a response, if `_is_api_ssh_keys_list_response`. -/
def apiSshKeys (obj : Value) : Except Exc (List Value) :=
  match obj.get "ssh_keys" with
  | some (.list keys) => if keys.all isApiSshKey then .ok keys else .error (.api none)
  | _ => .error (.api none)

/-- The servers in a response, if `_is_api_servers_list_response`. Nothing says
that they are a list. -/
def apiServers (obj : Value) : Except Exc (List Value) :=
  match obj.get "servers" with
  | none => .error (.api none)
  | some servers =>
    match servers.iter with
    | none => .error (.other "TypeError")
    | some servers => if servers.all isApiServer then .ok servers else .error (.api none)

/-- `server["id"]`, as it is written in a path. -/
def serverId (server : Value) : String := ((server.get "id").getD .null).intText

/-- `server["public_net"]["ipv4"]["ip"]`. -/
def serverIp (server : Value) : String :=
  ((((server.get "public_net").getD .null).get "ipv4").getD .null).getStr "ip"

/-! ## The client -/

/-- The client of Hetzner. -/
def api : Api where
  resource := "servers"
  item := apiServer
  deleteAttempts := 3
  deleteInterval := 5
  verifyTimeout := 120
  verifyInterval := 5

/-- `get_ssh_keys`. -/
def sshKeys : Pages where
  path := "ssh_keys"
  pageParam := "page"
  items := apiSshKeys
  links := "pagination"
  next := "next_page"

/-- `get_servers`. -/
def servers : Pages where
  path := "servers"
  pageParam := "page"
  items := apiServers
  links := "pagination"
  next := "next_page"

/-- The parameters of the first page of a listing. -/
def firstPage (filter value : String) : List (String × Value) :=
  [("page", .int 1), ("per_page", .int 25)] ++ if value = "" then [] else [(filter, .str value)]

/-- `create_ssh_key`. -/
def createSshKey (name publicKey : String) : Script Value := do
  let resp ← request
    { method := .post
      path := "ssh_keys"
      data := some (.dict [("name", .str name), ("public_key", .str publicKey)]) }
  match apiSshKey resp with
  | some key => return key
  | none => raise (.api none)

/-- `create_server`. -/
def createServer (data : Value) : Script Value := do
  match apiServer (← request { method := .post, path := "servers", data := some data }) with
  | some server => return server
  | none => raise (.api none)

/-- **`_resolve_ssh_key_by_fingerprint`.** -/
def resolveSshKeyByFingerprint (fuel : Nat) : Script (Option Value) := do
  let fingerprint ← fallible .fingerprint rfl
  findItem sshKeys (fun key => key.get "id") fuel
    (firstPage "fingerprint" (fingerprint.dropPrefix "MD5:").toString)

/-- **`ensure_ssh_key`.** -/
def ensureSshKey (fuel : Nat) (keyName : String) : Script Value := do
  match ← resolveSshKeyByFingerprint fuel with
  | some keyId => return keyId
  | none => do
    let pubKey ← fallible .publicKey Call.ans_publicKey
    let key ← createSshKey keyName pubKey
    return (key.get "id").getD .null

/-! ## Creation

The clean-up stands in the handlers of the creation, without one of its own. So
whatever it raises leaves in the place of the error that it was called for. -/

/-- **`_delete_and_verify`.** -/
def deleteAndVerify (second fuel : Nat) (serverId : String) : Script Bool :=
  Http.deleteAndVerify api second fuel serverId

/-- A listing of the servers with the label: the first of them. -/
def listOrphan (fuel : Nat) (label : String) : Script (Option String) :=
  findItem servers (fun server => some (serverId server)) fuel
    (firstPage "label_selector" (reconcileLabelKey ++ "=" ++ label))

/-- The attempts to delete the orphan. -/
def deleteOrphan (second fuel : Nat) (orphanId : String) : List Nat → Script Unit
  | [] => return ()
  | attempt :: attempts => do
    if ← deleteAndVerify second fuel orphanId then
      return ()
    else do
      if attempt < reconcileAttempts then
        perform (.sleep reconcileInterval)
      deleteOrphan second fuel orphanId attempts

/-- **`_reconcile_orphan_by_label`.** It is documented not to raise, and its listings
are guarded; its waits and the deletion are not guarded against a cancellation. -/
def reconcileOrphanByLabel (second fuel : Nat) (label : String) : Script Unit := do
  match ← locate reconcileAttempts reconcileInterval (listOrphan fuel label)
      (List.range' 1 reconcileAttempts) with
  | none => return ()
  | some orphanId => deleteOrphan second fuel orphanId (List.range' 1 reconcileAttempts)

/-- What is returned for a server. -/
def created (cfg : Config) (server : Value) : CloudCreateNodeDTO :=
  { externalId := serverId server
    hostname := serverIp server
    username := cfg.username
    jumpHost := cfg.jumpHost
    jumpPort := cfg.jumpPort
    jumpUsername := (cfg.jumpUsername.filter (· ≠ "")).getD "root" }

/-- **`hetzner_create_node`.** The creation and its two handlers: one for a request
that fails, and one for a server without an address. -/
def createNode (cfg : Config) (second fuel : Nat) : Script CloudCreateNodeDTO := do
  let _ ← fallible .publicKey Call.ans_publicKey
  let userData ← fallible .userData Call.ans_userData
  Co.asyncWith (S := sig) (pure ()) (fun _ _ => perform .close) fun _ => do
    let keyName ← fallible .keyName Call.ans_keyName
    let sshKeyId ← ensureSshKey fuel keyName
    let label ← getRndName cfg.label
    let server ← Co.tryCatch (createServer (.dict
      [("name", .str label), ("server_type", .str cfg.serverType), ("image", .str cfg.imageName),
        ("ssh_keys", .list [sshKeyId]), ("user_data", .str userData),
        ("location", .str cfg.location),
        ("labels", .dict [(reconcileLabelKey, .str label)])])) fun err => do
      reconcileOrphanByLabel second fuel label
      raise err
    if serverIp server = "" then do
      reconcileOrphanByLabel second fuel label
      raise (.api none)
    else
      return created cfg server

/-! ## Deletion -/

/-- **`hetzner_delete_node`.** -/
def deleteNode (second fuel : Nat) (externalId : String) : Script Unit :=
  match Text.int externalId.toList with
  | none => raise (.api none)
  | some serverId => Http.deleteNode api second fuel (toString serverId)

end Yascheduler.Http.Hetzner
