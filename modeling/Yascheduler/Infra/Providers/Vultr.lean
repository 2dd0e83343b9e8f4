import Yascheduler.Application.World
import Yascheduler.Infra.Providers.Http

/-!
# Vultr

A bare-metal instance is created with a request, and then waited for until it
is active. Until the request is answered it is known by its label only, and
after a failure the instances are listed to find it; from then on it is known
by its id.

The waiting is what makes the difference to Hetzner. While it lasts the instance
is known by its id, every question for it can fail, and the time for it may run
out; and after each of these it has to be deleted.
-/

namespace Yascheduler.Http.Vultr

open Async

/-- `ConfigCloudVultr`, as far as a creation reads it. -/
structure Config where
  username : String := "root"
  location : String := "ams"
  serverType : String := "vbm-24c-256gb-amd"
  imageName : Int := 2136
  jumpUsername : Option String := none
  jumpHost : Option String := none
  jumpPort : Nat := 22
  label : String := "yascheduler"

/-- `POLL_INTERVAL`. -/
def pollInterval : Nat := 20

/-- `POLL_TIMEOUT`. -/
def pollTimeout : Nat := 1200

/-- `LIST_PAGE_SIZE`. -/
def listPageSize : Int := 500

/-- `RECONCILE_ATTEMPTS`. -/
def reconcileAttempts : Nat := 10

/-- `RECONCILE_INTERVAL`. -/
def reconcileInterval : Nat := 15

/-! ## Shapes

An instance has to have an id, and the types of its other fields are tested
where they are there. One field of another type is enough for it not to be
seen. -/

/-- `_is_ssh_key`. -/
def isSshKey (x : Value) : Bool :=
  (x.get "id").any Value.isStr && (x.get "ssh_key").any Value.isStr

/-- `_is_bare_metal`. Only the id is required; of the others only the type is
checked. -/
def isBareMetal (x : Value) : Bool :=
  (x.get "id").any Value.isStr && (x.get "label").all Value.isStr &&
    (x.get "status").all Value.isStr && (x.get "main_ip").all Value.isStr

/-- The key in a response, if `_is_ssh_key_create_resp`. -/
def sshKey (resp : Value) : Option Value := (resp.get "ssh_key").filter isSshKey

/-- The keys in a response, if `_is_ssh_keys_resp`. -/
def sshKeysOf (resp : Value) : Except Exc (List Value) :=
  match resp.get "ssh_keys" with
  | some (.list keys) => if keys.all isSshKey then .ok keys else .error (.api none)
  | _ => .error (.api none)

/-- The instance in a response, if `_is_bare_metal_resp`. An instance of another
shape is not seen at all, even if it has an id. -/
def bareMetal (resp : Value) : Option Value := (resp.get "bare_metal").filter isBareMetal

/-- The instances in a response, if `_is_bare_metals_resp`. One of another shape
spoils the listing. -/
def bareMetalsOf (resp : Value) : Except Exc (List Value) :=
  match resp.get "bare_metals" with
  | some (.list bms) =>
    if bms.all isBareMetal && (resp.get "meta").all Value.isDict then .ok bms
    else .error (.api none)
  | _ => .error (.api none)

/-! ## The client -/

/-- The client of Vultr. -/
def api : Api where
  resource := "bare-metals"
  item := bareMetal
  deleteAttempts := 3
  deleteInterval := 5
  verifyTimeout := 180
  verifyInterval := 10

/-- `get_ssh_keys`. -/
def sshKeys : Pages where
  path := "ssh-keys"
  pageParam := "cursor"
  items := sshKeysOf
  links := "links"
  next := "next"

/-- `get_bare_metals`. -/
def bareMetals : Pages where
  path := "bare-metals"
  pageParam := "cursor"
  items := bareMetalsOf
  links := "links"
  next := "next"

/-- The parameters of the first page of a listing. -/
def firstPage : List (String × Value) := [("per_page", .int listPageSize)]

/-- `create_ssh_key`. -/
def createSshKey (name pubKey : String) : Script String := do
  let resp ← request
    { method := .post
      path := "ssh-keys"
      data := some (.dict [("name", .str name), ("ssh_key", .str pubKey)]) }
  match sshKey resp with
  | some key => return key.getStr "id"
  | none => raise (.api none)

/-- `create_bare_metal`. A response of another shape is an error, although the
instance may be there. -/
def createBareMetal (params : Value) : Script Value := do
  match bareMetal (← request { method := .post, path := "bare-metals", data := some params }) with
  | some bm => return bm
  | none => raise (.api none)

/-- **`get_ssh_key_id`.** -/
def getSshKeyId (fuel : Nat) : Script String := do
  let keyName ← fallible .keyName Call.ans_keyName
  let pubKey ← fallible .publicKey Call.ans_publicKey
  Co.asyncWith (S := sig) (perform .lockAcquire) (fun _ _ => call .lockRelease) fun _ => do
    match ← findItem sshKeys
        (fun key => if strip (key.getStr "ssh_key") = strip pubKey then some (key.getStr "id")
          else none) fuel firstPage with
    | some keyId => return keyId
    | none => createSshKey keyName (strip pubKey)

/-! ## Creation

The creation has two clean-ups, one by the label before the request is answered
and one by the id after it. Both are called under a handler for everything, and
their errors are logged. -/

/-- **`_delete_and_verify`.** -/
def deleteAndVerify (second fuel : Nat) (instanceId : String) : Script Bool :=
  Http.deleteAndVerify api second fuel instanceId

/-- The id of an instance that has the label. -/
def withLabel (label : String) (bm : Value) : Option String :=
  match bm.get "label", bm.get "id" with
  | some (.str l), some (.str id) => if l = label && id ≠ "" then some id else none
  | _, _ => none

/-- A listing of the instances: the first with the label. -/
def listOrphan (fuel : Nat) (label : String) : Script (Option String) :=
  findItem bareMetals (withLabel label) fuel firstPage

/-- **`_reconcile_orphan_by_label`.** The deletion ends the attempts, whether it was
verified or not. -/
def reconcileOrphanByLabel (second fuel : Nat) (label : String) : Script Unit := do
  match ← locate reconcileAttempts reconcileInterval (listOrphan fuel label)
      (List.range' 1 reconcileAttempts) with
  | none => return ()
  | some orphanId => do
    let _ ← deleteAndVerify second fuel orphanId

/-- The instance is waited for until it is active and has an address. Transient
errors are waited out. -/
def pollActive (instanceId : String) (deadline : Nat) : Nat → Script String
  | 0 => diverge
  | fuel + 1 => do
    let now ← call .time
    if now < deadline then
      match ← Co.attempt (getItem api instanceId) with
      | .error err =>
        if err.transient then do
          perform (.sleep pollInterval)
          pollActive instanceId deadline fuel
        else
          raise err
      | .ok bm =>
        let ipAddr := bm.getStr "main_ip"
        if bm.getStr "status" = "active" && ipAddr ≠ "" && ipAddr ≠ "0.0.0.0" then
          return ipAddr
        else do
          perform (.sleep pollInterval)
          pollActive instanceId deadline fuel
    else
      raise (.api none)

/-- What is returned for an instance. -/
def created (cfg : Config) (instanceId ipAddr : String) : CloudCreateNodeDTO :=
  { externalId := instanceId
    hostname := ipAddr
    username := cfg.username
    jumpHost := cfg.jumpHost
    jumpPort := cfg.jumpPort
    jumpUsername := (cfg.jumpUsername.filter (· ≠ "")).getD "root" }

/-- **`vultr_create_node`.** Both clean-ups stand in a handler for everything, so the
error that leaves is that of the creation. -/
def createNode (cfg : Config) (second fuel : Nat) : Script CloudCreateNodeDTO := do
  let label ← getRndName cfg.label
  let _ ← fallible .publicKey Call.ans_publicKey
  let userData ← fallible .userData Call.ans_userData
  Co.asyncWith (S := sig) (pure ()) (fun _ _ => perform .close) fun _ => do
    let sshKeyId ← getSshKeyId fuel
    let bm ← Co.tryCatch (createBareMetal (.dict
      [("region", .str cfg.location), ("plan", .str cfg.serverType), ("os_id", .int cfg.imageName),
        ("label", .str label), ("hostname", .str label), ("sshkey_id", .list [.str sshKeyId]),
        ("user_data", .str userData), ("enable_ipv6", .bool true)])) fun err => do
      Co.tryCatch (reconcileOrphanByLabel second fuel label) fun _ => pure ()
      raise err
    let instanceId := bm.getStr "id"
    Co.tryCatch (do
      let now ← call .time
      let ipAddr ← pollActive instanceId (now + pollTimeout * second) fuel
      return created cfg instanceId ipAddr) fun err => do
      Co.tryCatch (do let _ ← deleteAndVerify second fuel instanceId) fun _ => pure ()
      raise err

/-! ## Deletion -/

/-- **`vultr_delete_node`.** -/
def deleteNode (second fuel : Nat) (externalId : String) : Script Unit :=
  Http.deleteNode api second fuel externalId

end Yascheduler.Http.Vultr
