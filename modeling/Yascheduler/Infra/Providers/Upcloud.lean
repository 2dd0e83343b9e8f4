import Yascheduler.Async.Coroutine

/-!
# UpCloud

Deleting a server with the SDK of UpCloud, which is synchronous code that runs
in a thread: the server with the address is stopped, destroyed, and its
storages after it.

The code runs in a thread and cannot be cancelled there. What the event loop may
cancel is the wait for the thread, so an outcome of the thread may never be seen;
what it did to the server it has done.
-/

namespace Yascheduler.Upcloud

open Async

/-- `UpCloudAPIError`. -/
structure ApiError where
  errorCode : String
  errorMessage : String := ""
deriving DecidableEq

/-- The server does not exist. -/
def ApiError.notFound (e : ApiError) : Bool := e.errorCode = "SERVER_NOT_FOUND"

/-- An exception of the SDK. -/
inductive Error where
  | api (e : ApiError)
  /-- any other one -/
  | other (name : String)
deriving DecidableEq

/-- `Server`, as far as a deletion reads it. It is found by its public address,
since that is the external id. -/
structure Server where
  uuid : String
  /-- `get_public_ip()` -/
  publicIp : Option String
  storageDevices : List String := []
deriving DecidableEq

/-- What is asked of the SDK. The pauses are `time.sleep`, since all of this runs in
a thread. -/
inductive Op where
  | getClient
  | getServers
  | stop (server : Server)
  | sleep (seconds : Nat)
  | destroy (server : Server)
  | destroyStorage (storage : String)

@[reducible] def Op.Res : Op → Type
  | .getServers => List Server
  | _ => Unit

@[reducible] def sig : Sig where
  Call := Empty
  Ans := Empty.elim
  Op := Op
  Res := Op.Res
  Err := Error
  cancelled := .other "KeyboardInterrupt"
  Choice := Unit

/-- Code that uses the SDK. -/
abbrev Script := Co sig

abbrev perform (o : Op) : Script o.Res := Co.op (S := sig) o

abbrev raise {α : Type} (e : Error) : Script α := Co.throw (S := sig) e

/-- `_DELETE_ATTEMPTS`. -/
def deleteAttempts : Nat := 3

/-- `_DELETE_INTERVAL`. -/
def deleteInterval : Nat := 5

/-- `_STOP_WAIT_SECONDS`. -/
def stopWaitSeconds : Nat := 20

/-- The attempts to destroy a server, and what they leave in `err` and
`server_gone`. The error of an earlier attempt stays in `err` when a later one finds
no server. -/
def destroyServer (server : Server) : List Nat → Option ApiError →
    Script (Option ApiError × Bool)
  | [], err => return (err, false)
  | attempt :: attempts, err => do
    match ← Co.attempt (perform (.destroy server)) with
    | .ok () => return (none, false)
    | .error (.api exc) =>
      if exc.notFound then
        return (err, true)
      if attempt < deleteAttempts then
        perform (.sleep deleteInterval)
      destroyServer server attempts (some exc)
    | .error e => raise e

/-- The storages, up to the first that fails. -/
def destroyStorages : List String → Script Unit
  | [] => pure ()
  | storage :: storages => do
    perform (.destroyStorage storage)
    destroyStorages storages

/-- What is done with the server that matches. The storages are left if the server
was already gone. -/
def deleteServer (server : Server) : Script Unit := do
  perform (.stop server)
  perform (.sleep stopWaitSeconds)
  let (err, serverGone) ← destroyServer server (List.range' 1 deleteAttempts) none
  match err with
  | some e => raise (.api e)
  | none =>
    if !serverGone then
      destroyStorages server.storageDevices

/-- The loop over the servers: only the first that matches is deleted. If none
matches there is nothing to do. -/
def deleteFirst (externalId : String) : List Server → Script Unit
  | [] => pure ()
  | server :: servers =>
    if server.publicIp = some externalId then deleteServer server
    else deleteFirst externalId servers

/-- **`upcloud_delete_node_sync`.** -/
def deleteNodeSync (externalId : String) : Script Unit := do
  perform .getClient
  let servers ← perform .getServers
  deleteFirst externalId servers

end Yascheduler.Upcloud
