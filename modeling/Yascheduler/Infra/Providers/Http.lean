import Yascheduler.Codec.Text
import Yascheduler.Infra.CloudUtils

/-!
# Providers with a REST API

Hetzner and Vultr are talked to over HTTP. Each has a client of its own, and
the two clients are the same code but for names and numbers: how a response
becomes a value or an error, how a resource is deleted, and how it is waited
for until it is gone. What they share is written once, over an `Api` that holds
what they differ in.

The session answers a request with a status and the outcome of reading the
body; `json.loads` of a body is part of the answer. A loop that goes on until
the clock or the API ends it has fuel. When the fuel ends it awaits `diverge`,
which has no result.

## Errors on the way to an answer

A request can fail before there is a response, and reading the body can fail when
there is one. The client sees both as exceptions of the session. It reads the body
of a failure before it makes an error of the status, for the message; so of a
response whose body cannot be read not even the status is left. This order is
kept here because results depend on it.
-/

namespace Yascheduler.Http

open Async

/-- A value as `json.loads` returns it. An `int` and a `float` are told apart, since
the clients test for the one. -/
inductive Value where
  | null
  | bool (b : Bool)
  | int (n : Int)
  | float (q : Rat)
  | str (s : String)
  | list (items : List Value)
  | dict (fields : List (String × Value))

namespace Value

/-- `bool(value)`. -/
def truthy : Value → Bool
  | null => false
  | bool b => b
  | int n => n ≠ 0
  | float q => q ≠ 0
  | str s => s ≠ ""
  | list items => !items.isEmpty
  | dict fields => !fields.isEmpty

/-- `isinstance(value, int)`, which a `bool` is. -/
def isInt : Value → Bool
  | int _ | bool _ => true
  | _ => false

/-- `isinstance(value, str)`. -/
def isStr : Value → Bool
  | str _ => true
  | _ => false

/-- `isinstance(value, dict)`. -/
def isDict : Value → Bool
  | dict _ => true
  | _ => false

/-- `value.get(key)`, if the value is a `dict`. The clients test that before. -/
def get (value : Value) (key : String) : Option Value :=
  match value with
  | dict fields => fields.lookup key
  | _ => none

/-- The string under a key, `""` if there is none. An identifier that is read so can
be empty. -/
def getStr (value : Value) (key : String) : String :=
  match value.get key with
  | some (str s) => s
  | _ => ""

/-- `str(value)` of an `int`. -/
def intText : Value → String
  | int n => toString n
  | bool b => if b then "True" else "False"
  | _ => ""

/-- What `for` iterates over, if the value is iterable. -/
def iter : Value → Option (List Value)
  | list items => some items
  | dict fields => some (fields.map fun field => str field.1)
  | str s => some (s.toList.map fun c => str (String.ofList [c]))
  | _ => none

end Value

/-- An exception. An error of the API carries its status, if there was a response at
all. -/
inductive Exc where
  /-- `HetznerError` or `APIError`, with its status -/
  | api (status : Option Nat)
  /-- `aiohttp.ClientError` or `asyncio.TimeoutError` -/
  | client (name : String)
  | jsonDecode
  /-- any other `Exception` -/
  | other (name : String)
  /-- a `BaseException` that is no `Exception` -/
  | base (name : String)
deriving DecidableEq

/-- `_HTTP_NOT_FOUND`. -/
def notFound : Nat := 404

/-- The error is that of a 404. -/
def Exc.isNotFound (e : Exc) : Bool := e = .api (some notFound)

/-- Whether `except Exception` catches it. -/
def Exc.isException : Exc → Bool
  | .base _ => false
  | _ => true

/-- `transient`: too many requests, an error of the server, or no response. Only
after such an error is a request repeated. -/
def Exc.transient : Exc → Bool
  | .api none => true
  | .api (some status) => status = 429 || 500 ≤ status
  | _ => false

/-- A body that was read: empty, or with the outcome of `json.loads`. An empty one
stands for `null`. -/
inductive Text where
  | empty
  | json (value : Value)
  | notJson
  /-- `json.loads` raises another error -/
  | unloadable (name : String)

/-- A response: its status, and what `resp.text()` returns or raises. The status
comes first, so it can be known without the text. -/
structure Response where
  status : Nat
  text : Except Exc Text

/-- The methods that are used. -/
inductive Method where
  | get
  | post
  | delete
deriving DecidableEq

/-- A request, as far as the provider can tell one from another. The session adds the
same headers to all of them. -/
structure Request where
  method : Method
  path : String
  params : List (String × Value) := []
  data : Option Value := none

/-- What is computed at once: the clock of the event loop, eight random
letters, the key, and the user-data. -/
inductive Call where
  | time
  | rndLetters
  | publicKey
  | fingerprint
  | keyName
  | userData
  | lockRelease

/-- The answers. -/
@[reducible] def Call.Ans : Call → Type
  | .time => Nat
  | .rndLetters => String
  | .lockRelease => Unit
  | _ => Except Exc String

/-- What is awaited. A request can take effect and its response be lost, which is a
failure of the operation like any other. -/
inductive Op where
  | request (req : Request)
  | sleep (seconds : Nat)
  | lockAcquire
  | close
  /-- the loop goes on -/
  | diverge

/-- The results. -/
@[reducible] def Op.Res : Op → Type
  | .request _ => Response
  | .diverge => Empty
  | _ => Unit

@[reducible] def sig : Sig where
  Call := Call
  Ans := Call.Ans
  Op := Op
  Res := Op.Res
  Err := Exc
  cancelled := .base "CancelledError"
  Choice := Unit

abbrev Script := Co sig

abbrev perform (o : Op) : Script o.Res := Co.op (S := sig) o

abbrev raise {α : Type} (e : Exc) : Script α := Co.throw (S := sig) e

abbrev call (c : Call) : Script c.Ans := Co.sync (S := sig) c

/-- The fuel has ended. It is not a result: a run that ends in it is a run that
would have gone on. -/
def diverge {α : Type} : Script α := Co.bind (perform .diverge) Empty.elim

/-! ## Requests

The status is known before the body, but the client reads the body first and
looks at the status then. If the body cannot be read, it is that error which
leaves, and not even a 404 is recognised. -/

/-- `await resp.text()`. -/
def Response.read (resp : Response) : Script Text := Co.ofExcept (S := sig) resp.text

/-- **`_request`.** The text of an error is read as well, and an error in reading it
replaces the status. -/
def request (req : Request) : Script Value :=
  Co.tryCatch (do
    let resp ← perform (.request req)
    if 400 ≤ resp.status then
      let _ ← resp.read
      raise (.api (some resp.status))
    else
      match ← resp.read with
      | .empty => return .null
      | .json value => return value
      | .notJson => raise .jsonDecode
      | .unloadable name => raise (.other name)) fun
    | .jsonDecode | .client _ => raise (.api none)
    | exc => raise exc

/-! ## Names -/

/-- `str.strip`. -/
def strip (s : String) : String := String.ofList (Text.strip s.toList)

theorem Call.ans_publicKey : Call.publicKey.Ans = Except Exc String := rfl

theorem Call.ans_keyName : Call.keyName.Ans = Except Exc String := rfl

theorem Call.ans_userData : Call.userData.Ans = Except Exc String := rfl

abbrev fallible (c : Call) (h : c.Ans = Except Exc String) : Script String :=
  Co.fallible (S := sig) c h

/-- **`get_rnd_name`.** -/
abbrev getRndName (label : String) : Script String :=
  Yascheduler.getRndName (call .rndLetters) label

/-! ## Listings

A listing comes in pages, and the client goes through them until one has what
it looks for. An item that is not of the expected shape ends the search with an
error, even if the wanted item stands before it on the page. -/

/-- `value.get(key, {})`. -/
def getOr (value : Value) (key : String) (other : Value) : Except Exc Value :=
  match value with
  | .dict fields => .ok ((fields.lookup key).getD other)
  | _ => .error (.other "AttributeError")

/-- How the pages of a listing are read. Two listings of one client differ in this
and in nothing else. -/
structure Pages where
  path : String
  /-- the parameter that asks for a page -/
  pageParam : String
  /-- the items of a response, if it has the right shape -/
  items : Value → Except Exc (List Value)
  /-- where the next page is told -/
  links : String
  next : String

/-- `_get_next_page`, `_get_next_cursor`: the next page, if there is one. -/
def Pages.nextPage (pages : Pages) (resp : Value) : Except Exc (Option Value) := do
  let info ← getOr resp "meta" (.dict [])
  let links ← getOr info pages.links (.dict [])
  let next ← getOr links pages.next .null
  return if next.truthy then some next else none

/-- `params[key] = value`. -/
def setParam (key : String) (value : Value) (params : List (String × Value)) :
    List (String × Value) :=
  params.filter (·.1 ≠ key) ++ [(key, value)]

/-- The first item of a listing that is picked; the pages after it are not asked
for. A listing without an end is cut by the fuel. -/
def findItem {α : Type} (pages : Pages) (pick : Value → Option α) :
    Nat → List (String × Value) → Script (Option α)
  | 0, _ => diverge
  | fuel + 1, params => do
    let resp ← request { method := .get, path := pages.path, params }
    let items ← Co.ofExcept (S := sig) (pages.items resp)
    match items.findSome? pick with
    | some a => return some a
    | none =>
      match ← Co.ofExcept (S := sig) (pages.nextPage resp) with
      | none => return none
      | some page => findItem pages pick fuel (setParam pages.pageParam page params)

/-- The attempts to find the orphan of a failed creation in a listing. A provider
may show an instance some time after it was created, so nothing found is no proof
that there is none. -/
def locate (attempts interval : Nat) (listing : Script (Option String)) :
    List Nat → Script (Option String)
  | [] => return none
  | attempt :: rest => do
    match ← Co.attempt listing with
    | .ok (some id) => return some id
    | .ok none =>
      if attempt < attempts then
        perform (.sleep interval)
      locate attempts interval listing rest
    | .error _ =>
      if attempt < attempts then do
        perform (.sleep interval)
        locate attempts interval listing rest
      else
        return none

/-! ## Deletion

Deleting is asking, and a resource that was asked to go may still be there for
a while. So both clients ask again until they are told that it is not found.
They take only this answer for a proof, and an error for no answer at all. -/

/-- What the two clients differ in. Everything else is one client, written twice in
the source. -/
structure Api where
  /-- the path of the resources -/
  resource : String
  /-- the resource in the response for it, if the response has the right shape -/
  item : Value → Option Value
  deleteAttempts : Nat
  deleteInterval : Nat
  verifyTimeout : Nat
  verifyInterval : Nat

/-- The path of a resource. -/
def Api.path (api : Api) (id : String) : String := api.resource ++ "/" ++ id

/-- `delete_server`, `delete_bare_metal`. -/
def deleteItem (api : Api) (id : String) : Script Unit := do
  let _ ← request { method := .delete, path := api.path id }

/-- `get_server`, `get_bare_metal`. A response of another shape is an error without
a status. -/
def getItem (api : Api) (id : String) : Script Value := do
  match api.item (← request { method := .get, path := api.path id }) with
  | some item => return item
  | none => raise (.api none)

/-- The attempts to delete: the verdict, unless one is accepted. A resource that is
not found counts as deleted. -/
def tryDelete (api : Api) (id : String) : List Nat → Script (Option Bool)
  | [] => return none
  | attempt :: attempts => do
    match ← Co.attempt (deleteItem api id) with
    | .ok () => return none
    | .error err =>
      if err.isNotFound then
        return some true
      else if err.transient && attempt < api.deleteAttempts then do
        perform (.sleep api.deleteInterval)
        tryDelete api id attempts
      else if err.isException then
        return some false
      else
        raise err

/-- `_verify_server_gone`, `_verify_instance_gone`. Only a 404 says that the
resource is gone; any other error is waited out like an answer, until the time is
up. -/
def verifyGone (api : Api) (id : String) (deadline : Nat) : Nat → Script Bool
  | 0 => diverge
  | fuel + 1 => do
    let now ← call .time
    if now < deadline then
      match ← Co.attempt (getItem api id) with
      | .ok _ => do
        perform (.sleep api.verifyInterval)
        verifyGone api id deadline fuel
      | .error err =>
        if err.isNotFound then
          return true
        else if err.isException then do
          perform (.sleep api.verifyInterval)
          verifyGone api id deadline fuel
        else
          raise err
    else
      return false

/-- **`_delete_and_verify`.** The clock counts `second` ticks in a second. -/
def deleteAndVerify (api : Api) (second fuel : Nat) (id : String) : Script Bool := do
  match ← tryDelete api id (List.range' 1 api.deleteAttempts) with
  | some gone => return gone
  | none => do
    let now ← call .time
    verifyGone api id (now + api.verifyTimeout * second) fuel

/-- `hetzner_delete_node` and `vultr_delete_node`, once the id is known. What is not
verified is an error. -/
def deleteNode (api : Api) (second fuel : Nat) (id : String) : Script Unit := do
  let gone ← Co.asyncWith (S := sig) (pure ()) (fun _ _ => perform .close) fun _ =>
    deleteAndVerify api second fuel id
  if gone then
    return ()
  else
    raise (.api none)

end Yascheduler.Http
