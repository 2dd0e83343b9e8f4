import Yascheduler.Domain
import Yascheduler.Shared.Retry
import Yascheduler.Store.Dict

/-!
# Connecting to a machine over SSH

A machine is connected by opening a connection, detecting its platform over it,
resolving the paths and counting the CPUs; the session that is made of this is
then registered under the node. The whole is retried, and opening the
connection is retried within it.

What goes on over a connection is not modelled any further: each step returns
something or raises. What matters about a step is only that it may raise after
the connection it uses was opened, since nobody but the attempt itself knows of
that connection until the session is registered.

The retries are kept nested as they are in the code, although their policy is
the same one: an error of the inner retry that has run out of time is tried
again by the outer one, which calls the inner one afresh.
-/

namespace Yascheduler.Ssh

open Async Store

/-- An exception. Which class it has decides whether a connection is tried again and
what becomes of the error, so the classes are kept apart as far as the source tells
them apart. -/
inductive Exc where
  /-- `asyncssh.misc.Error`, by the name of its class -/
  | ssh (name message : String)
  /-- `OSError` -/
  | os (message : String)
  /-- `asyncio.TimeoutError` -/
  | timeout (message : String)
  /-- `ValueError` -/
  | value (message : String)
  /-- `MachineConnectionError` -/
  | machineConnection (nodeId : NodeId) (hostname reason : String)
  /-- any other `Exception` -/
  | other (name : String)
  | cancelled
  /-- any other `BaseException` -/
  | base (name : String)
deriving DecidableEq

/-- Whether `except Exception` catches it. A cancellation passes through. -/
def Exc.isException : Exc → Bool
  | .cancelled | .base _ => false
  | _ => true

/-- `SSHRetryExc`. An authentication that failed is not among them. -/
def sshRetryExc : Exc → Bool
  | .os _ | .timeout _ => true
  | .ssh name _ => name ∈ ["CompressionError", "ConnectionLost", "KeyExchangeFailed", "MACError",
      "ProtocolError", "ServiceNotAvailable", "ChannelOpenError", "ChannelListenError"]
  | _ => false

/-- `my_retry`. It is applied twice, to the opening of the connection and to all of
it. -/
def myRetry : RetryPolicy Exc where
  on := sshRetryExc
  maxTime := 60

/-- An SSH connection. -/
abbrev ConnId := Nat

/-- The leg of a connection: where it leads, and as whom. The way to a machine
behind a jump host has two. -/
structure Leg where
  host : String
  port : Nat
  username : String
deriving DecidableEq

/-- The options of a connection. The keys are those of the scheduler for both legs.
-/
structure ConnOptions where
  leg : Leg
  tunnel : Option Leg
  clientKeys : List String
  connectTimeout : Option Nat
deriving DecidableEq

/-- The data, engines and tasks directories. -/
structure Dirs where
  data : Option String := none
  engines : Option String := none
  tasks : Option String := none
deriving DecidableEq

/-- `SSHMachineSession`, as it is registered. Of what it can do nothing matters
here. -/
structure Session where
  hostname : String
  conn : ConnId
  nodeId : NodeId
  adapter : String
  platforms : List String
  freeSince : ℚ
  dirs : Dirs
  ncpus : Int
deriving DecidableEq

/-- What is computed at once: the clock of the event loop, the monotonic clock,
options with the keys they load, the paths; and what is done at once: a session
is registered, a session begins to close (`_closed` is set before anything is
awaited), a connection is told to close. -/
inductive Call where
  | time
  | monotonic
  | tunnelOptions (leg : Leg)
  | connOptions (opts : ConnOptions)
  | initPaths (adapter : String) (dirs : Dirs)
  | register (nodeId : NodeId) (session : Session)
  | closeSession (session : Session)
  | closeConn (conn : ConnId)

@[reducible] def Call.Ans : Call → Type
  | .time | .monotonic => ℚ
  | .tunnelOptions _ | .connOptions _ => Except Exc Unit
  | .initPaths .. => Except Exc Dirs
  | .register .. | .closeSession _ | .closeConn _ => Unit

/-- What is awaited. The pauses of the retry are among it. -/
inductive Op where
  | connect (opts : ConnOptions)
  /-- `_detect_platform`: the adapter, and all platforms that match -/
  | detectPlatform (conn : ConnId)
  | getCpuCores (adapter : String) (conn : ConnId)
  | sleep (delay : ℚ)
  /-- the loop goes on -/
  | diverge

@[reducible] def Op.Res : Op → Type
  | .connect _ => ConnId
  | .detectPlatform _ => String × List String
  | .getCpuCores .. => Int
  | .sleep _ => Unit
  | .diverge => Empty

@[reducible] def sig : Sig where
  Call := Call
  Ans := Call.Ans
  Op := Op
  Res := Op.Res
  Err := Exc
  cancelled := .cancelled
  Choice := Unit

abbrev Script := Co sig

abbrev perform (o : Op) : Script o.Res := Co.op (S := sig) o

abbrev call (c : Call) : Script c.Ans := Co.sync (S := sig) c

abbrev raise {α : Type} (e : Exc) : Script α := Co.throw (S := sig) e

abbrev fallible {α : Type} (c : Call) (h : c.Ans = Except Exc α) : Script α :=
  Co.fallible (S := sig) c h

/-- The event loop as the retry sees it. -/
def loop : EventLoop sig where
  time := call .time
  sleep delay := perform (.sleep delay)
  diverge := perform .diverge
  isCancelled e := e = .cancelled
  isException := Exc.isException

/-- What `connect` is told besides the node. -/
structure ConnectArgs where
  clientKeys : List String := []
  connectTimeout : Option Nat := none
  dirs : Dirs := {}
deriving DecidableEq

/-- **`_build_tunnel_options`.** An empty name of the jump host is as good as none.
-/
def buildTunnelOptions (node : Node) : Script (Option Leg) :=
  match node.jumpHost with
  | none => return none
  | some "" => return none
  | some host => do
    let leg := { host, port := node.jumpPort, username := node.jumpUsername }
    fallible (.tunnelOptions leg) rfl
    return some leg

/-- The connection is opened, once. Until it is open there is nothing to close. -/
def openOnce (node : Node) (args : ConnectArgs) (tunnel : Option Leg) : Script ConnId := do
  let opts := {
    leg := { host := node.hostname, port := node.port, username := node.username }
    tunnel
    clientKeys := args.clientKeys
    connectTimeout := args.connectTimeout }
  fallible (.connOptions opts) rfl
  perform (.connect opts)

/-- **`_open_connection`.** The inner retry: what fails here has not left a
connection behind. -/
def openConnection (fuel : Nat) (node : Node) (args : ConnectArgs) (tunnel : Option Leg) :
    Script ConnId :=
  retry loop myRetry fuel (openOnce node args tunnel)

/-- What is done with an open connection. If something fails before the session is
registered, nobody closes the connection. -/
def adopt (node : Node) (args : ConnectArgs) (conn : ConnId) : Script Session := do
  let (adapter, platforms) ← perform (.detectPlatform conn)
  let dirs ← fallible (.initPaths adapter args.dirs) rfl
  let ncpus ← perform (.getCpuCores adapter conn)
  let freeSince ← call .monotonic
  let session := {
    hostname := node.hostname, conn, nodeId := node.nodeId, adapter, platforms, freeSince, dirs,
    ncpus }
  call (.register node.nodeId session)
  return session

/-- A machine is connected, once, with the tunnel's options built anew. -/
def connectOnce (fuel : Nat) (node : Node) (args : ConnectArgs) : Script Session := do
  let tunnel ← buildTunnelOptions node
  let conn ← openConnection fuel node args tunnel
  adopt node args conn

/-- **`_connect_impl`.** The outer retry: after a failure it opens another
connection. -/
def connectImpl (fuel : Nat) (node : Node) (args : ConnectArgs) : Script Session :=
  retry loop myRetry fuel (connectOnce fuel node args)

/-- **`SSHMachineRepository.connect`.** From Python 3.11 on `asyncio.TimeoutError`
is an `OSError`, so a timeout is translated as well. -/
def connect (fuel : Nat) (node : Node) (args : ConnectArgs) : Script Session :=
  Co.tryCatch (connectImpl fuel node args) fun
    | .ssh _ message | .os message | .timeout message | .value message =>
      raise (.machineConnection node.nodeId node.hostname message)
    | err => raise err

end Yascheduler.Ssh
