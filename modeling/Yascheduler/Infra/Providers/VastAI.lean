import Yascheduler.Infra.Providers.Azure
import Yascheduler.Infra.Providers.Http

/-!
# VastAI

An instance is rented from an offer. The request is not idempotent: one that
fails may have rented an instance all the same, so each has a label of its own,
and the instances with the label are listed after a failure. Once the instance
is known, whatever fails while it is waited for deletes it.

The methods of the client are operations, whatever the API answers; their
errors are those of the other clients. A number that is no integer is a
rational.

In particular prices are finite. A price that is not a number would pass the
comparison with the ceiling, as would every price if the ceiling were none, and
nothing could be said about what is spent.
-/

namespace Yascheduler.Http.VastAI

open Async

/-- `ConfigCloudVastAI`, as far as a creation reads it. -/
structure Config where
  image : String := "pytorch/pytorch:2.2.2-cuda12.1-cudnn8-devel"
  diskGb : Int := 80
  minVramMb : Int := 80 * 1024
  numGpus : Int := 1
  maxPricePerHr : Rat := 3 / 2
  connectGrace : Nat := 300
  onstartScript : Option String := none
  dockerOptions : Option String := none
  jumpUsername : Option String := none
  jumpHost : Option String := none
  jumpPort : Nat := 22
  label : String := "yascheduler"

/-- `_RECONCILE_ATTEMPTS`. -/
def reconcileAttempts : Nat := 10

/-- `_RECONCILE_INTERVAL`. -/
def reconcileInterval : Nat := 15

/-- `_DELETE_ATTEMPTS`. -/
def deleteAttempts : Nat := 3

/-- `_DELETE_INTERVAL`. -/
def deleteInterval : Nat := 5

/-- `poll_interval`. -/
def pollInterval : Nat := 5

/-- `VastAIOffer`. Both are whatever number the response has. -/
structure Offer where
  id : Rat
  dphTotal : Rat

/-- The parameters of `search_offers`: each filter is a field, a comparison and
a value. -/
structure Search where
  instanceType : String
  order : List (String × String)
  limit : Nat
  filters : List (String × String × Value)

/-- `VastAICreateInstanceParams`. The label is in it, and it is the only thing by
which an instance can be found without its id. -/
structure InstanceParams where
  image : String
  disk : Int
  vm : Bool
  label : String
  onstart : String
  env : String

/-- What is computed at once: the clock of the event loop, eight random
letters, the key, and the index that `random.choice` draws. -/
inductive Call where
  | time
  | rndLetters
  | publicKey
  | choice (last : Nat)

@[reducible] def Call.Ans : Call → Type
  | .time => Nat
  | .rndLetters => String
  | .publicKey => Except Exc String
  | .choice last => Fin (last + 1)

/-- What is awaited: the methods of `VastAIClient`, and the loop. -/
inductive Op where
  | getSshKeys
  | createSshKey (sshKey : String)
  | searchOffers (search : Search)
  | createInstance (askId : Rat) (params : InstanceParams)
  | destroyInstance (instanceId : Int)
  | showInstance (instanceId : Int)
  /-- the first of `show_instances` with the label -/
  | firstInstance (label : String)
  | sleep (seconds : Nat)
  | close
  /-- the loop goes on -/
  | diverge

@[reducible] def Op.Res : Op → Type
  | .getSshKeys => List String
  | .createSshKey _ => Bool
  | .searchOffers _ => List Offer
  | .createInstance .. => Int
  | .showInstance _ => Option Value
  | .firstInstance _ => Option Rat
  | .diverge => Empty
  | _ => Unit

@[reducible] def sig : Sig where
  Call := Call
  Ans := Call.Ans
  Op := Op
  Res := Op.Res
  Err := Exc
  cancelled := .base "CancelledError"
  Choice := Unit

abbrev Script := Co sig

abbrev perform (o : Op) : Script o.Res := Co.op (S := sig) o

abbrev raise {α : Type} (e : Exc) : Script α := Co.throw (S := sig) e

abbrev call (c : Call) : Script c.Ans := Co.sync (S := sig) c

/-- **`ensure_ssh_key`.** Keys are compared without the blanks around them. -/
def ensureSshKey (publicKey : String) : Script Bool := do
  let keys ← perform .getSshKeys
  if keys.any fun k => strip k = strip publicKey then
    return true
  else
    perform (.createSshKey publicKey)

/-- **`select_cheapest_offer`.** It draws among the five cheapest, so that several
schedulers do not ask for one offer, and then looks at the price. -/
def selectCheapestOffer (offers : List Offer) (maxPricePerHr : Rat) : Script Offer :=
  match (offers.mergeSort fun a b => a.dphTotal ≤ b.dphTotal).take 5 with
  | [] => raise (.api none)
  | first :: others => do
    let i ← call (.choice others.length)
    let offer := (first :: others).get i
    if maxPricePerHr < offer.dphTotal then
      raise (.api none)
    else
      return offer

/-- `text in image`. -/
def mentions (image text : String) : Bool := decide (text.toList <:+: image.toList)

/-- `detect_launch_mode`. -/
def detectLaunchMode (image : String) : String :=
  if mentions image "vastai/kvm" then "kvm" else "docker"

/-- **`generate_onstart`.** -/
def generateOnstart (cfg : Config) (cloudConfig : Option Azure.CloudInitConfig) : String :=
  match cfg.onstartScript, cloudConfig with
  | some script, _ => script
  | none, none => ""
  | none, some cloudConfig =>
    let useApt := mentions cfg.image.toLower "debian" || mentions cfg.image.toLower "ubuntu"
    let pm := if useApt then "apt-get" else "dnf"
    let shebang := if detectLaunchMode cfg.image = "kvm" then ["#!/bin/bash"] else []
    let upgrade :=
      if cloudConfig.packageUpgrade then
        [if useApt then "apt-get update && apt-get upgrade -y" else "dnf upgrade -y"]
      else []
    let install :=
      if cloudConfig.packages.isEmpty then []
      else [pm ++ " install -y " ++ " ".intercalate cloudConfig.packages]
    let boot := cloudConfig.bootcmd.flatMap fun
      | .inl cmd => [cmd]
      | .inr cmds => cmds
    "\n".intercalate (shebang ++ upgrade ++ install ++ boot)

/-! ## Deletion

The deletion repeats its request and does not look afterwards whether the
instance is gone. The clean-up after a lost response has no id to begin with:
it looks for the first instance that bears the label, waits if there is none
yet, and deletes it. -/

/-- **`_delete_instance`.** What it returns says whether the deletion was accepted,
or the instance was not found. -/
def deleteInstance (instanceId : Int) : List Nat → Script Bool
  | [] => return false
  | attempt :: attempts => do
    match ← Co.attempt (perform (.destroyInstance instanceId)) with
    | .ok () => return true
    | .error err =>
      if err.isNotFound then
        return true
      else if err.transient && attempt < deleteAttempts then do
        perform (.sleep deleteInterval)
        deleteInstance instanceId attempts
      else if err.isException then
        return false
      else
        raise err

/-- `int(q)`, towards zero. -/
def truncate (q : Rat) : Int := q.num.tdiv q.den

/-- **`_reconcile_orphan_by_label`.** The label is all there is to find the instance
by, because the response with its id was lost. -/
def reconcileOrphanByLabel (label : String) : List Nat → Script Unit
  | [] => return ()
  | attempt :: attempts => do
    match ← Co.attempt (perform (.firstInstance label)) with
    | .error err =>
      if !err.isException then
        raise err
      else if attempt < reconcileAttempts then do
        perform (.sleep reconcileInterval)
        reconcileOrphanByLabel label attempts
      else
        return ()
    | .ok (some orphanId) =>
      Co.tryCatch (do
        let _ ← deleteInstance (truncate orphanId) (List.range' 1 deleteAttempts)) fun err =>
        if err.isException then return () else raise err
    | .ok none => do
      if attempt < reconcileAttempts then
        perform (.sleep reconcileInterval)
      reconcileOrphanByLabel label attempts

/-! ## Creation

A creation rents once. Before the rent there is nothing to undo, and after it
everything is in one `try` whose handler deletes the instance. In between is
the request itself, which may have rented an instance although it failed, and
this is what the label is for. -/

/-- `inst[key]`. A missing one is a `KeyError`, and not an error of the client. -/
def field (inst : Value) (key : String) : Script Value :=
  match inst.get key with
  | some value => return value
  | none => raise (.other "KeyError")

/-- The states an instance does not leave by itself. -/
def terminal : List String := ["stopped", "frozen", "exited", "unknown", "offline"]

/-- **`wait_until_ready`.** The clock is asked first, so with no time left the
instance is not looked at. -/
def waitUntilReady (instanceId : Int) (deadline : Nat) : Nat → Script Value
  | 0 => Co.bind (perform .diverge) Empty.elim
  | fuel + 1 => do
    let now ← call .time
    if deadline ≤ now then
      raise (.api none)
    else
      match ← Co.attempt (perform (.showInstance instanceId)) with
      | .error err =>
        if err.transient then do
          perform (.sleep pollInterval)
          waitUntilReady instanceId deadline fuel
        else
          raise err
      | .ok none => raise (.api none)
      | .ok (some inst) => do
        match ← field inst "actual_status" with
        | .str status =>
          if status = "running" then do
            let sshHost ← field inst "ssh_host"
            if !sshHost.truthy then do
              perform (.sleep pollInterval)
              waitUntilReady instanceId deadline fuel
            else
              match ← field inst "ssh_port" with
              | .null => do
                perform (.sleep pollInterval)
                waitUntilReady instanceId deadline fuel
              | _ => return inst
          else if status ∈ terminal then
            raise (.api none)
          else do
            perform (.sleep pollInterval)
            waitUntilReady instanceId deadline fuel
        | _ => do
          perform (.sleep pollInterval)
          waitUntilReady instanceId deadline fuel

/-- `int(ssh_port)`; a port is not negative. -/
def portOf : Value → Nat
  | .int n => n.toNat
  | .float q => (truncate q).toNat
  | .bool b => b.toNat
  | _ => 0

/-- A host is a string. -/
def hostOf : Value → String
  | .str s => s
  | _ => ""

/-- What is returned for an instance. -/
def created (cfg : Config) (instanceId : Int) (sshHost sshPort : Value) : CloudCreateNodeDTO :=
  { externalId := toString instanceId
    hostname := hostOf sshHost
    port := portOf sshPort
    username := "root"
    jumpHost := cfg.jumpHost
    jumpPort := cfg.jumpPort
    jumpUsername := (cfg.jumpUsername.filter (· ≠ "")).getD "root" }

/-- The offers that are searched for. -/
def search (cfg : Config) : Search where
  instanceType := "ondemand"
  order := [("dph_total", "asc")]
  limit := 20
  filters :=
    [("duration", "gte", .int 60), ("gpu_ram", "gte", .int cfg.minVramMb),
      ("num_gpus", "eq", .int cfg.numGpus), ("gpu_frac", "gte", .float 1),
      ("reliability", "gte", .float (99 / 100)), ("rentable", "eq", .bool true),
      ("rented", "eq", .bool false), ("dph_total", "lte", .float cfg.maxPricePerHr)]

/-- The parameters of the request. -/
def instanceParams (cfg : Config) (cloudConfig : Option Azure.CloudInitConfig)
    (createLabel : String) : InstanceParams where
  image := cfg.image
  disk := cfg.diskGb
  vm := detectLaunchMode cfg.image = "kvm"
  label := createLabel
  onstart := generateOnstart cfg cloudConfig
  env := cfg.dockerOptions.getD ""

/-- The request; if it fails, an instance that it has rented is looked for. Unless
that is interrupted, the first error is raised. -/
def requestInstance (cfg : Config) (cloudConfig : Option Azure.CloudInitConfig) (offer : Offer)
    (createLabel : String) : Script Int :=
  Co.tryCatch (perform (.createInstance offer.id (instanceParams cfg cloudConfig createLabel)))
    fun err => do
      reconcileOrphanByLabel createLabel (List.range' 1 reconcileAttempts)
      raise err

/-- What an instance is waited for. The clock counts `second` ticks in a second. -/
def addressOf (cfg : Config) (second fuel : Nat) (instanceId : Int) :
    Script (Int × Value × Value) := do
  let now ← call .time
  let inst ← waitUntilReady instanceId (now + cfg.connectGrace * second) fuel
  let sshHost ← field inst "ssh_host"
  let sshPort ← field inst "ssh_port"
  return (instanceId, sshHost, sshPort)

/-- The instance is rented, and deleted if it does not come up. Everything after the
rent is in the `try`. -/
def rent (cfg : Config) (cloudConfig : Option Azure.CloudInitConfig) (second fuel : Nat)
    (offer : Offer) (createLabel : String) : Script (Int × Value × Value) := do
  let instanceId ← requestInstance cfg cloudConfig offer createLabel
  Co.tryCatch (addressOf cfg second fuel instanceId) fun err => do
    let _ ← deleteInstance instanceId (List.range' 1 deleteAttempts)
    raise err

/-- An offer is searched for, and its instance is rented. -/
def searchAndRent (cfg : Config) (cloudConfig : Option Azure.CloudInitConfig)
    (second fuel : Nat) : Script (Int × Value × Value) := do
  let offers ← perform (.searchOffers (search cfg))
  let offer ← selectCheapestOffer offers cfg.maxPricePerHr
  let createLabel ← Yascheduler.getRndName (call .rndLetters) cfg.label
  rent cfg cloudConfig second fuel offer createLabel

/-- **`vastai_create_node`.** The session is closed before the node is returned, so
an error of closing it is an error of a creation that has its instance. -/
def createNode (cfg : Config) (cloudConfig : Option Azure.CloudInitConfig) (second fuel : Nat) :
    Script CloudCreateNodeDTO := do
  let publicKey ← Co.bind (call .publicKey) fun a => Co.ofExcept (S := sig) a
  let (instanceId, sshHost, sshPort) ←
    Co.asyncWith (S := sig) (pure ()) (fun _ _ => perform .close) fun _ => do
      if !(← ensureSshKey publicKey) then
        raise (.api none)
      searchAndRent cfg cloudConfig second fuel
  return created cfg instanceId sshHost sshPort

end Yascheduler.Http.VastAI
