import Yascheduler.Application.Orchestrator
import Yascheduler.Application.ManageNode
import Yascheduler.Async.Script

/-!
# The system

Any number of processes – daemons and command line tools – run the jobs
below, any number of times and at any time, on one database. A daemon runs
the four producers and any number of workers on its own event loop and its
own memory; `yasetnode` is a process with a single job.

## What is not a job

Tasks are submitted by a process of its own, which runs no loop and whose
transaction is one INSERT. It is modelled where its data are looked at, in
`Application.SubmitTask`. The runs of this system are those in
which the tasks are there already: they may be in any state, and any number of
processes may work on them.

A process that crashes is one whose coroutines are never resumed. What it held in
the database is given back when its connections are, and that a connection may be
lost while its coroutine goes on is a different system (`ConnectionLoss`).
-/

namespace Yascheduler

open Async

/-- What a coroutine is started for. The workers and producers are those of a daemon,
and the others are command line tools. -/
inductive Job where
  | connectProducer
  | connectWorker
  | allocateProducer
  | allocateWorker
  | consumeProducer
  | consumeWorker
  | deallocateProducer
  | deallocateWorker
  | addNode (spec : HostSpec) (skipSetup : Bool)
  | removeHard (node : Node)
  | removeSoft (node : Node)

/-- The program of a job, in a process with the given settings. -/
def Job.program (cfg : Settings) : Job → Prog Unit
  | .connectProducer => producerCycle connectMachineProducer
  | .connectWorker => workerCycle .connMachine (connectMachineConsumer cfg)
  | .allocateProducer => producerCycle (allocatorProducer cfg)
  | .allocateWorker => workerCycle .allocate (allocatorConsumer cfg)
  | .consumeProducer => producerCycle taskConsumerProducer
  | .consumeWorker => workerCycle .consume (taskConsumerConsumer cfg)
  | .deallocateProducer => producerCycle (deallocatorProducer cfg)
  | .deallocateWorker => workerCycle .deallocate (deallocatorConsumer cfg)
  | .addNode spec skipSetup => Yascheduler.addNode cfg spec skipSetup
  | .removeHard node => removeNodeHard cfg node
  | .removeSoft node => removeNodeSoft cfg node

/-- **The system**, with the settings of each process. A daemon and a command line
tool are processes alike; they differ in the jobs they start. -/
def system (cfg : Nat → Settings) : Host sig World Tid Nat Job World.Env where
  loop := Tid.proc
  program t j := j.program (cfg t.proc)
  call w t c := w.call t c
  perform w t o ch := w.perform cfg t o ch
  offLoop := Op.offLoop
  reap w t ch := w.reap t ch
  env w e := w.env e
  envLoop := World.Env.loop

/-- A state of the system. -/
abbrev State := Pool sig World Tid Nat World.Env

/-- The log of a run. -/
abbrev Log := List (Entry sig Tid World.Env)

/-- An action of the system. -/
abbrev Act := Action sig Tid Job World.Env

/-- A condition on the steps of a run. -/
abbrev StepCondition := World → Log → Entry sig Tid World.Env → Prop

/-- The system before anything is started, in a given world. -/
abbrev State.initial (w : World) : State := Pool.start w

/-- Runs of the system whose steps all meet a condition. -/
abbrev Run (cfg : Nat → Settings) (C : StepCondition) (p q : State) : Prop :=
  Steps (system cfg) C p q

/-- No condition at all. -/
def AnyStep : StepCondition := fun _ _ _ => True

/-- All coroutines belong to one process. -/
def OneProcess (p : Nat) : StepCondition := fun _ _ e =>
  ∀ x ev, e = .thread x ev → x.proc = p

/-- What the outside world replies when nothing goes wrong. -/
def usualReply : Op → Choice
  | .cpuCores _ => .done (.count 4)
  | .sftpRealpath _ => .done (.text "/root")
  | .cloudInit _ => .done (.process { exitCode := 0 })
  | .connectMachine _ => .done (.machine ["debian"] 4)
  | .createNode _ => .done (.vm { hostname := "10.0.0.1", externalId := "vm-1" })
  | _ => .done .none

/-- A script for coroutines of the first process. -/
def oneProcess : Script sig World Tid World.Env where
  reply := usualReply
  check _ _ e := match e with
    | .thread x _ => x.proc = 0
    | .env _ => true

theorem oneProcess_condition {w : World} {log : Log} {e : Entry sig Tid World.Env}
    (h : oneProcess.condition w log e) : OneProcess 0 w log e := by
  rintro x ev rfl
  simpa [Script.condition, oneProcess] using h

end Yascheduler
