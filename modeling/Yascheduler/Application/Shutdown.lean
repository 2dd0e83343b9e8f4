import Yascheduler.Application.Memory
import Yascheduler.Async.Machine
import Mathlib.Logic.Function.Basic
import Mathlib.Data.List.Perm.Basic

/-!
# Starting and stopping the daemon

`run_daemon` awaits `start()` and, in its `finally` block, `stop()`. Each signal
creates a task that calls `stop()` too and then cancels every task but
`run_daemon`'s and its own. Once `run_daemon` has returned, the event loop
cancels all tasks that are left.

A flag lets only the first caller run the body of `stop()`. It cancels and
awaits the background jobs one after the other, in an iteration over the set
`_bg_jobs`, and then awaits the three cleanup steps. What a job ends with is
swallowed, cancellation included; of a cleanup step only an `Exception` is. A
set that has changed its size raises at the next step of an iteration.
-/

namespace Yascheduler.Shutdown

/-! ## Background jobs

A job may end at any time, by itself or because it was told to. What matters of
it is whether it is there, whether it can still register other jobs, and
whether somebody waits for it. -/

/-- A background job: the statistics, a producer loop, or one of its workers. Of
these only the loops register further jobs. -/
inductive Job where
  | stats
  | loop (q : QueueName)
  | worker (q : QueueName) (i : Nat)
deriving DecidableEq

/-- How an awaited task or step ends. The three are told apart because the handlers
of `stop()` do. -/
inductive Outcome where
  | returned
  /-- with an `Exception` -/
  | failed
  /-- with `CancelledError` -/
  | cancelled
deriving DecidableEq

/-- Where a job stands. One that was cancelled before it has run does not run at
all. -/
inductive JobState where
  /-- not yet run, and whether it has been cancelled -/
  | created (cancelled : Bool)
  | running
  | done (outcome : Outcome)

/-- `task.cancel()`. A job that runs may end at any time anyway. -/
def JobState.cancel : JobState → JobState
  | .created _ => .created true
  | job => job

/-! ## The callers of `stop()`

A caller is at one place of its code at a time, and between two places nobody
else runs. The places are the awaits of `stop()` and of its surroundings. What
is recorded of the cleanup is how often each of its steps was attempted. -/

/-- `run_daemon`, or the task of a signal. -/
inductive Caller where
  | main
  | handler (n : Nat)
deriving DecidableEq

/-- Where a caller stands. The constructors are its awaits, in the order of the
source. -/
inductive Place where
  /-- no such task -/
  | absent
  /-- a signal's task that has not run yet -/
  | created
  /-- `run_daemon` before `start()` -/
  | starting
  /-- in `start()`, in `_await_first_machine` -/
  | firstMachine
  /-- in `start()`, in `_shutdown_barrier` -/
  | barrier (jobs : List Job)
  /-- in `stop()`, awaiting a job; the jobs to come, and the size of the set when
  the iteration began -/
  | awaitJob (job : Job) (rest : List Job) (size : Nat)
  /-- in `stop()`, awaiting `_clouds.stop()` -/
  | awaitClouds
  /-- in `stop()`, awaiting `_repository.disconnect_all()` -/
  | awaitGateway
  /-- in `stop()`, awaiting `_http_session.close()` -/
  | awaitHttp
  /-- after `stop()`, awaiting the tasks it has cancelled -/
  | sweeping
  | done
deriving DecidableEq

/-- The daemon, with the number of attempts of each cleanup step. -/
structure Daemon where
  workersNum : QueueName → Nat
  httpSession : Bool := true
  stopped : Bool := false
  bgJobs : List Job := []
  job : Job → Option JobState := fun _ => none
  place : Caller → Place
  /-- cancelled, and not resumed since -/
  cancelled : Caller → Bool := fun _ => false
  cloudsStops : Nat := 0
  disconnects : Nat := 0
  httpCloses : Nat := 0

namespace Daemon

/-- Before `start()`. -/
def init (workersNum : QueueName → Nat) : Daemon where
  workersNum := workersNum
  place c := if c = .main then .starting else .absent

/-- A caller goes on to another place. -/
def move (s : Daemon) (c : Caller) (place : Place) : Daemon :=
  { s with place := Function.update s.place c place }

/-- `self._bg_jobs.add(asyncio.create_task(...))`. -/
def addJobs (s : Daemon) (jobs : List Job) : Daemon :=
  { s with
    bgJobs := s.bgJobs ++ jobs
    job := fun j => if j ∈ jobs then some (.created false) else s.job j }

/-- A job goes on. -/
def setJob (s : Daemon) (j : Job) (job : JobState) : Daemon :=
  { s with job := Function.update s.job j (some job) }

/-- `task.done()`. -/
def jobDone (s : Daemon) (j : Job) : Bool :=
  match s.job j with
  | some (.done _) => true
  | _ => false

/-- Cancel every job and every task of a signal that is left, but one. -/
def cancelAll (s : Daemon) (but : Caller) : Daemon :=
  { s with
    job := fun j => (s.job j).map JobState.cancel
    cancelled := fun c =>
      if c = .main ∨ c = but ∨ s.place c = .absent ∨ s.place c = .done then s.cancelled c
      else true }

/-- `stop()` has returned. -/
def stopReturns (s : Daemon) (c : Caller) : Daemon :=
  match c with
  | .main => (s.move .main .done).cancelAll .main
  | .handler n => (s.move (.handler n) .sweeping).cancelAll (.handler n)

/-- `stop()` has raised. -/
def stopRaises (s : Daemon) (c : Caller) : Daemon :=
  match c with
  | .main => (s.move .main .done).cancelAll .main
  | .handler n => s.move (.handler n) .done

/-- On to the clouds. -/
def toClouds (s : Daemon) (c : Caller) : Daemon :=
  { s with cloudsStops := s.cloudsStops + 1 }.move c .awaitClouds

/-- The gateway is asked to disconnect. -/
def toGateway (s : Daemon) (c : Caller) : Daemon :=
  { s with disconnects := s.disconnects + 1 }.move c .awaitGateway

/-- The session of the HTTP client is closed, if there is one. -/
def toHttp (s : Daemon) (c : Caller) : Daemon :=
  if s.httpSession then { s with httpCloses := s.httpCloses + 1 }.move c .awaitHttp
  else s.stopReturns c

/-- The next step of the iteration over the jobs. -/
def iterate (s : Daemon) (c : Caller) (rest : List Job) (size : Nat) : Daemon :=
  if s.bgJobs.length ≠ size then s.stopRaises c
  else
    match rest with
    | [] => s.toClouds c
    | j :: rest =>
      { s with job := Function.update s.job j ((s.job j).map JobState.cancel) }.move c
        (.awaitJob j rest size)

/-- `stop()`, with the order in which the set of the jobs is iterated. -/
def stop (s : Daemon) (c : Caller) (order : List Job) : Daemon :=
  if s.stopped then s.stopReturns c
  else { s with stopped := true }.iterate c order s.bgJobs.length

/-- The caller is resumed. -/
def resumed (s : Daemon) (c : Caller) : Daemon :=
  { s with cancelled := Function.update s.cancelled c false }

/-- What an awaited cleanup step ends with: the next one follows unless it is
`CancelledError`. -/
def afterStep (s : Daemon) (c : Caller) (outcome : Outcome) (next : Daemon) :
    Option Daemon :=
  match outcome with
  | .returned | .failed => some next
  | .cancelled => if s.cancelled c then some ((s.resumed c).stopRaises c) else none

/-- A caller that awaits something is resumed. -/
def resume (s : Daemon) (c : Caller) (outcome : Outcome) : Option Daemon :=
  match s.place c with
  | .awaitJob j rest size =>
    if s.jobDone j then some ((s.resumed c).iterate c rest size) else none
  | .awaitClouds => s.afterStep c outcome ((s.resumed c).toGateway c)
  | .awaitGateway => s.afterStep c outcome ((s.resumed c).toHttp c)
  | .awaitHttp =>
    s.afterStep c outcome ({ s.resumed c with httpSession := false }.stopReturns c)
  | .sweeping => some ((s.resumed c).move c .done)
  | _ => none

/-- The first step of a job: a loop registers its workers. -/
def jobStarts (s : Daemon) (j : Job) : Option Daemon :=
  match s.job j with
  | some (.created true) => some (s.setJob j (.done .cancelled))
  | some (.created false) =>
    match j with
    | .loop q =>
      some ((s.setJob j .running).addJobs ((List.range (s.workersNum q)).map (.worker q)))
    | _ => some (s.setJob j .running)
  | _ => none

/-- What happens next. Which of the possible events it is, nobody decides. -/
inductive Event where
  /-- `start()` up to `_await_first_machine` -/
  | launch
  /-- `start()` from there to `_shutdown_barrier` -/
  | launchRest
  /-- `start()` returns -/
  | startReturns (order : List Job)
  /-- `start()` raises where it awaits -/
  | startRaises (order : List Job)
  | jobStarts (j : Job)
  | jobEnds (j : Job) (outcome : Outcome)
  | signal (n : Nat)
  | handlerStarts (n : Nat) (order : List Job)
  | resume (c : Caller) (outcome : Outcome)

/-- One step, if it can be taken. -/
def step (s : Daemon) : Event → Option Daemon
  | .launch =>
    if s.place .main = .starting then
      some ((s.addJobs [.stats, .loop .connMachine]).move .main .firstMachine)
    else none
  | .launchRest =>
    if s.place .main = .firstMachine then
      let s := s.addJobs [.loop .allocate, .loop .consume, .loop .deallocate]
      some (s.move .main (.barrier s.bgJobs))
    else none
  | .startReturns order =>
    match s.place .main with
    | .barrier jobs =>
      if jobs.all s.jobDone ∧ order.Perm s.bgJobs then some (s.stop .main order) else none
    | _ => none
  | .startRaises order =>
    match s.place .main with
    | .firstMachine | .barrier _ =>
      if order.Perm s.bgJobs then some (s.stop .main order) else none
    | _ => none
  | .jobStarts j => s.jobStarts j
  | .jobEnds j outcome =>
    match s.job j with
    | some .running => some (s.setJob j (.done outcome))
    | _ => none
  | .signal n =>
    if s.place (.handler n) = .absent then some (s.move (.handler n) .created) else none
  | .handlerStarts n order =>
    if s.place (.handler n) = .created then
      if s.cancelled (.handler n) then some ((s.resumed (.handler n)).move (.handler n) .done)
      else if order.Perm s.bgJobs then some (s.stop (.handler n) order)
      else none
    else none
  | .resume c outcome => s.resume c outcome

end Daemon

end Yascheduler.Shutdown
