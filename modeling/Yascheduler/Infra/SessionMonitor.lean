import Mathlib.Data.List.Basic

/-!
# The monitor of a session, task by task

A session tracks at most one monitor, which is a task of its own: it sleeps,
checks whether the machine is still busy, and calls `on_free` when it is not.
`install_monitor`, `cancel_monitor` and the first part of `_close` have no
`await` in them; the tasks and the rest of `_close` go on between them, in any
order.

A cancellation is a request: the task is told of it when it runs next. A task
that is done is tracked until its done-callback has run, which is a step of its
own.
-/

namespace Yascheduler.Monitor

/-! ## The task of a monitor

A task that was told to end goes on until it runs the next time, and may have
ended by itself before that. Between its end and its callback it is done and
still tracked. Each of these moments is a state here, because `_close` may come
in any of them. -/

/-- How a task ends. A cancellation is not an error of the task. -/
inductive Outcome where
  | returned
  | cancelled
  | raised
deriving DecidableEq

/-- Where the task stands. Whether it was told to end is not part of it, because that
may come in any phase. -/
inductive Phase where
  /-- it has not run yet -/
  | created
  /-- it awaits `asyncio.sleep(interval)` -/
  | sleeping
  /-- it awaits `check_factory()` -/
  | checking
  | done (o : Outcome)
deriving DecidableEq

/-- A monitor. Its done-callback is called by the loop later, and until then it
counts as there. -/
structure Task where
  phase : Phase := .created
  cancelRequested : Bool := false
  /-- the done-callback has run -/
  called : Bool := false
deriving DecidableEq

/-- What a task runs with: it starts or its sleep ends, or the check ends. A
cancellation that was requested is thrown in at whatever it waits for. -/
inductive Input where
  | wake
  | busy
  /-- `on_free` is called, and may raise -/
  | free (raises : Bool)
  | raised
  | cancelled
deriving DecidableEq

namespace Task

/-- `Task.done`. -/
def isDone (t : Task) : Bool :=
  match t.phase with
  | .done _ => true
  | _ => false

/-- `Task.cancel`. It only requests: the task ends when it runs next. -/
def cancel (t : Task) : Task := if t.isDone then t else { t with cancelRequested := true }

/-- **`_checker`**, from one suspension to the next. What is thrown in depends on
where it waits: before its first step a cancellation ends it as cancelled, later it
is caught. -/
def run (t : Task) (i : Input) : Option Task :=
  match t.phase, t.cancelRequested, i with
  | .created, false, .wake => some { t with phase := .sleeping }
  -- the error is raised before the `try` is entered
  | .created, true, .wake => some { t with phase := .done .cancelled }
  | .sleeping, false, .wake => some { t with phase := .checking }
  | .sleeping, true, .wake => some { t with phase := .done .returned }
  | .checking, false, .busy => some { t with phase := .sleeping }
  | .checking, false, .free raises =>
    some { t with phase := .done (if raises then .raised else .returned) }
  | .checking, _, .raised => some { t with phase := .done .raised }
  | .checking, _, .cancelled => some { t with phase := .done .returned }
  | _, _, _ => none

end Task

/-! ## The session

`_close` is cut at its suspensions: up to the first one it is one step, and
what comes after each is another. While it is suspended, everything else may
happen, in particular another call of `_close`, which returns at once because
the flag is set already. -/

/-- Where the first `_close` stands. Later ones return at once. -/
inductive Closing where
  | idle
  | awaiting (t : Nat)
  /-- it awaits `wait_closed()` -/
  | waitClosed
  | ended (o : Outcome)
deriving DecidableEq

/-- `SSHMachineSession`, as far as its monitors go, with all monitors that were
ever installed. -/
structure State where
  tasks : List Task := []
  /-- `_monitor_task` -/
  monitorTask : Option Nat := none
  /-- `_closed` -/
  closed : Bool := false
  connOpen : Bool := true
  closing : Closing := .idle
deriving DecidableEq

namespace State

/-- Where a monitor stands. -/
def phase (s : State) (t : Nat) : Option Phase := s.tasks[t]?.map Task.phase

/-- `task.cancel()`. -/
def cancel (s : State) (t : Nat) : State := { s with tasks := s.tasks.modify t Task.cancel }

/-- **`install_monitor`.** The monitor that is replaced was told to end, and is not
waited for. -/
def installMonitor (s : State) : State :=
  if s.closed then s
  else
    let s := match s.monitorTask with
      | some prior => s.cancel prior
      | none => s
    { s with tasks := s.tasks ++ [({} : Task)], monitorTask := some s.tasks.length }

/-- **`cancel_monitor`.** The monitor is forgotten at once. It ends later, when it
runs next. -/
def cancelMonitor (s : State) : State :=
  match s.monitorTask with
  | none => s
  | some t => { s with monitorTask := none }.cancel t

/-- The end of `_close`: the connection is closed. -/
def closeConn (s : State) : State :=
  if s.connOpen then { s with connOpen := false, closing := .waitClosed }
  else { s with closing := .ended .returned }

/-- The monitor is awaited in `_close`. If it is done already, nothing is suspended:
`CancelledError` is suppressed, and any other error leaves. In the latter case the
connection stays open, and no later call closes it. -/
def awaitMonitor (s : State) (t : Nat) : State :=
  match s.phase t with
  | some (.done .raised) => { s with closing := .ended .raised }
  | some (.done _) => s.closeConn
  | _ => { s with closing := .awaiting t }

/-- **`_close`**, up to its first suspension. The session is marked closed before
anything can raise, so there is only one call that goes through it. -/
def close (s : State) : State :=
  if s.closed then s
  else
    let s := { s with closed := true }
    match s.monitorTask with
    | none => s.closeConn
    | some t => ({ s with monitorTask := none }.cancel t).awaitMonitor t

/-- `_on_done`, the done-callback of a monitor. It forgets the monitor only if it is
still the current one. -/
def onDone (s : State) (t : Nat) : State :=
  { s with
    tasks := s.tasks.modify t fun task => { task with called := true }
    monitorTask := if s.monitorTask = some t then none else s.monitorTask }

end State

/-- What can happen next. The order is free, except that each can only happen in its
place. -/
inductive Act where
  | install
  | cancelMonitor
  | close
  /-- a monitor runs -/
  | run (t : Nat) (i : Input)
  | callback (t : Nat)
  /-- `_close` goes on when its monitor is done. A cancellation of its own is
  passed on to the monitor before that, and suppressed after it -/
  | resume (cancelled : Bool)
  /-- `wait_closed()` ends -/
  | waited (o : Outcome)
  /-- the connection is lost -/
  | lost
deriving DecidableEq

/-- **A step**, if it can be taken. Steps that cannot be taken where the session
stands are no steps of a run. -/
def step (s : State) : Act → Option State
  | .install => some s.installMonitor
  | .cancelMonitor => some s.cancelMonitor
  | .close => some s.close
  | .run t i => do
    let task ← s.tasks[t]?
    let task ← task.run i
    return { s with tasks := s.tasks.set t task }
  | .callback t => do
    let task ← s.tasks[t]?
    if task.isDone ∧ task.called = false then some (s.onDone t) else none
  | .resume cancelled =>
    match s.closing with
    | .awaiting t =>
      if (s.tasks[t]?).any Task.isDone then
        some (if cancelled then s.closeConn else s.awaitMonitor t)
      else none
    | _ => none
  | .waited o =>
    match s.closing with
    | .waitClosed => some { s with closing := .ended o }
    | _ => none
  | .lost => some { s with connOpen := false }

/-- A run. -/
def exec : State → List Act → Option State
  | s, [] => some s
  | s, a :: acts => do
    let s ← step s a
    exec s acts

end Yascheduler.Monitor
