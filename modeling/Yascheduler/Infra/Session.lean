import Yascheduler.Domain

/-!
# Machine sessions and their occupancy monitors

A session is the connection of one process to one machine: a mutable snapshot
of the machine's occupancy, the connection itself, and at most one occupancy
monitor. The functions here have no `await` in them, so the code runs each of
them without interruption.

A monitor waits, checks whether the engine's process is still there, and
frees the machine when it is not. The answer of a check and the reaction to
it are two moments: in between the monitor may be replaced or cancelled, and
then it never reacts.

An occupied machine that nobody watches stays BUSY for ever, and one that is
watched by two monitors may be freed under a task. So installing a monitor and
giving up the old one is one function here, as it is in the code, and there is
only one place for a monitor in a session.
-/

namespace Yascheduler

/-- A session object. The node it belongs to never changes. A new connection to the
node makes a new one, and whoever holds the old one keeps it. -/
structure SessionId where
  node : NodeId
  serial : Nat
deriving DecidableEq

/-- A live occupancy monitor: the engine it checks for, and the answer of its last
check until it has reacted to it. Between the two the answer can be out of date. -/
structure Monitor where
  engine : Engine
  answer : Option Bool := none
deriving DecidableEq

/-- `SSHMachineSession`. `_closed` is set when it begins to close, and the
connection is closed later or by the other side. -/
structure Session where
  machine : ConnectedMachine
  /-- `_closed` -/
  closed : Bool := false
  /-- `_conn.is_closed()` -/
  connClosed : Bool := false
  /-- `_monitor_task` -/
  monitor : Option Monitor := none
  /-- `_cached_ncpus` -/
  cachedNcpus : Option Nat := none
deriving DecidableEq

/-- `OccupancyChecker.occupancy_check`: the answer, given what `pgrep` and
the check command would say; `none` stands for an SSH error or any other
exception, which counts as busy. -/
def occupancyCheck (config : Engine) (pgrep : Option Bool) (exitCode : Option Int) :
    Bool :=
  if (config.checkPname.getD "") ≠ "" then pgrep.getD true
  else if (config.checkCmd.getD "") ≠ "" then
    match exitCode with
    | some code => code = config.checkCmdCode
    | none => true
  else false

namespace Session

/-- `occupy`. A machine that is BUSY is refused. -/
def occupy (s : Session) : Except Exc Session :=
  match s.machine.occupy with
  | .ok m => .ok { s with machine := m }
  | .error e => .error e

/-- `release`. On a machine that is FREE it sets the time again. -/
def release (s : Session) (now : Nat) : Session :=
  { s with machine := s.machine.release now }

/-- `install_monitor`: nothing on a closed session; a monitor that is there is
cancelled and replaced. The engine of the new one may be another. -/
def installMonitor (s : Session) (engine : Engine) : Session :=
  if s.closed then s else { s with monitor := some { engine := engine } }

/-- `OccupancyChecker.start_occupancy_check`. The machine is BUSY at once, and it is
the monitor that frees it; on a closed session there is none. -/
def startOccupancyCheck (s : Session) (engine : Engine) : Session :=
  let s := if s.machine.state = .free then
      { s with machine := { s.machine with state := .busy } }
    else s
  s.installMonitor engine

/-- The first part of `_close`: mark the session closed and cancel its
monitor. The answer tells whether the session was open and, if so, whether a
monitor has to be awaited. -/
def markClosed (s : Session) : Option Bool × Session :=
  if s.closed then (none, s)
  else (some s.monitor.isSome, { s with closed := true, monitor := none })

/-- The second part of `_close`: close the connection; whether there was anything to
close. There is not when the other side has closed it. -/
def closeConn (s : Session) : Bool × Session :=
  (!s.connClosed, { s with connClosed := true })

/-- The check of the monitor is answered. An answer to a monitor that was replaced
is lost with it. -/
def monitorAnswer (s : Session) (engine : Engine) (busy : Bool) : Option Session :=
  match s.monitor with
  | some m =>
    if m.engine = engine ∧ m.answer = none then
      some { s with monitor := some { m with answer := some busy } }
    else none
  | none => none

/-- The monitor reacts to an answer: it frees the machine and ends, or goes back to
sleep. It does not ask who has occupied the machine meanwhile. -/
def monitorReact (s : Session) (now : Nat) : Option Session :=
  match s.monitor with
  | some m =>
    match m.answer with
    | some false => some ({ s with monitor := none }.release now)
    | some true => some { s with monitor := some { m with answer := none } }
    | none => none
  | none => none

/-- A FREE machine is occupied, -/
theorem occupy_free {s : Session} (h : s.machine.state = .free) :
    s.occupy = .ok { s with machine := { s.machine with state := .busy } } := by
  simp [occupy, ConnectedMachine.occupy, h]

/-- and a BUSY one is not. -/
theorem occupy_busy {s : Session} (h : s.machine.state = .busy) :
    s.occupy = .error (.machineBusy s.machine.nodeId) := by
  simp [occupy, ConnectedMachine.occupy, h]

/-- A machine that was released is FREE. -/
@[simp] theorem release_state (s : Session) (now : Nat) :
    (s.release now).machine.state = .free := rfl

/-- Installing a monitor closes nothing, -/
@[simp] theorem installMonitor_closed (s : Session) (engine : Engine) :
    (s.installMonitor engine).closed = s.closed := by
  unfold installMonitor
  split <;> rfl

/-- and leaves the machine as it is. -/
@[simp] theorem installMonitor_machine (s : Session) (engine : Engine) :
    (s.installMonitor engine).machine = s.machine := by
  unfold installMonitor
  split <;> rfl

/-- On an open session the monitor is the new one. -/
theorem installMonitor_monitor {s : Session} (h : s.closed = false) (engine : Engine) :
    (s.installMonitor engine).monitor = some { engine := engine } := by
  simp [installMonitor, h]

/-- Starting a check closes nothing. -/
@[simp] theorem startOccupancyCheck_closed (s : Session) (engine : Engine) :
    (s.startOccupancyCheck engine).closed = s.closed := by
  show (installMonitor _ engine).closed = s.closed
  rw [installMonitor_closed]
  split <;> rfl

/-- The machine is BUSY then, whether it was or not. -/
@[simp] theorem startOccupancyCheck_state (s : Session) (engine : Engine) :
    (s.startOccupancyCheck engine).machine.state = .busy := by
  show (installMonitor _ engine).machine.state = .busy
  rw [installMonitor_machine]
  cases hs : s.machine.state with
  | free => rfl
  | busy => exact hs

/-- On an open session the check is started with a monitor of its own. -/
theorem startOccupancyCheck_monitor {s : Session} (h : s.closed = false)
    (engine : Engine) :
    (s.startOccupancyCheck engine).monitor = some { engine := engine } := by
  refine installMonitor_monitor ?_ engine
  split <;> exact h

/-- It is closed, now or before. -/
@[simp] theorem markClosed_closed (s : Session) : s.markClosed.2.closed = true := by
  unfold markClosed
  split
  · assumption
  · rfl

/-- Only a monitor that waits for an answer to this engine's check is answered. -/
theorem monitorAnswer_eq {s s' : Session} {engine : Engine} {busy : Bool}
    (h : s.monitorAnswer engine busy = some s') :
    ∃ m, s.monitor = some m ∧ m.engine = engine ∧ m.answer = none ∧
      s' = { s with monitor := some { m with answer := some busy } } := by
  unfold monitorAnswer at h
  cases hm : s.monitor with
  | none => rw [hm] at h; cases h
  | some m =>
    rw [hm] at h
    dsimp only at h
    split at h
    · rename_i hc
      exact ⟨m, rfl, hc.1, hc.2, (Option.some.inj h).symm⟩
    · cases h

/-- A monitor reacts by freeing the machine, or by checking again. -/
theorem monitorReact_eq {s s' : Session} {now : Nat} (h : s.monitorReact now = some s') :
    ∃ m, s.monitor = some m ∧
      (m.answer = some false ∧ s' = { s with monitor := none }.release now ∨
        m.answer = some true ∧ s' = { s with monitor := some { m with answer := none } }) := by
  unfold monitorReact at h
  cases hm : s.monitor with
  | none => rw [hm] at h; cases h
  | some m =>
    rw [hm] at h
    dsimp only at h
    split at h
    · rename_i ha
      exact ⟨m, rfl, .inl ⟨ha, (Option.some.inj h).symm⟩⟩
    · rename_i ha
      exact ⟨m, rfl, .inr ⟨ha, (Option.some.inj h).symm⟩⟩
    · cases h

end Session

end Yascheduler
