import Mathlib.Order.Nat
import Yascheduler.Infra.SessionMonitor

/-!
# The protocol of the monitors

A monitor that is not tracked any more has been told to end, and one that has
been told to end does not call `on_free`. So it is enough that the slot of the
session is only ever given to a new monitor, or to none.

What does not hold is that closing a session closes its connection. A monitor
that has failed is tracked until its done-callback runs. When `_close` finds it,
it awaits it, and the error leaves before the connection is closed; the session
is marked closed by then, so no later call closes it either.

## A request and its effect

To cancel a task is to ask it to end, and it learns of it when it runs next. In
between it may have finished its check and be about to call `on_free`. Whether it
does depends on which of the two comes first, so the law is stated for the order
in which the loop runs them and not for the order in which they were caused.

The sessions here have no machine behind them. What a check answers is up to the
environment, and so is whether it fails.
-/

namespace Yascheduler.Monitor

/-! ## The law

The law is about a run and not about a state, since most of what it forbids is
a call: `on_free` must not be called for a monitor that was replaced or
cancelled, or whose session is closed. The condition is about the steps of
`_close` only, and says of the state before each that the monitor it awaits has
not failed. -/

/-- The step calls `on_free` for this monitor. Nothing else calls it. -/
def frees (t : Nat) : Act → Bool
  | .run t' (.free _) => t' = t
  | _ => false

/-- The step replaces, cancels, or closes the session of, every monitor there is.
From then on none of them may free the machine, which may be BUSY with another task.
-/
def Retires (s : State) : Act → Prop
  | .install => s.closed = false
  | .cancelMonitor | .close => True
  | _ => False

/-- **The protocol**, for a run and the state it ends in. It speaks of monitors by
their numbers, which are given in the order of their installation. -/
structure Law (acts : List Act) (s : State) : Prop where
  /-- a live monitor is tracked, or has been cancelled -/
  tracked : ∀ t task, s.tasks[t]? = some task → task.isDone = false →
    s.monitorTask = some t ∨ task.cancelRequested = true
  /-- `on_free` is called at most once for each monitor -/
  once : ∀ t, acts.countP (frees t) ≤ 1
  /-- and not after the monitor was replaced or cancelled, or its session closed -/
  never : ∀ before a after s₁, acts = before ++ a :: after → exec {} before = some s₁ →
    Retires s₁ a → ∀ t < s₁.tasks.length, ∀ b ∈ after, frees t b = false
  /-- no monitor is installed once the session is closed -/
  installs : ∀ before after s₁, acts = before ++ after → exec {} before = some s₁ →
    s₁.closed = true → s.tasks.length = s₁.tasks.length
  /-- a `_close` that has ended has closed the connection -/
  closes : ∀ o, s.closing = .ended o → s.connOpen = false
  /-- and another one does nothing -/
  again : s.closed = true → step s .close = some s

/-- The monitor that `_close` awaits has not failed: neither when it is called, and
the monitor is done but still tracked, nor when it goes on. There the exception of
the monitor would leave `_close` before the connection is closed. -/
def Admissible (s : State) : Act → Prop
  | .close => s.closed = false → ∀ t, s.monitorTask = some t → s.phase t ≠ some (.done .raised)
  | .resume false => ∀ t, s.closing = .awaiting t → s.phase t ≠ some (.done .raised)
  | _ => True

/-- All steps of a run are admissible. -/
def Meets : State → List Act → Prop
  | _, [] => True
  | s, a :: acts => Admissible s a ∧ ∀ s', step s a = some s' → Meets s' acts

/-! ## Tasks

A monitor calls `on_free` in the step in which its check is answered, if it was
not told to end before. So a monitor is harmless in two cases, when it is done
and when it has been told to end, and it stays so. -/

namespace Task

/-- The task will not call `on_free`: it is done, or has been told to end. A task
that is told to end is not done yet; it ends at its next await. -/
def settled (t : Task) : Bool := t.isDone || t.cancelRequested

/-- Who is cancelled is settled. -/
theorem settled_cancel (t : Task) : t.cancel.settled = true := by
  unfold settled cancel
  split
  · next h => rw [h, Bool.true_or]
  · exact Bool.or_true _

/-- A task that is done does not run. -/
theorem not_isDone_of_run {t t' : Task} {i : Input} (h : t.run i = some t') :
    t.isDone = false := by
  unfold run at h
  unfold isDone
  cases hphase : t.phase with
  | done o => simp [hphase] at h
  | _ => rfl

theorem cancelRequested_of_run {t t' : Task} {i : Input} (h : t.run i = some t') :
    t'.cancelRequested = t.cancelRequested := by
  unfold run at h
  split at h <;> cases h <;> rfl

theorem settled_of_run {t t' : Task} {i : Input} (h : t.run i = some t')
    (hsettled : t.settled = true) : t'.settled = true := by
  unfold settled at hsettled ⊢
  rw [not_isDone_of_run h, Bool.false_or] at hsettled
  rw [cancelRequested_of_run h, hsettled, Bool.or_true]

/-- Only a task that has not been told to end calls `on_free`, and it ends with
that. Between the check and the call there is no await, so nobody can tell it to in
between. -/
theorem of_run_free {t t' : Task} {raises : Bool} (h : t.run (.free raises) = some t') :
    t.settled = false ∧ t'.isDone = true := by
  have hdone := not_isDone_of_run h
  obtain ⟨hcancel, rfl⟩ : t.cancelRequested = false ∧
      { t with phase := .done (if raises then .raised else .returned) } = t' := by
    unfold run at h
    cases hphase : t.phase <;> cases hcancel : t.cancelRequested <;> simp_all
  exact ⟨by rw [settled, hdone, hcancel]; rfl, rfl⟩

end Task

/-! ## The operations -/

namespace State

/-- The monitor will not call `on_free`. -/
def Settled (s : State) (t : Nat) : Prop := ∀ task, s.tasks[t]? = some task → task.settled = true

@[simp] theorem length_cancel (s : State) (t : Nat) :
    (s.cancel t).tasks.length = s.tasks.length := List.length_modify ..

theorem settled_cancel_self (s : State) (t : Nat) : (s.cancel t).Settled t := by
  intro task htask
  rw [cancel, List.getElem?_modify_eq] at htask
  obtain ⟨task₀, -, rfl⟩ := Option.map_eq_some_iff.mp htask
  exact task₀.settled_cancel

theorem Settled.cancel {s : State} {t : Nat} (h : s.Settled t) (t' : Nat) :
    (s.cancel t').Settled t := by
  by_cases ht : t' = t
  · exact ht ▸ settled_cancel_self s t'
  · intro task htask
    rw [State.cancel, List.getElem?_modify_ne _ _ ht] at htask
    exact h task htask

@[simp] theorem tasks_closeConn (s : State) : s.closeConn.tasks = s.tasks := by
  unfold closeConn
  split <;> rfl

@[simp] theorem monitorTask_closeConn (s : State) :
    s.closeConn.monitorTask = s.monitorTask := by
  unfold closeConn
  split <;> rfl

@[simp] theorem closed_closeConn (s : State) : s.closeConn.closed = s.closed := by
  unfold closeConn
  split <;> rfl

theorem connOpen_closeConn (s : State) : s.closeConn.connOpen = false := by
  unfold closeConn
  split
  · rfl
  · next h => exact Bool.eq_false_iff.mpr h

/-- Awaiting the monitor changes neither the tasks nor the slot. -/
theorem awaitMonitor_frame (s : State) (t : Nat) : (s.awaitMonitor t).tasks = s.tasks ∧
    (s.awaitMonitor t).monitorTask = s.monitorTask ∧ (s.awaitMonitor t).closed = s.closed := by
  unfold awaitMonitor
  split
  · exact ⟨rfl, rfl, rfl⟩
  · exact ⟨tasks_closeConn s, monitorTask_closeConn s, closed_closeConn s⟩
  · exact ⟨rfl, rfl, rfl⟩

end State

/-! ## The invariant

The slot of the session is the only thing that is looked at by the code, and
the invariant says that it is enough: a monitor that is not in it can do no
harm. What else it says is about `_close`, whose parts rely on each other
across its suspensions. -/

/-- What holds of every state of a run. The slot is what keeps monitors apart: all
but the one in it are settled. -/
structure Inv (s : State) : Prop where
  installed : ∀ t, s.monitorTask = some t → t < s.tasks.length
  settled : ∀ t, s.monitorTask ≠ some t → s.Settled t
  closed : s.closed = true → s.monitorTask = none
  idle : s.closed = false → s.closing = .idle
  conn : s.closing = .waitClosed ∨ (∃ o, s.closing = .ended o) → s.connOpen = false

/-- What the tasks and the slot say survives a step that changes neither. -/
theorem Inv.frame {s s' : State} (h : Inv s) (htasks : s'.tasks = s.tasks)
    (hslot : s'.monitorTask = s.monitorTask) (hclosed : s'.closed = s.closed)
    (hidle : s'.closed = false → s'.closing = .idle)
    (hconn : s'.closing = .waitClosed ∨ (∃ o, s'.closing = .ended o) → s'.connOpen = false) :
    Inv s' where
  installed t ht := htasks ▸ h.installed t (hslot ▸ ht)
  settled t ht task htask := h.settled t (hslot ▸ ht) task (htasks ▸ htask)
  closed hc := hslot ▸ h.closed (hclosed ▸ hc)
  idle := hidle
  conn := hconn

/-- A session begins without a monitor. -/
theorem Inv.init : Inv {} where
  installed _ ht := nomatch ht
  settled _ _ _ htask := nomatch htask
  closed hc := nomatch hc
  idle _ := rfl
  conn h := h.elim (fun h => nomatch h) fun ⟨_, h⟩ => nomatch h

/-- The tracked monitor is told to end, and is not tracked any more. So all of them
are settled. -/
theorem Inv.retire {s : State} (h : Inv s) {t : Nat} (ht : s.monitorTask = some t) :
    ∀ t', ({ s with monitorTask := none }.cancel t).Settled t' := by
  intro t'
  by_cases htt : t' = t
  · subst htt
    exact State.settled_cancel_self _ t'
  · refine State.Settled.cancel (fun task htask => ?_) t
    exact h.settled t' (fun h' => htt (Option.some.inj (h'.symm.trans ht))) task htask

/-! ## The steps -/

/-- Installing a monitor on an open session settles all others. -/
theorem installMonitor_open {s : State} (h : Inv s) (hopen : s.closed = false) :
    ∃ tasks : List Task, tasks.length = s.tasks.length ∧
      (∀ (t : Nat) (task : Task), tasks[t]? = some task → task.settled = true) ∧
      s.installMonitor = { s with
        tasks := tasks ++ [({} : Task)], monitorTask := some s.tasks.length } := by
  unfold State.installMonitor
  rw [if_neg (by rw [hopen]; exact Bool.false_ne_true)]
  cases hslot : s.monitorTask with
  | none =>
    refine ⟨s.tasks, rfl, fun t task htask => ?_, rfl⟩
    exact h.settled t (fun he => nomatch hslot.symm.trans he) task htask
  | some prior =>
    refine ⟨(s.cancel prior).tasks, s.length_cancel prior, h.retire hslot, ?_⟩
    show State.mk _ (some (s.cancel prior).tasks.length) _ _ _ = _
    rw [s.length_cancel prior]
    rfl

/-- A new monitor takes the slot, on an open session. On a closed one nothing is
installed. -/
theorem Inv.installMonitor {s : State} (h : Inv s) : Inv s.installMonitor := by
  cases hopen : s.closed with
  | true =>
    unfold State.installMonitor
    rw [if_pos hopen]
    exact h
  | false =>
    obtain ⟨tasks, hlength, hsettled, heq⟩ := installMonitor_open h hopen
    rw [heq]
    refine ⟨fun t ht => ?_, fun t ht task htask => ?_, fun hc => ?_, h.idle, h.conn⟩
    · cases ht
      simp [hlength]
    · rcases List.getElem?_eq_some_iff.mp htask with ⟨hlt, -⟩
      rw [List.length_append, List.length_singleton, hlength] at hlt
      have hne : t ≠ s.tasks.length := fun he => ht (congrArg some he.symm)
      rw [List.getElem?_append_left (by omega)] at htask
      exact hsettled t task htask
    · rw [hopen] at hc
      cases hc

/-- The slot is empty then. -/
theorem Inv.cancelMonitor {s : State} (h : Inv s) : Inv s.cancelMonitor := by
  unfold State.cancelMonitor
  split
  · exact h
  · next t hslot =>
    exact ⟨fun _ ht => (nomatch ht), fun t' _ => h.retire hslot t', fun _ => rfl, h.idle, h.conn⟩

/-- Closing the connection. -/
theorem Inv.closeConn {s : State} (h : Inv s) (hclosed : s.closed = true) : Inv s.closeConn :=
  h.frame (State.tasks_closeConn s) (State.monitorTask_closeConn s) (State.closed_closeConn s)
    (fun hopen => by rw [State.closed_closeConn, hclosed] at hopen; cases hopen)
    fun _ => State.connOpen_closeConn s

/-- Awaiting a monitor that has not failed. -/
theorem Inv.awaitMonitor {s : State} (h : Inv s) (hclosed : s.closed = true) {t : Nat}
    (hok : s.phase t ≠ some (.done .raised)) : Inv (s.awaitMonitor t) := by
  unfold State.awaitMonitor
  split
  · next hraised => exact absurd hraised hok
  · exact h.closeConn hclosed
  · refine h.frame rfl rfl rfl (fun hopen => ?_) fun hconn => ?_
    · exact nomatch hclosed.symm.trans hopen
    · rcases hconn with hconn | ⟨_, hconn⟩ <;> cases hconn

/-- Closing empties the slot, closes the connection, and waits; a monitor that has
failed is excluded. -/
theorem Inv.close {s : State} (h : Inv s) (hadmissible : Admissible s .close) :
    Inv s.close := by
  unfold State.close
  split
  · exact h
  · next hopen =>
    have hopen : s.closed = false := Bool.eq_false_iff.mpr hopen
    have hidle := h.idle hopen
    have hconn : s.closing = .waitClosed ∨ (∃ o, s.closing = .ended o) → s.connOpen = false := by
      rw [hidle]
      rintro (hc | ⟨_, hc⟩) <;> cases hc
    cases hslot : s.monitorTask with
    | none =>
      refine Inv.closeConn ⟨fun t ht => ?_, fun t _ => ?_, fun _ => rfl, fun hc => ?_, hconn⟩ rfl
      · cases ht
      · exact h.settled t fun he => nomatch hslot.symm.trans he
      · cases hc
    | some t =>
      have hretired : Inv (State.cancel { s with monitorTask := none, closed := true } t) :=
        ⟨fun _ ht => (nomatch ht), fun t' _ => h.retire hslot t', fun _ => rfl,
          fun hc => (nomatch hc), hconn⟩
      refine hretired.awaitMonitor rfl fun hraised => ?_
      -- a cancellation does not make a monitor fail
      refine hadmissible hopen t hslot ?_
      unfold State.phase at hraised ⊢
      obtain ⟨task', htask', hphase⟩ := Option.map_eq_some_iff.mp hraised
      have hcancel : (s.tasks.modify t Task.cancel)[t]? = some task' := htask'
      rw [List.getElem?_modify_eq] at hcancel
      obtain ⟨task, htask, rfl⟩ := Option.map_eq_some_iff.mp hcancel
      rw [htask, Option.map_some, ← hphase]
      unfold Task.cancel
      split <;> rfl

/-- The callback of a monitor empties the slot if it is still its own. -/
theorem Inv.onDone {s : State} (h : Inv s) {t : Nat} {task : Task} (htask : s.tasks[t]? = some task)
    (hdone : task.isDone = true) : Inv (s.onDone t) where
  installed t' ht' := by
    have hslot : s.monitorTask = some t' := by
      unfold State.onDone at ht'
      dsimp only at ht'
      split at ht'
      · cases ht'
      · exact ht'
    show t' < (s.tasks.modify t _).length
    rw [List.length_modify]
    exact h.installed t' hslot
  settled t' ht' task' htask' := by
    have hget : (s.tasks.modify t fun task => { task with called := true })[t']? = some task' :=
      htask'
    by_cases htt : t = t'
    · subst htt
      rw [List.getElem?_modify_eq, htask] at hget
      cases hget
      unfold Task.settled
      rw [show Task.isDone { task with called := true } = task.isDone from rfl, hdone, Bool.true_or]
    · rw [List.getElem?_modify_ne _ _ htt] at hget
      refine h.settled t' (fun hslot => ht' ?_) task' hget
      show (if s.monitorTask = some t then none else s.monitorTask) = some t'
      rw [hslot, if_neg fun he => htt (Option.some.inj he).symm]
  closed hc := by
    show (if s.monitorTask = some t then none else s.monitorTask) = none
    rw [h.closed hc]
    exact ite_self none
  idle := h.idle
  conn := h.conn

/-- A step of a monitor changes its own task only. -/
theorem step_run {s s' : State} {t : Nat} {i : Input} (h : step s (.run t i) = some s') :
    ∃ task task', s.tasks[t]? = some task ∧ task.run i = some task' ∧
      s' = { s with tasks := s.tasks.set t task' } := by
  obtain ⟨task, htask, h⟩ := Option.bind_eq_some_iff.mp h
  obtain ⟨task', hrun, h⟩ := Option.bind_eq_some_iff.mp h
  exact ⟨task, task', htask, hrun, (Option.some.inj h).symm⟩

/-- A callback runs for a task that is done. -/
theorem step_callback {s s' : State} {t : Nat} (h : step s (.callback t) = some s') :
    ∃ task, s.tasks[t]? = some task ∧ task.isDone = true ∧ s' = s.onDone t := by
  obtain ⟨task, htask, h⟩ := Option.bind_eq_some_iff.mp h
  split at h
  · next hdone => exact ⟨task, htask, hdone.1, (Option.some.inj h).symm⟩
  · cases h

/-- `_close` goes on where it awaits a monitor; if it is cancelled there it closes
the connection all the same. -/
theorem step_resume {s s' : State} {cancelled : Bool} (h : step s (.resume cancelled) = some s') :
    ∃ t, s.closing = .awaiting t ∧
      s' = if cancelled then s.closeConn else s.awaitMonitor t := by
  dsimp only [step] at h
  split at h
  · next t hclosing =>
    split at h
    · exact ⟨t, hclosing, (Option.some.inj h).symm⟩
    · cases h
  · cases h

/-- `_close` ends when the connection is closed. -/
theorem step_waited {s s' : State} {o : Outcome} (h : step s (.waited o) = some s') :
    s.closing = .waitClosed ∧ s' = { s with closing := .ended o } := by
  dsimp only [step] at h
  split at h
  · next hclosing => exact ⟨hclosing, (Option.some.inj h).symm⟩
  · cases h

/-- While `_close` is under way, the session is closed. -/
theorem Inv.closed_of_closing {s : State} (h : Inv s) (hclosing : s.closing ≠ .idle) :
    s.closed = true := by
  cases hc : s.closed with
  | true => rfl
  | false => exact absurd (h.idle hc) hclosing

/-- **Every admissible step keeps the invariant.** One case for each kind of step;
only those of `_close` need the condition. -/
theorem Inv.step {s s' : State} {a : Act} (h : Inv s) (hadmissible : Admissible s a)
    (hstep : step s a = some s') : Inv s' := by
  cases a with
  | install => exact Option.some.inj hstep ▸ h.installMonitor
  | cancelMonitor => exact Option.some.inj hstep ▸ h.cancelMonitor
  | close => exact Option.some.inj hstep ▸ h.close hadmissible
  | run t i =>
    obtain ⟨task, task', htask, hrun, rfl⟩ := step_run hstep
    refine ⟨fun t' ht' => ?_, fun t' ht' task₀ htask₀ => ?_, h.closed, h.idle, h.conn⟩
    · exact (List.length_set ..).symm ▸ h.installed t' ht'
    · have hget : (s.tasks.set t task')[t']? = some task₀ := htask₀
      rw [List.getElem?_set] at hget
      split at hget
      · next htt =>
        split at hget
        · cases hget
          exact Task.settled_of_run hrun (h.settled t' ht' task (htt ▸ htask))
        · cases hget
      · exact h.settled t' ht' task₀ hget
  | callback t =>
    obtain ⟨task, htask, hdone, rfl⟩ := step_callback hstep
    exact h.onDone htask hdone
  | resume cancelled =>
    obtain ⟨t, hclosing, rfl⟩ := step_resume hstep
    have hclosed := h.closed_of_closing fun he => nomatch hclosing.symm.trans he
    cases cancelled with
    | true => exact h.closeConn hclosed
    | false => exact h.awaitMonitor hclosed (hadmissible t hclosing)
  | waited o =>
    obtain ⟨hclosing, rfl⟩ := step_waited hstep
    have hclosed := h.closed_of_closing fun he => nomatch hclosing.symm.trans he
    exact h.frame rfl rfl rfl (fun hc => nomatch hclosed.symm.trans hc)
      fun _ => h.conn (.inl hclosing)
  | lost =>
    exact Option.some.inj hstep ▸ h.frame rfl rfl rfl h.idle fun _ => rfl

/-! ## What a step does to the slot and to a monitor

The invariant says that monitors outside the slot are harmless, and here it is
shown that they stay outside. With both, a monitor that was retired once never
calls `on_free` again, whatever happens in the rest of the run. -/

@[simp] theorem monitorTask_cancelMonitor (s : State) : s.cancelMonitor.monitorTask = none := by
  unfold State.cancelMonitor
  split
  · assumption
  · rfl

@[simp] theorem length_cancelMonitor (s : State) :
    s.cancelMonitor.tasks.length = s.tasks.length := by
  unfold State.cancelMonitor
  split
  · rfl
  · exact State.length_cancel _ _

@[simp] theorem closed_cancelMonitor (s : State) : s.cancelMonitor.closed = s.closed := by
  unfold State.cancelMonitor
  split <;> rfl

/-- Closing a session leaves no monitor tracked. -/
theorem close_frame {s : State} (h : Inv s) : s.close.monitorTask = none ∧
    s.close.tasks.length = s.tasks.length ∧ s.close.closed = true := by
  unfold State.close
  split
  · next hclosed => exact ⟨h.closed hclosed, rfl, hclosed⟩
  · cases hslot : s.monitorTask with
    | none => exact ⟨by simp, by simp, by simp⟩
    | some t =>
      obtain ⟨htasks, hmonitor, hclosed⟩ :=
        State.awaitMonitor_frame (State.cancel { s with monitorTask := none, closed := true } t) t
      exact ⟨hmonitor, (congrArg List.length htasks).trans (State.length_cancel _ t), hclosed⟩

/-- The slot is only given to a new monitor, and no monitor is new once the session
is closed. So a monitor that has lost the slot never gets it back. -/
structure Grows (s s' : State) : Prop where
  slot : ∀ t, s'.monitorTask = some t → s.monitorTask = some t ∨ t = s.tasks.length
  length : s.tasks.length ≤ s'.tasks.length
  closed : s.closed = true → s'.closed = true ∧ s'.tasks.length = s.tasks.length

theorem Grows.frame {s s' : State} (hslot : s'.monitorTask = s.monitorTask)
    (hlength : s'.tasks.length = s.tasks.length) (hclosed : s'.closed = s.closed) :
    Grows s s' where
  slot _ ht := .inl (hslot ▸ ht)
  length := hlength.ge
  closed hc := ⟨hclosed.trans hc, hlength⟩

/-- Every step is of this kind, admissible or not. -/
theorem Inv.grows {s s' : State} {a : Act} (h : Inv s) (hstep : Monitor.step s a = some s') :
    Grows s s' := by
  cases a with
  | install =>
    cases Option.some.inj hstep
    cases hopen : s.closed with
    | true =>
      unfold State.installMonitor
      rw [if_pos hopen]
      exact .frame rfl rfl rfl
    | false =>
      obtain ⟨tasks, hlength, -, heq⟩ := installMonitor_open h hopen
      rw [heq]
      refine ⟨fun t ht => .inr (Option.some.inj ht).symm, ?_, fun hc => nomatch hopen.symm.trans hc⟩
      show s.tasks.length ≤ (tasks ++ [({} : Task)]).length
      rw [List.length_append, hlength]
      exact Nat.le_add_right _ _
  | cancelMonitor =>
    cases Option.some.inj hstep
    exact ⟨fun t ht => (nomatch (monitorTask_cancelMonitor s).symm.trans ht),
      (length_cancelMonitor s).ge,
      fun hc => ⟨(closed_cancelMonitor s).trans hc, length_cancelMonitor s⟩⟩
  | close =>
    cases Option.some.inj hstep
    obtain ⟨hslot, hlength, hclosed⟩ := close_frame h
    exact ⟨fun t ht => (nomatch hslot.symm.trans ht), hlength.ge, fun _ => ⟨hclosed, hlength⟩⟩
  | run t i =>
    obtain ⟨task, task', -, -, rfl⟩ := step_run hstep
    exact .frame rfl (List.length_set ..) rfl
  | callback t =>
    obtain ⟨task, -, -, rfl⟩ := step_callback hstep
    refine ⟨fun t' ht' => .inl ?_, (List.length_modify ..).ge,
      fun hc => ⟨hc, List.length_modify ..⟩⟩
    have hslot : (if s.monitorTask = some t then none else s.monitorTask) = some t' := ht'
    split at hslot
    · cases hslot
    · exact hslot
  | resume cancelled =>
    obtain ⟨t, -, rfl⟩ := step_resume hstep
    cases cancelled with
    | true => exact .frame (by simp) (by simp) (by simp)
    | false =>
      obtain ⟨htasks, hslot, hclosed⟩ := s.awaitMonitor_frame t
      exact .frame hslot (congrArg List.length htasks) hclosed
  | waited o =>
    obtain ⟨-, rfl⟩ := step_waited hstep
    exact .frame rfl rfl rfl
  | lost =>
    cases Option.some.inj hstep
    exact .frame rfl rfl rfl

namespace State

/-- The monitor is done. -/
def Done (s : State) (t : Nat) : Prop := ∃ task, s.tasks[t]? = some task ∧ task.isDone = true

/-- A monitor that is done stays done when some monitor is changed so. -/
theorem Done.modify {s : State} {t : Nat} (h : s.Done t) {f : Task → Task}
    (hf : ∀ task, task.isDone = true → (f task).isDone = true) (t' : Nat) :
    ∃ task, (s.tasks.modify t' f)[t]? = some task ∧ task.isDone = true := by
  obtain ⟨task, htask, hdone⟩ := h
  by_cases htt : t' = t
  · subst htt
    exact ⟨f task, by rw [List.getElem?_modify_eq, htask]; rfl, hf task hdone⟩
  · exact ⟨task, by rw [List.getElem?_modify_ne _ _ htt, htask], hdone⟩

theorem Done.cancel {s : State} {t : Nat} (h : s.Done t) (t' : Nat) : (s.cancel t').Done t := by
  refine h.modify (fun task hdone => ?_) t'
  unfold Task.cancel
  rwa [if_pos hdone]

theorem Done.installMonitor {s : State} {t : Nat} (h : s.Done t) : s.installMonitor.Done t := by
  unfold State.installMonitor
  split
  · exact h
  · have happend : ∀ s' : State, s'.Done t →
        ({ s' with tasks := s'.tasks ++ [({} : Task)], monitorTask := some s'.tasks.length }
          : State).Done t := by
      rintro s' ⟨task, htask, hdone⟩
      obtain ⟨hlt, -⟩ := List.getElem?_eq_some_iff.mp htask
      exact ⟨task, (List.getElem?_append_left hlt).trans htask, hdone⟩
    cases s.monitorTask with
    | none => exact happend s h
    | some prior => exact happend _ (h.cancel prior)

theorem Done.cancelMonitor {s : State} {t : Nat} (h : s.Done t) : s.cancelMonitor.Done t := by
  unfold State.cancelMonitor
  split
  · exact h
  · next t' _ => exact Done.cancel (s := { s with monitorTask := none }) h t'

theorem Done.of_tasks {s s' : State} {t : Nat} (h : s.Done t) (htasks : s'.tasks = s.tasks) :
    s'.Done t := by
  unfold Done
  rwa [htasks]

theorem Done.close {s : State} {t : Nat} (h : s.Done t) : s.close.Done t := by
  unfold State.close
  split
  · exact h
  · cases s.monitorTask with
    | none => exact h.of_tasks (tasks_closeConn _)
    | some t' =>
      refine Done.of_tasks ?_ (awaitMonitor_frame _ t').1
      exact Done.cancel (s := { s with monitorTask := none, closed := true }) h t'

end State

/-- **A monitor that is done stays done.** What others do to it is to tell it to
end. -/
theorem State.Done.step {s s' : State} {a : Act} {t : Nat} (h : s.Done t)
    (hstep : Monitor.step s a = some s') : s'.Done t := by
  cases a with
  | install => exact Option.some.inj hstep ▸ h.installMonitor
  | cancelMonitor => exact Option.some.inj hstep ▸ h.cancelMonitor
  | close => exact Option.some.inj hstep ▸ h.close
  | run t' i =>
    obtain ⟨task', task'', htask', hrun, rfl⟩ := step_run hstep
    obtain ⟨task, htask, hdone⟩ := h
    have hne : t' ≠ t := by
      rintro rfl
      cases htask.symm.trans htask'
      exact nomatch hdone.symm.trans (Task.not_isDone_of_run hrun)
    exact ⟨task, (List.getElem?_set_ne hne).trans htask, hdone⟩
  | callback t' =>
    obtain ⟨task, -, -, rfl⟩ := step_callback hstep
    exact State.Done.modify (f := fun task => { task with called := true }) h
      (fun task hdone => hdone) t'
  | resume cancelled =>
    obtain ⟨t', -, rfl⟩ := step_resume hstep
    cases cancelled with
    | true => exact h.of_tasks (State.tasks_closeConn s)
    | false => exact h.of_tasks (s.awaitMonitor_frame t').1
  | waited o =>
    obtain ⟨-, rfl⟩ := step_waited hstep
    exact h
  | lost => exact Option.some.inj hstep ▸ h

/-- `on_free` is called for the tracked monitor, which is done after it. This gives
both that it is called once and that it is not called too late. -/
theorem Inv.free {s s' : State} {a : Act} {t : Nat} (h : Inv s) (hfree : frees t a = true)
    (hstep : Monitor.step s a = some s') :
    s.monitorTask = some t ∧ ¬s.Done t ∧ s'.Done t := by
  unfold frees at hfree
  split at hfree
  · next t' raises =>
    obtain rfl : t' = t := by simpa using hfree
    obtain ⟨task, task', htask, hrun, rfl⟩ := step_run hstep
    obtain ⟨hsettled, hdone⟩ := Task.of_run_free hrun
    obtain ⟨hlt, -⟩ := List.getElem?_eq_some_iff.mp htask
    refine ⟨?_, ?_, task', List.getElem?_set_self hlt, hdone⟩
    · by_contra hslot
      exact nomatch hsettled.symm.trans (h.settled t' hslot task htask)
    · rintro ⟨task₀, htask₀, hdone₀⟩
      cases htask.symm.trans htask₀
      exact nomatch hdone₀.symm.trans (Task.not_isDone_of_run hrun)
  · cases hfree

/-! ## The run

That `on_free` is called at most once is by counting: a step that calls it
makes its monitor done, and a monitor that is done never calls it. The
induction is on the rest of the run after any point in it, so it also says that
nothing comes after a monitor is retired. -/

/-- An old monitor is not tracked any more. It was installed at some time, and the
slot is not its own. -/
structure Retired (s : State) (t : Nat) : Prop where
  installed : t < s.tasks.length
  untracked : s.monitorTask ≠ some t

theorem Retired.grows {s s' : State} {t : Nat} (h : Retired s t) (hgrows : Grows s s') :
    Retired s' t where
  installed := h.installed.trans_le hgrows.length
  untracked hslot := (hgrows.slot t hslot).elim h.untracked fun he => h.installed.ne he

/-- **Replacing, cancelling and closing** retire every monitor there is. The one in
the slot is told to end by the step, and the others have been told before. -/
theorem Inv.retired {s s' : State} {a : Act} (h : Inv s) (hretires : Retires s a)
    (hstep : Monitor.step s a = some s') {t : Nat} (ht : t < s.tasks.length) : Retired s' t := by
  refine ⟨ht.trans_le (h.grows hstep).length, fun hslot => ?_⟩
  unfold Retires at hretires
  split at hretires
  · obtain ⟨tasks, -, -, heq⟩ := installMonitor_open h hretires
    rw [← Option.some.inj hstep, heq] at hslot
    exact ht.ne (Option.some.inj hslot).symm
  · rw [← Option.some.inj hstep, monitorTask_cancelMonitor] at hslot
    cases hslot
  · rw [← Option.some.inj hstep, (close_frame h).1] at hslot
    cases hslot
  · exact hretires

/-- A run in two parts. -/
theorem exec_append {s : State} {before after : List Act} :
    exec s (before ++ after) = (exec s before).bind fun s₁ => exec s₁ after := by
  induction before generalizing s with
  | nil => rfl
  | cons a before ih =>
    show (step s a).bind (fun s' => exec s' (before ++ after)) = _
    rw [show exec s (a :: before) = (step s a).bind fun s' => exec s' before from rfl,
      Option.bind_assoc]
    exact congrArg _ (funext fun s' => ih)

/-- The first step of a run, and the rest. -/
theorem exec_cons {s s' : State} {a : Act} {acts : List Act} (h : exec s (a :: acts) = some s') :
    ∃ s₁, step s a = some s₁ ∧ exec s₁ acts = some s' := Option.bind_eq_some_iff.mp h

section

variable {s s' : State} {acts : List Act}

/-- A whole run keeps the invariant, by induction on its steps. -/
theorem Inv.exec (h : Inv s) (hmeets : Meets s acts) (hexec : exec s acts = some s') : Inv s' := by
  induction acts generalizing s with
  | nil => exact Option.some.inj hexec ▸ h
  | cons a acts ih =>
    obtain ⟨s₁, hstep, hrest⟩ := exec_cons hexec
    exact ih (h.step hmeets.1 hstep) (hmeets.2 s₁ hstep) hrest

/-- What is admissible for a run is so for its end. -/
theorem Meets.append {before after : List Act} {s₁ : State} (h : Meets s (before ++ after))
    (hexec : Monitor.exec s before = some s₁) : Meets s before ∧ Meets s₁ after := by
  induction before generalizing s with
  | nil => exact ⟨trivial, Option.some.inj hexec ▸ h⟩
  | cons a before ih =>
    obtain ⟨s₂, hstep, hrest⟩ := exec_cons hexec
    refine ⟨⟨h.1, fun s' hs' => ?_⟩, (ih (h.2 s₂ hstep) hrest).2⟩
    cases hstep.symm.trans hs'
    exact (ih (h.2 s₂ hstep) hrest).1

/-- **`on_free` is called at most once**, and not at all if the monitor is done
before. By induction on the rest of the run. -/
theorem countP_frees_le (t : Nat) (h : Inv s) (hmeets : Meets s acts)
    (hexec : Monitor.exec s acts = some s') :
    acts.countP (frees t) ≤ 1 ∧ (s.Done t → acts.countP (frees t) = 0) := by
  induction acts generalizing s with
  | nil => exact ⟨Nat.zero_le 1, fun _ => rfl⟩
  | cons a acts ih =>
    obtain ⟨s₁, hstep, hrest⟩ := exec_cons hexec
    obtain ⟨hle, hzero⟩ := ih (h.step hmeets.1 hstep) (hmeets.2 s₁ hstep) hrest
    cases hfree : frees t a with
    | true =>
      obtain ⟨-, hbefore, hafter⟩ := h.free hfree hstep
      rw [List.countP_cons_of_pos hfree, hzero hafter]
      exact ⟨le_rfl, fun hdone => absurd hdone hbefore⟩
    | false =>
      rw [List.countP_cons_of_neg (by rw [hfree]; exact Bool.false_ne_true)]
      exact ⟨hle, fun hdone => hzero (hdone.step hstep)⟩

/-- A retired monitor does not call `on_free`. -/
theorem Retired.not_frees {t : Nat} (hretired : Retired s t) (h : Inv s) (hmeets : Meets s acts)
    (hexec : Monitor.exec s acts = some s') : ∀ b ∈ acts, frees t b = false := by
  induction acts generalizing s with
  | nil => exact fun b hb => nomatch hb
  | cons a acts ih =>
    obtain ⟨s₁, hstep, hrest⟩ := exec_cons hexec
    refine List.forall_mem_cons.mpr ⟨?_, ?_⟩
    · exact Bool.eq_false_iff.mpr fun hfree => hretired.untracked (h.free hfree hstep).1
    · exact ih (hretired.grows (h.grows hstep)) (h.step hmeets.1 hstep) (hmeets.2 s₁ hstep) hrest

/-- No monitor is installed on a closed session. -/
theorem length_of_closed (h : Inv s) (hclosed : s.closed = true) (hmeets : Meets s acts)
    (hexec : Monitor.exec s acts = some s') : s'.tasks.length = s.tasks.length := by
  induction acts generalizing s with
  | nil => exact Option.some.inj hexec ▸ rfl
  | cons a acts ih =>
    obtain ⟨s₁, hstep, hrest⟩ := exec_cons hexec
    obtain ⟨hclosed₁, hlength⟩ := (h.grows hstep).closed hclosed
    exact (ih (h.step hmeets.1 hstep) hclosed₁ (hmeets.2 s₁ hstep) hrest).trans hlength

end

/-- **Every run keeps to the protocol** if its steps are admissible: the monitor
that `_close` awaits has not failed. It holds for every interleaving of the
monitors, their callbacks and the callers. -/
theorem law_of_meets {acts : List Act} {s : State} (hexec : exec {} acts = some s)
    (hmeets : Meets {} acts) : Law acts s where
  tracked t task htask hlive := by
    by_contra hnot
    obtain ⟨hslot, hcancel⟩ := not_or.mp hnot
    have hsettled := (Inv.init.exec hmeets hexec).settled t hslot task htask
    unfold Task.settled at hsettled
    rw [hlive, Bool.false_or] at hsettled
    exact hcancel hsettled
  once t := (countP_frees_le t Inv.init hmeets hexec).1
  never before a after s₁ hacts hbefore hretires t ht := by
    subst hacts
    rw [exec_append, hbefore] at hexec
    obtain ⟨hmeets₁, hmeets₂⟩ := hmeets.append hbefore
    obtain ⟨s₂, hstep, hrest⟩ := exec_cons hexec
    have hinv := Inv.init.exec hmeets₁ hbefore
    exact (hinv.retired hretires hstep ht).not_frees (hinv.step hmeets₂.1 hstep)
      (hmeets₂.2 s₂ hstep) hrest
  installs before after s₁ hacts hbefore hclosed := by
    subst hacts
    rw [exec_append, hbefore] at hexec
    obtain ⟨hmeets₁, hmeets₂⟩ := hmeets.append hbefore
    exact length_of_closed (Inv.init.exec hmeets₁ hbefore) hclosed hmeets₂ hexec
  closes o ho := (Inv.init.exec hmeets hexec).conn (.inr ⟨o, ho⟩)
  again hclosed := by
    show some s.close = some s
    unfold State.close
    rw [if_pos hclosed]

/-! ## Two sessions that are closed

The two runs differ in the way in which their monitor ends. In the first it has
freed the machine and its callback is still to come, and the session is closed
properly. In the second its check has raised, and this is what the condition
excludes. -/

/-- The second monitor replaces the first, finds the machine free, and the
session is closed before its done-callback runs. -/
def freed : List Act :=
  [.install, .run 0 .wake, .install, .run 1 .wake, .run 0 .wake, .run 1 .wake, .run 1 (.free false),
    .close, .callback 1, .waited .returned, .close]

/-- A check raises, and the session is closed before the done-callback runs. -/
def failed : List Act :=
  [.install, .run 0 .wake, .run 0 .wake, .run 0 .raised, .close, .callback 0, .close]

theorem Meets.cons {s s₁ : State} {a : Act} {acts : List Act} (hadmissible : Admissible s a)
    (hstep : step s a = some s₁) (h : Meets s₁ acts) : Meets s (a :: acts) :=
  ⟨hadmissible, fun _ hs' => Option.some.inj (hstep.symm.trans hs') ▸ h⟩

theorem meets_freed : Meets {} freed :=
  .cons trivial rfl <| .cons trivial rfl <| .cons trivial rfl <| .cons trivial rfl <|
  .cons trivial rfl <| .cons trivial rfl <| .cons trivial rfl <|
  .cons (fun _ _ ht => by cases ht; decide) rfl <|
  .cons trivial rfl <| .cons trivial rfl <| .cons (fun hc => nomatch hc) rfl trivial

/-- The run ends with a closed session, and the machine was freed once. -/
theorem law_freed : ∃ s, exec {} freed = some s ∧ s.closing = .ended .returned ∧ Law freed s :=
  ⟨_, rfl, rfl, law_of_meets rfl meets_freed⟩

/-- The connection of the session stays open for good: the exception of the monitor
leaves `_close`, and who closes the session again finds it closed already. -/
theorem not_law_failed : ∃ s, exec {} failed = some s ∧ ¬Law failed s :=
  ⟨_, rfl, fun h => absurd (h.closes .raised rfl) Bool.noConfusion⟩

end Yascheduler.Monitor
