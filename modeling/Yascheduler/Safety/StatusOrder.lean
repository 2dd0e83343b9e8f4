import Yascheduler.Async.Contract
import Yascheduler.Safety.Execution

/-!
# The status of a task only moves forward

Many transactions write the row of a task: the claims of the workers of
several daemons, the rejection of an unknown engine, the end of a task that
was consumed, the end of one whose machine is gone. They read the row at
different times, they overtake each other, they are rolled back, and their
COMMIT may take effect without being acknowledged.

All the same, whatever is committed for a task is TO_DO first, RUNNING at most
once, and DONE from then on. A row that is RUNNING does not change as long as
it is: it stays on the node it was started on until the task is finished. The
reason is an order that every statement respects – a write is ahead of the
committed row from the moment it is made, and until it is committed the row
under it cannot change – and that a commit turns into a step of the committed
row.

## What it rests on

Of the programs only one thing is needed: that they save a task to claim it or to
finish it, and in no other way (`saveContract`). In particular no claim has to be
kept. A connection that is lost takes its writes with it, and what they were ahead
of stays; so the runs are those in which connections are lost.
-/

namespace Yascheduler

open Store Async Contract StartState

/-! ## The order

The order is one between rows, with the whole row in it and not only its
status. A running row that stays running is the same row, on the same node, and
only the end of the task may change the rest. -/

/-- A task moves on: it is started, or it is finished. The creation time stays. -/
inductive TaskRow.Moves (row row' : TaskRow) : Prop where
  | started (h : row.status = .toDo) (h' : row'.status = .running)
      (hc : row'.createdAt = row.createdAt)
  | finished (h' : row'.status = .done) (hc : row'.createdAt = row.createdAt)

/-- **What can become of a task row**: nothing, or its task moves on. A finished task
may finish again, since clearing its node writes its row. -/
def TaskRow.Becomes (row row' : TaskRow) : Prop := row' = row ∨ row.Moves row'

namespace TaskRow

variable {row row' row'' : TaskRow}

/-- The creation time stays. -/
theorem Moves.createdAt (h : row.Moves row') : row'.createdAt = row.createdAt := by
  cases h with
  | started _ _ hc => exact hc
  | finished _ hc => exact hc

/-- A task that has moved on is not TO_DO. -/
theorem Moves.not_toDo (h : row.Moves row') : row'.status ≠ .toDo := by
  intro htodo
  cases h with
  | started _ h' => rw [h'] at htodo; cases htodo
  | finished h' => rw [h'] at htodo; cases htodo

/-- A task that moves on twice has moved on. -/
theorem Moves.trans (h : row.Moves row') (h' : row'.Moves row'') : row.Moves row'' := by
  cases h' with
  | started htodo => exact absurd htodo h.not_toDo
  | finished hdone hc => exact .finished hdone (hc.trans h.createdAt)

/-- Nothing may happen. -/
theorem Becomes.refl (row : TaskRow) : row.Becomes row := .inl rfl

/-- What can become of a row can become of it in several steps. -/
theorem Becomes.trans (h : row.Becomes row') (h' : row'.Becomes row'') :
    row.Becomes row'' := by
  rcases h with rfl | h
  · exact h'
  · rcases h' with rfl | h'
    · exact .inr h
    · exact .inr (h.trans h')

/-- A finished task stays finished. -/
theorem Becomes.done (h : row.Becomes row') (hd : row.status = .done) :
    row'.status = .done := by
  rcases h with rfl | h
  · exact hd
  · cases h with
    | started htodo => rw [hd] at htodo; cases htodo
    | finished hdone => exact hdone

/-- The same holds where there may be no row. -/
theorem rel_trans {r r' r'' : Option TaskRow} (h : Option.Rel Becomes r r')
    (h' : Option.Rel Becomes r' r'') : Option.Rel Becomes r r'' := by
  cases h with
  | none => exact h'
  | some hb =>
    cases h' with
    | some hb' => exact .some (hb.trans hb')

end TaskRow

/-- No task row vanishes or appears, and every row becomes what it can. It relates
any two states of a run, and not only neighbours. -/
def Database.TasksMove (db db' : Database) : Prop :=
  ∀ t, Option.Rel TaskRow.Becomes (db.tasks.rows t) (db'.tasks.rows t)

namespace Database.TasksMove

/-- Nothing has happened. -/
theorem refl (db : Database) : db.TasksMove db := by
  intro t
  cases db.tasks.rows t with
  | none => exact .none
  | some row => exact .some (.refl row)

/-- It can be put together along a run. -/
theorem trans {db db' db'' : Database} (h : db.TasksMove db') (h' : db'.TasksMove db'') :
    db.TasksMove db'' :=
  fun t => TaskRow.rel_trans (h t) (h' t)

/-- What a transaction sees in a database whose writes are ahead: the committed row,
or one that is further on. -/
theorem read {s : RowStore TaskId TaskRow Conn} (h : s.Ahead TaskRow.Moves) (c : Conn)
    (t : TaskId) : Option.Rel TaskRow.Becomes (s.rows t) (s.read c t) := by
  cases hr : s.rows t with
  | none =>
    cases hread : s.read c t with
    | none => exact .none
    | some row' =>
      obtain ⟨row, hrow, -⟩ := h.of_read hread
      rw [hr] at hrow
      cases hrow
  | some row =>
    obtain ⟨row', hread, hb⟩ := h.read (o := c) hr
    rw [hread]
    exact .some hb

end Database.TasksMove

/-! ## Every step moves forward

The argument is in two halves. A save is ahead of the row that its transaction
reads, since a claim asks for TO_DO and everything else finishes the task. And
it stays ahead until it is committed, because the row under it is locked. -/

section Steps

variable {cfg : Nat → Settings} {w w' : World} {log : Log}
  {e : Entry sig Tid World.Env}

/-- The writes of a deletion of a node: the reference of a finished task is
cleared. -/
theorem clearReferences_moves {db : Database} (h : db.tasks.Ahead TaskRow.Moves)
    {c : Conn} {n : NodeId} {t : TaskId} {v : Option TaskRow}
    (hv : db.clearReferences c n t = some v) :
    ∃ row row', db.tasks.rows t = some row ∧ v = some row' ∧ row.Moves row' := by
  obtain ⟨row', hr, hread, hn, rfl⟩ := db.clearReferences_eq_some c hv
  obtain ⟨row, hrow, hb⟩ := h.of_read hread
  have hdone : row'.status = .done := by
    cases hs : row'.status with
    | toDo => rw [row'.isNone_of_toDo hs] at hn; cases hn
    | running => exact absurd hs hr
    | done => rfl
  refine ⟨row, _, hrow, rfl, .finished hdone ?_⟩
  rcases hb with rfl | hb
  · rfl
  · exact hb.createdAt

/-- **What the programs save**: a task that they claim, or one that they finish. It
asks nothing of what they are answered, so nothing has to be assumed of the world. -/
def saveContract : Contract sig where
  op o := o.effect ≠ some .rawSave

/-- No job has another save among its effects. -/
theorem program_saves (cfg : Settings) (j : Job) :
    saveContract.Meets (fun _ => True) (j.program cfg) := by
  refine meets_of_inside (inside_program cfg j) (fun _ _ => trivial) fun o ho heff => ?_
  have hraw : Effect.rawSave ∈ j.effects := ho _ heff
  cases j <;> simp [Job.effects] at hraw

/-- **A save moves the task on**: a claim sees a row that is TO_DO, and any other
save finishes the task. A claim asks for the status in the statement itself, so it
does not matter how long ago the task was loaded. -/
theorem save_moves (h : w.db.tasks.Ahead TaskRow.Moves) {c : Nat} {x : Tid} {task : AnyTask}
    {expected : Option TaskStatus} {row' : TaskRow}
    (hsave : saveEffect task expected ≠ .rawSave)
    (hread : w.db.tasks.read ⟨x, c⟩ task.taskId = some row')
    (hexp : expected.all (· = row'.status) = true) :
    ∃ row, w.db.tasks.rows task.taskId = some row ∧
      row.Moves (.ofTask task row'.createdAt) := by
  obtain ⟨row, hrow, hb⟩ := h.of_read hread
  have hc : row'.createdAt = row.createdAt := by
    rcases hb with rfl | hb
    · rfl
    · exact hb.createdAt
  refine ⟨row, hrow, ?_⟩
  by_cases heff : saveEffect task expected = .claim
  · obtain ⟨st, hst, rfl, -⟩ := step_claim (l := {}) (c := c) heff (.done .none) (.ok true)
    have htodo : row'.status = .toDo :=
      (by simpa using hexp : TaskStatus.toDo = row'.status).symm
    -- a row that its own transaction has written is not TO_DO
    obtain rfl : row' = row := hb.resolve_right fun hb => hb.not_toDo htodo
    exact .started htodo (by rw [TaskRow.ofTask_status, hst]; rfl) rfl
  · obtain ⟨st, hst⟩ := saveEffect_done heff hsave
    exact .finished (by rw [TaskRow.ofTask_status, hst]; rfl) hc

/-- **Every operation keeps the writes ahead** of the committed rows. A write is
ahead when it is made; and a committed row does not move while it is locked. -/
theorem ahead_perform (h : w.db.tasks.Ahead TaskRow.Moves) {x : Tid} {o : Op} {ch : Choice}
    {r : Except Exc o.Res} (ho : o.effect ≠ some .rawSave)
    (hperf : w.perform cfg x o ch = some (r, w')) : w'.db.tasks.Ahead TaskRow.Moves := by
  have hchange := World.perform_taskChange hperf
  generalize w'.db.tasks = tasks at hchange ⊢
  cases hchange with
  | saved row hch hread hexp hlock =>
    obtain ⟨row₀, hrow₀, hmoves⟩ := save_moves h (fun he => ho (congrArg some he)) hread hexp
    exact h.write hrow₀ hmoves
  | removed => exact h.writeAll fun t v hv => clearReferences_moves h hv
  | committed hch => exact h.commit
  | rolledBack hch => exact h.rollback
  | closed hch => exact h.rollback
  | _ => exact h

/-- **Nothing that happens breaks it**, whatever becomes of the connections. A
connection that is lost gives up its writes, and what is left is still ahead. -/
theorem saveContract_honoured (cfg : Nat → Settings) :
    Honoured (lossySystem cfg) saveContract (fun w => w.db.tasks.Ahead TaskRow.Moves)
      fun _ => True where
  program x j := program_saves (cfg x.proc) j
  call _ _ _ h _ := ⟨trivial, h⟩
  perform _ _ _ _ _ _ _ h ho hperf :=
    ⟨fun _ _ => trivial, ahead_perform h ho (World.perform_of_lossy hperf)⟩
  reap w t ch w' h hreap := by
    cases ch with
    | collect c =>
      cases hreap
      exact h.rollback
    | _ => cases hreap
  env w e w' h henv := by
    rcases World.envLossy_cases henv with ⟨c, rfl, rfl⟩ | henv
    · exact h.rollback
    · rw [World.env_db henv]
      exact h

/-- **Every step moves the committed rows forward**: a commit publishes rows
that are ahead of them, and nothing else changes them. -/
theorem tasksMove_step {L : Type} {P : Protocol sig L} (h : w.db.tasks.Ahead TaskRow.Moves)
    (hap : Happens (lossySystem cfg) P w log e w') : w.db.TasksMove w'.db := by
  rcases rows_lossyStep hap with hrows | ⟨x, c, htasks⟩
  · intro t
    rw [hrows]
    exact Database.TasksMove.refl w.db t
  · intro t
    rw [htasks]
    exact Database.TasksMove.read h ⟨x, c⟩ t

end Steps

/-- **The status of a task only moves forward.** Between any two states of any
run of any number of daemons and `yasetnode`s, while no task is submitted, no
task row vanishes or appears, and each row is the same or its task has moved on:
from TO_DO to RUNNING, or to DONE. And no transaction sees a task that is behind
its committed row. Connections may be lost at any time. -/
theorem statusMovesForward {cfg : Nat → Settings} {w : World} {p q : State}
    (hlocks : ∀ t, w.db.tasks.locks t = none)
    (hp : LossyRun cfg AnyStep (State.initial w) p) (hq : LossyRun cfg AnyStep p q) :
    p.world.db.TasksMove q.world.db ∧ ∀ c t,
      Option.Rel TaskRow.Becomes (q.world.db.tasks.rows t) (q.world.db.tasks.read c t) := by
  have hsound := (saveContract_honoured cfg).sound (C := AnyStep) fun _ _ _ _ => trivial
  obtain ⟨hobs, hinv⟩ := hsound.invariant hp (Pool.obeys_start w) (.of_unlocked hlocks)
  obtain ⟨-, hinv'⟩ := hsound.invariant hq hobs hinv
  refine ⟨?_, fun c t => Database.TasksMove.read hinv' c t⟩
  exact hsound.moves (R := fun w w' => w.db.TasksMove w'.db)
    (fun w => .refl w.db) (fun _ _ _ => .trans)
    (fun _ _ _ _ h hap _ => tasksMove_step h hap) hq hobs hinv

namespace StatusOrder

/-- The committed status of the first task. -/
def status (q : State) : Option TaskStatus := (q.world.db.tasks.rows 1).map (·.status)

theorem script_starts : ((oneProcess.play (lossySystem Booking.settings)
      [.act (.spawn ⟨0, 1⟩ .allocateWorker), .drive ⟨0, 1⟩ 51]
      (State.initial Execution.world)).bind fun p =>
    (oneProcess.play (lossySystem Booking.settings) [.drive ⟨0, 1⟩ 1] p).map fun q =>
      decide (status p = some .toDo ∧ status q = some .running)) = some true := by
  decide +kernel

end StatusOrder

/-- The task of a worker before and after the COMMIT of its start. -/
theorem statusMovesForward_start : ∃ p q,
    LossyRun Booking.settings AnyStep (State.initial Execution.world) p ∧
      LossyRun Booking.settings AnyStep p q ∧ StatusOrder.status p = some .toDo ∧
      StatusOrder.status q = some .running ∧ p.world.db.TasksMove q.world.db := by
  obtain ⟨p, hp, hrest⟩ := Option.bind_eq_some_iff.mp StatusOrder.script_starts
  obtain ⟨q, hq, hb⟩ := Option.map_eq_some_iff.mp hrest
  obtain ⟨htodo, hrunning⟩ := of_decide_eq_true hb
  have hrun : LossyRun Booking.settings AnyStep (State.initial Execution.world) p :=
    (Script.steps_of_play hp).mono fun _ _ _ _ => trivial
  have hrun' : LossyRun Booking.settings AnyStep p q :=
    (Script.steps_of_play hq).mono fun _ _ _ _ => trivial
  exact ⟨p, q, hrun, hrun', htodo, hrunning,
    (statusMovesForward (fun _ => rfl) hrun hrun').1⟩

end Yascheduler
