import Yascheduler.Application.Holdings
import Yascheduler.Safety.Execution

/-!
# What was submitted is kept

A daemon reads a task many times, keeps it in queues, and writes it back as a
whole, while other processes write the same row. That nothing a user has
submitted is lost on the way, and nothing of another task gets into it, is an
agreement between the programs and the world: the programs pass on only what
they were given, and the world gives only what it was passed.

Connections may be lost at any time. What is lost with them are writes, and a row
without them is still the one of its task.

It is assumed that all tasks are there when the run begins. A task that is
submitted during it would need no other argument, but the rows that are compared
with would have to be those of its own INSERT.
-/

namespace Yascheduler

open Store Async Contract

/-- **What users have submitted before is kept.** In every state of every run of
any number of daemons and `yasetnode`s, while no task is submitted: whatever a
transaction sees of a task still has the label, engine, webhook, parameters and
metadata it was submitted with, its creation time, and its folder until it is
finished; an event that is announced goes to the webhook of its own task, with
the parameters submitted for it; and outputs are downloaded only to the folder
named for the task, in the form in which `pathlib` writes it. -/
theorem submissionKept {cfg : Nat → Settings} {w : World} {q : State} (hw : w.Fresh)
    (hrun : LossyRun cfg AnyStep (State.initial w) q) :
    (∀ c t row, q.world.db.tasks.read c t = some row → row.Of w.db.tasks.rows t) ∧
      (∀ x e k, q.threads x = some (.waiting (.handler e) k) → e.Of w.db.tasks.rows) ∧
      ∀ x s t file dir k row folder,
        q.threads x = some (.waiting (.sftpGet s t file dir) k) →
        w.db.tasks.rows t = some row → row.localFolder = some folder → folder ≠ "" →
        dir = (PosixPath.ofString folder).toString := by
  obtain ⟨jobs, hjobs⟩ := hrun.exists_jobs
  have hhonoured := dataContract_honoured cfg w.db.tasks.rows (V := fun _ => True)
    jobs fun _ _ _ _ => trivial
  obtain ⟨hholds, hops⟩ := hhonoured.run (fun _ _ _ _ _ _ _ _ _ => trivial)
    (hjobs.only fun _ hj => hj) (hw.holds fun _ _ _ => trivial)
  refine ⟨fun c t row hread => hholds.tasks.read hread, fun x e k hth => hops x _ k hth, ?_⟩
  intro x s t file dir k row folder hth
  exact hops x (.sftpGet s t file dir) k hth row folder

namespace SubmittedData

/-- A task with a webhook, and a machine for it. -/
def world : World := { Execution.world with
  db := .ofLists
    [{ engine := "pcrystal", webhookUrl := some "https://hook", check := fieldCheck_toDo }]
    [{ hostname := "10.0.0.1", ncpus := some 4 }] }

/-- The worker announces an event to the webhook. -/
def announces (q : State) : Bool :=
  match q.threads ⟨0, 1⟩ with
  | some (.waiting (.handler e) _) => e.webhookUrl = some "https://hook"
  | _ => false

/-- The script can be played, and ends where the event is announced. -/
theorem script_announces : ((oneProcess.play (lossySystem Booking.settings)
    [.act (.spawn ⟨0, 1⟩ .allocateWorker), .drive ⟨0, 1⟩ 54]
    (State.initial world)).map announces) = some true := by
  decide +kernel

/-- Nothing is going on there. -/
theorem fresh_world : world.Fresh where
  tasks _ := rfl
  nodes _ := rfl
  saved _ _ := rfl
  queued _ q h := by
    cases q with
    | allocate => exact absurd rfl h
    | _ => rfl

end SubmittedData

/-- The event of a task that was started. It goes to the webhook that the task was
submitted with. -/
theorem submissionKept_announced : ∃ q e k,
    LossyRun Booking.settings AnyStep (State.initial SubmittedData.world) q ∧
      q.threads ⟨0, 1⟩ = some (.waiting (.handler e) k) ∧
      e.Of SubmittedData.world.db.tasks.rows := by
  obtain ⟨q, hrun, hq⟩ := Script.exists_of_play SubmittedData.script_announces
  have hrun' : LossyRun Booking.settings AnyStep (State.initial SubmittedData.world) q :=
    hrun.mono fun _ _ _ _ => trivial
  unfold SubmittedData.announces at hq
  split at hq
  · rename_i e k hth
    exact ⟨q, e, k, hrun', hth,
      (submissionKept SubmittedData.fresh_world hrun').2.1 ⟨0, 1⟩ e k hth⟩
  · cases hq

end Yascheduler
