import Yascheduler.Application.StartInvariant

/-!
# Connections that are lost

A connection to the database can be lost at any moment: the server is
restarted, or the network between the two fails. The server then ends the
transaction of the connection and drops its row locks, and it does so on its
own – the coroutine that has the connection may be waiting for a machine at
that time, and learns of the loss only when it sends its next statement.

The system of `System` has no such event, and what is proved there is about
runs in which connections are kept. `lossySystem` has it. Everything that can
happen in it can happen in the other one, apart from the loss itself, so an
invariant of the one has one more case to check for the other
(`kept_or_lost`).
-/

namespace Yascheduler

open Store Async

/-- The operations the server has to answer. A connection that is lost can
still be closed. -/
def Op.asksServer : Op → Bool
  | .begin _ | .sql _ _ | .commit _ | .rollback _ => true
  | _ => false

namespace World

/-- The server ends the transaction of a connection that is lost. -/
def lose (w : World) (c : Conn) : World :=
  { w with db := w.db.rollback c, lost := c :: w.lost }

/-- `perform`, where nothing but an error comes back on a lost connection. -/
def performLossy (w : World) (cfg : Nat → Settings) (t : Tid) (o : Op) (ch : Choice) :
    Option (Except Exc o.Res × World) :=
  if o.asksServer && o.conn.any (⟨t, ·⟩ ∈ w.lost) && ch.effective then none
  else w.perform cfg t o ch

/-- `env`, where connections are lost. -/
def envLossy (w : World) : Env → Option World
  | .lose c => some (w.lose c)
  | e => w.env e

theorem perform_of_lossy {w w' : World} {cfg : Nat → Settings} {t : Tid} {o : Op}
    {ch : Choice} {r : Except Exc o.Res} (h : w.performLossy cfg t o ch = some (r, w')) :
    w.perform cfg t o ch = some (r, w') := by
  unfold performLossy at h
  split at h
  · cases h
  · exact h

/-- An event of the environment is a loss, or one of the other system. -/
theorem envLossy_cases {w w' : World} {e : Env} (h : w.envLossy e = some w') :
    (∃ c, e = .lose c ∧ w' = w.lose c) ∨ w.env e = some w' := by
  cases e with
  | lose c => exact .inl ⟨c, rfl, (Option.some.inj h).symm⟩
  | tick d => exact .inr h
  | check p s engine pgrep code => exact .inr h
  | react p s => exact .inr h

end World

/-- **The system with connections that are lost.** The programs and the operations
are the same; there is one more event of the environment. -/
def lossySystem (cfg : Nat → Settings) : Host sig World Tid Nat Job World.Env :=
  { system cfg with
    perform := fun w t o ch => w.performLossy cfg t o ch
    env := fun w e => w.envLossy e }

/-- Runs of this system whose steps all meet a condition. -/
abbrev LossyRun (cfg : Nat → Settings) (C : StepCondition) (p q : State) : Prop :=
  Steps (lossySystem cfg) C p q

variable {cfg : Nat → Settings} {w w' : World} {log : Log}

/-- **Only the loss is new.** So a proof about the system without it is extended by
one case. -/
theorem kept_or_lost {L : Type} {P : Protocol sig L}
    {e : Entry sig Tid World.Env} (h : Happens (lossySystem cfg) P w log e w') :
    Happens (system cfg) P w log e w' ∨ ∃ c, e = .env (.lose c) ∧ w' = w.lose c := by
  cases h with
  | call x c hpre hrest => exact .inl (.call x c hpre hrest)
  | perform x o ch r w' hpre hself hrest hperf =>
    exact .inl (.perform x o ch r w' hpre hself hrest (World.perform_of_lossy hperf))
  | interrupt x o hwait => exact .inl (.interrupt x o hwait)
  | reap x ch w' hself hpost hreap => exact .inl (.reap x ch w' hself hpost hreap)
  | env e w' hrest henv =>
    rcases World.envLossy_cases henv with ⟨c, rfl, rfl⟩ | henv
    · exact .inr ⟨c, rfl, rfl⟩
    · exact .inl (.env e w' hrest henv)

/-- Nothing that is lost is committed, so **committed rows change by commits only**. -/
theorem rows_lossyStep {L : Type} {P : Protocol sig L} {e : Entry sig Tid World.Env}
    (h : Happens (lossySystem cfg) P w log e w') :
    w'.db.tasks.rows = w.db.tasks.rows ∨
      ∃ x c, w'.db.tasks = w.db.tasks.commit ⟨x, c⟩ := by
  rcases kept_or_lost h with hap | ⟨c, -, rfl⟩
  · rcases rows_step hap with hrows | ⟨x, c, ch, r, -, -, -, htasks⟩
    · exact .inl hrows
    · exact .inr ⟨x, c, htasks⟩
  · exact .inl (RowStore.rollback_rows ..)

/-- The loss of a connection that has no open claim. -/
theorem ClaimsHold.lose (h : ClaimsHold w log) {o : Conn}
    (hopen : ∀ c t n, (starts log o.thread).phase.claim = some (c, t, n) → c ≠ o.serial) :
    ClaimsHold (w.lose o) (.env (.lose o) :: log) := by
  refine h.unlocked rfl le_rfl (fun y => rfl) fun y c t n hcl => ⟨hcl, ?_⟩
  rintro rfl
  exact hopen c t n hcl rfl

end Yascheduler
