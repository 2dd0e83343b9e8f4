import Yascheduler.Application.Footprints
import Yascheduler.Application.Changes
import Yascheduler.Application.Rules

/-!
# The protocol of a start

Starting a task is the one part of the scheduler that holds several resources
at once: the row lock of the claim, the occupation of a machine, and, once it
is spawned, a process that nobody can take back. The protocol below records
how far a start has come. A coroutine claims only for one task; it occupies
and spawns only under an open claim; and between a spawn and the occupancy
check that follows the commit it never returns to its caller unless something
went wrong, which is remembered as well.

## Why so much is remembered

A start that fails is not undone in one place. The deployer releases the machine,
the unit of work ends the claim, and neither knows of the other, so a coroutine
can be anywhere between the two. The phases are these places. What the claim is
for and on which connection is part of a phase, since a coroutine has claims
behind it that are over, on connections it does not use any more.

The memory that something went wrong after a spawn, `broken`, can not be left
out. Whether a session may be BUSY without a monitor depends on it, and the source
has no step that would repair what it stands for.

## What the protocol does not say

It does not say that a claim is exclusive, or that a task is started once. Those
are facts about the database and all coroutines together, and belong to the
invariants that are proved with this protocol (`StartInvariant`, `Claims`).
-/

namespace Yascheduler

open Async Footprint

/-! ## Local states

A phase names the connection of the claim and the session that is occupied, so
that an event on another connection, or on another session, can be recognised
as none of the start's business. Claims that are over stay in the record, since
the protocol also says that all claims of a coroutine are for one task.

A phase follows what the coroutine is told. A spawn that reports an error, and
one that is interrupted by a cancellation, leave the start where it was, with
the machine occupied, because this is what the handlers of the source go by. -/

/-- How far a start has come. The phases are in the order of the source. -/
inductive StartPhase where
  | idle
  /-- the task is claimed for a node, in the transaction of a connection -/
  | claimed (c : Nat) (t : TaskId) (n : NodeId)
  /-- the machine is occupied -/
  | occupied (c : Nat) (t : TaskId) (s : SessionId)
  /-- the process is spawned -/
  | spawned (c : Nat) (t : TaskId) (s : SessionId)
  /-- the claim is committed -/
  | committed (t : TaskId) (s : SessionId)

/-- The local state of a coroutine that starts tasks. It says where the coroutine is
in its latest start, and what it has behind it. -/
structure StartState where
  phase : StartPhase := .idle
  /-- the claims so far, by connection -/
  claims : Nat → Option (TaskId × NodeId) := fun _ => none
  /-- something failed after a spawn -/
  broken : Bool := false

namespace StartPhase

/-- The open claim of a phase. -/
def claim : StartPhase → Option (Nat × TaskId × NodeId)
  | .claimed c t n => some (c, t, n)
  | .occupied c t s | .spawned c t s => some (c, t, s.node)
  | _ => none

/-- The machine a start has occupied. -/
def session : StartPhase → Option SessionId
  | .occupied _ _ s | .spawned _ _ s | .committed _ s => some s
  | _ => none

/-- The machine of a start that has occupied it and whose claim is open. -/
def live : StartPhase → Option SessionId
  | .occupied _ _ s | .spawned _ _ s => some s
  | _ => none

/-- The process is spawned and its occupancy check is not started yet. -/
def unchecked : StartPhase → Bool
  | .spawned _ _ _ | .committed _ _ => true
  | _ => false

/-- A claim that has occupied no machine is given up. -/
def unclaimed : StartPhase → StartPhase
  | .claimed _ _ _ => .idle
  | ph => ph

end StartPhase

namespace StartState

/-- The connection belongs to a claim. -/
def Owns (l : StartState) (c : Nat) : Prop :=
  l.claims c ≠ none ∨ ∃ t n, l.phase.claim = some (c, t, n)

/-- **Between two starts.** A start is over before it has occupied a machine,
or after it has released it; a start that failed after its spawn is over
too. -/
def Settled (l : StartState) : Prop :=
  match l.phase with
  | .idle | .claimed _ _ _ => True
  | .occupied _ _ _ => False
  | .spawned _ _ _ | .committed _ _ => l.broken = true

/-- All claims are for the same task. -/
def For (l : StartState) (t : TaskId) : Prop :=
  ∀ c t' n, l.claims c = some (t', n) → t' = t

/-- A statement for a claim was executed. -/
def claim (l : StartState) (c : Nat) (t : TaskId) (n : NodeId) (found : Bool) :
    StartState :=
  { l with
    claims := Function.update l.claims c (some (t, n))
    phase := if found then .claimed c t n else l.phase.unclaimed }

/-- The claim of the connection is the new one, -/
@[simp] theorem claim_self (l : StartState) (c : Nat) (t : TaskId) (n : NodeId)
    (found : Bool) : (l.claim c t n found).claims c = some (t, n) :=
  Function.update_self ..

/-- and that of any other stays. -/
@[simp] theorem claim_ne (l : StartState) {c c' : Nat} (t : TaskId) (n : NodeId)
    (found : Bool) (h : c' ≠ c) : (l.claim c t n found).claims c' = l.claims c' :=
  Function.update_of_ne h ..

/-- The transaction of a connection has ended without a commit. -/
def ended (l : StartState) (c : Nat) : StartState :=
  match l.phase.claim with
  | some (c', _, _) => if c' = c then { l with phase := .idle } else l
  | none => l

/-- COMMIT has ended, with an error or not. -/
def committed (l : StartState) (c : Nat) (effective failed : Bool) : StartState :=
  match l.phase with
  | .spawned c' t s =>
    if c' = c then
      { l with
        phase := if effective then .committed t s else .spawned c' t s
        broken := l.broken || failed }
    else l
  | _ => l

/-- The coroutine is cancelled. -/
def cancelled (l : StartState) : StartState :=
  { l with broken := l.broken || l.phase.unchecked }

/-- The machine is occupied. -/
def occupy (l : StartState) (s : SessionId) : StartState :=
  match l.phase with
  | .claimed c t _ => { l with phase := .occupied c t s }
  | _ => l

/-- The process is spawned. -/
def spawn (l : StartState) : StartState :=
  match l.phase with
  | .occupied c t s => { l with phase := .spawned c t s }
  | _ => l

/-- The coroutine is cancelled before the spawn has returned to it. -/
def unspawn (l : StartState) : StartState :=
  match l.phase with
  | .spawned c t s => { l with phase := .occupied c t s }
  | _ => l.cancelled

/-- The occupancy check is started. -/
def checked (l : StartState) : StartState :=
  match l.phase with
  | .committed _ _ => { l with phase := .idle }
  | _ => l

/-- The machine of the start is free again, or closed. -/
def released (l : StartState) : StartState :=
  match l.phase with
  | .occupied c t s => { l with phase := .claimed c t s.node }
  | _ => l

/-- The result says that a row was found. -/
def found : Except Exc Bool → Bool
  | .ok b => b
  | .error _ => false

/-- The result is an error. -/
def failed {α : Type} : Except Exc α → Bool
  | .ok _ => false
  | .error _ => true

/-- **What an event does to the local state.** Events on connections and sessions
that are not those of the start do nothing to it. -/
def step : Event sig → StartState → StartState
  | .performed (.sql c (.taskUpdate task (some .toDo))) _ r, l =>
    match task.state with
    | .running st => l.claim c task.taskId st.allocatedNodeId (found r)
    | _ => l
  | .call (.occupy s) (.ok _), l => l.occupy s
  | .call (.release _) _, l => l.released
  | .call (.isClosed _) true, l => l.released
  | .performed (.runBg _ _ _) _ (.ok _), l => l.spawn
  | .interrupted (.runBg _ _ _), l => l.unspawn
  | .performed (.commit c) ch r, l => l.committed c ch.effective (failed r)
  | .performed (.rollback c) ch _, l | .performed (.close c) ch _, l =>
    if ch.effective then l.ended c else l
  | .interrupted _, l => l.cancelled
  | .reaped (.collect c), l => l.ended c
  | .call (.startOccupancyCheck _ _) _, l => l.checked
  | _, l => l

/-- What a COMMIT does to the state of a start, -/
theorem step_commit (l : StartState) (c : Nat) (ch : Choice) (r : Except Exc Unit) :
    step (.performed (.commit c) ch r) l = l.committed c ch.effective (failed r) := rfl

/-- a ROLLBACK, -/
theorem step_rollback (l : StartState) (c : Nat) (ch : Choice) (r : Except Exc Unit) :
    step (.performed (.rollback c) ch r) l = if ch.effective then l.ended c else l := rfl

/-- and the end of the connection. -/
theorem step_close (l : StartState) (c : Nat) (ch : Choice) (r : Except Exc Unit) :
    step (.performed (.close c) ch r) l = if ch.effective then l.ended c else l := rfl

/-- Anything but `true` says that no row was found. -/
theorem found_of_ne {r : Except Exc Bool} (h : r ≠ .ok true) : found r = false := by
  match r, h with
  | .ok false, _ => rfl
  | .ok true, h => exact absurd rfl h
  | .error _, _ => rfl

/-! ## The protocol

The conditions are those that the invariants need, and no more. A transaction
must not be ended without a commit while its machine is occupied, nor after the
spawn unless something has failed, because only then may the claim be lost. A
release must be of the machine that this start has occupied, because releasing
another's would let a third task in. -/

/-- When a call may be made. -/
def callPre (l : StartState) : Call → Prop
  | .occupy s => ∃ c t, l.phase = .claimed c t s.node
  | .release s | .isClosed s => ∃ c t, l.phase = .occupied c t s
  | .startOccupancyCheck s _ => l.phase = .idle ∨ ∃ t, l.phase = .committed t s
  | _ => True

/-- When a transaction may be ended without a commit. -/
def MayEnd (l : StartState) (c : Nat) : Prop :=
  match l.phase with
  | .occupied c' _ _ => c' ≠ c
  | .spawned c' _ _ => c' = c → l.broken = true
  | _ => True

/-- When a task may be saved. -/
def MaySave (l : StartState) (c : Nat) (task : AnyTask) (expected : Option TaskStatus) :
    Prop :=
  l.claims c = none ∧
    match saveEffect task expected with
    | .claim => l.Settled ∧ l.For task.taskId
    | .rawSave => False
    | _ => True

/-- When an operation may be awaited. -/
def awaitPre (l : StartState) : Op → Prop
  | .sql c (.taskUpdate task expected) => l.MaySave c task expected
  | .sftpMakedirs s _ | .sftpWrite s _ _ => ∃ c t, l.phase = .occupied c t s
  | .runBg s t _ => ∃ c, l.phase = .occupied c t s
  | .commit c => l.Owns c → ∃ t s, l.phase = .spawned c t s
  | .rollback c | .close c => l.MayEnd c
  | _ => True

/-- What may come back. An error that is not an exception is only ever
delivered by a cancellation. -/
def opRes (l : StartState) : (o : Op) → Choice → Except Exc o.Res → Prop
  | .connect, _, r => (∀ e, r = .error e → e.isException = true) ∧
      ∀ c, r = .ok c → ¬ l.Owns c
  | .commit _, ch, r => (∀ e, r = .error e → e.isException = true) ∧
      (ch.effective = false → failed r = true)
  | _, _, r => ∀ e, r = .error e → e.isException = true

/-- A settled start stays settled when a transaction ends. -/
theorem ended_settled {l : StartState} (h : l.Settled) (c : Nat) :
    (l.ended c).Settled := by
  unfold ended
  split <;> first | exact h | (split <;> first | exact h | trivial)

end StartState

open StartState in
/-- **The protocol of a start.** It demands that a coroutine ends settled, so that
nobody is left who should have released a machine. -/
def startProtocol : Protocol sig StartState where
  init := {}
  step := StartState.step
  callPre c l := l.callPre c
  awaitPre o l := l.awaitPre o
  opRes o l ch r := l.opRes o ch r
  post l := l.Settled
  post_reaped ch l h := by
    cases ch with
    | collect c => exact ended_settled h c
    | done r => exact h
    | fail e => exact h
    | lateFail r e => exact h

/-! ## Programs that start nothing

Most of the scheduler takes no part in a start. The lemma that says so is
proved from the effects, and covers every use case that has only quiet ones.
What remains are the parts in which a claim is open, and they are gone through
below, statement by statement. -/

/-- The effects that are no part of a start. -/
def Effect.quiet : Effect → Prop
  | .claim | .rawSave | .occupy | .release | .upload | .spawn => False
  | _ => True

namespace StartState

variable {l : StartState} {K : Set Effect}

/-- The connection of a claim is the start's own. -/
theorem owns_of_claim {c : Nat} {t : TaskId} {n : NodeId}
    (h : l.phase.claim = some (c, t, n)) : l.Owns c := .inr ⟨t, n, h⟩

/-- The end of somebody else's transaction is no event for the start, -/
theorem ended_eq {c : Nat} (h : ¬ l.Owns c) : l.ended c = l := by
  unfold ended
  split
  · rename_i c' t n hcl
    refine if_neg ?_
    rintro rfl
    exact h (owns_of_claim hcl)
  · rfl

/-- nor is its COMMIT, -/
theorem committed_eq {c : Nat} (h : ¬ l.Owns c) (effective failed : Bool) :
    l.committed c effective failed = l := by
  unfold committed
  split
  · rename_i c' t s hph
    refine if_neg ?_
    rintro rfl
    exact h (owns_of_claim (t := t) (n := s.node) (by rw [hph]; rfl))
  · rfl

/-- so it may end at any time. -/
theorem mayEnd_of_not_owns {c : Nat} (h : ¬ l.Owns c) : l.MayEnd c := by
  unfold MayEnd
  split
  · rename_i c' t s hph
    rintro rfl
    exact h (owns_of_claim (t := t) (n := s.node) (by rw [hph]; rfl))
  · rename_i c' t s hph
    rintro rfl
    exact absurd (owns_of_claim (t := t) (n := s.node) (by rw [hph]; rfl)) h
  · trivial

/-- A save that is not a claim is none of the protocol's business. -/
theorem step_save {c : Nat} {task : AnyTask} {expected : Option TaskStatus}
    (h : saveEffect task expected ≠ .claim) (ch : Choice) (r : Except Exc Bool) :
    step (.performed (.sql c (.taskUpdate task expected)) ch r) l = l := by
  unfold saveEffect at h
  match expected with
  | none => rfl
  | some .running => rfl
  | some .done => rfl
  | some .toDo =>
    show (match task.state with
      | .running st => l.claim c task.taskId st.allocatedNodeId (found r)
      | _ => l) = l
    cases hst : task.state with
    | running st => rw [hst] at h; exact absurd rfl h
    | todo st => rfl
    | done st => rfl

/-- A settled start lets every transaction end. -/
theorem mayEnd_of_settled (h : l.Settled) (c : Nat) : l.MayEnd c := by
  unfold Settled at h
  unfold MayEnd
  split
  · rename_i hph; rw [hph] at h; exact h.elim
  · rename_i hph; rw [hph] at h; exact fun _ => h
  · trivial

/-- A cancellation changes nothing for a start that has failed already or has
nothing to lose. -/
theorem cancelled_eq (h : l.broken = true ∨ l.phase.unchecked = false) :
    l.cancelled = l := by
  have hb : (l.broken || l.phase.unchecked) = l.broken := by
    rcases h with h | h <;> simp [h]
  unfold cancelled
  rw [hb]

/-- In particular for one that is settled. -/
theorem cancelled_eq_of_settled (h : l.Settled) : l.cancelled = l := by
  refine cancelled_eq ?_
  unfold Settled at h
  split at h <;> rename_i hph
  · exact .inr (by rw [hph]; rfl)
  · exact .inr (by rw [hph]; rfl)
  · exact h.elim
  · exact .inl h
  · exact .inl h

/-- **A program with quiet effects only is no part of any start.** In whatever phase
the start is: its claim and its machine stay as they are. -/
theorem ignored (hK : ∀ e ∈ K, e.quiet) (hs : Effect.startCheck ∈ K → l.phase = .idle)
    (hc : l.cancelled = l) :
    (scope K).Ignored startProtocol {c | l.Owns c} l where
  rest := trivial
  call c hcall := by
    have hk : ∀ e, c.effect = some e → e.quiet := fun e he => hK e (hcall e he)
    cases c with
    | occupy s => exact (hk _ rfl).elim
    | release s => exact (hk _ rfl).elim
    | isClosed s => exact (hk _ rfl).elim
    | startOccupancyCheck s e =>
      have hph := hs (hcall _ rfl)
      refine ⟨.inl hph, fun r _ => ?_⟩
      show l.checked = l
      unfold checked
      rw [hph]
    | _ => exact ⟨trivial, fun _ _ => rfl⟩
  op o ho huse := by
    have hk : ∀ e, o.effect = some e → e.quiet := fun e he => hK e (ho e he)
    cases o with
    | sql c st =>
      have hown : ¬ l.Owns c := huse c rfl
      cases st with
      | taskUpdate task expected =>
        have hq := hk _ rfl
        have hne : saveEffect task expected ≠ .claim := by
          intro he
          rw [he] at hq
          exact hq
        refine ⟨⟨?_, ?_⟩, fun ch r _ => step_save hne ch r, hc⟩
        · exact not_not.mp fun h => hown (.inl h)
        · split
          · rename_i he; rw [he] at hq; exact hq.elim
          · rename_i he; rw [he] at hq; exact hq.elim
          · trivial
      | _ => exact ⟨trivial, fun _ _ _ => rfl, hc⟩
    | sftpMakedirs s dir => exact (hk _ rfl).elim
    | sftpWrite s path data => exact (hk _ rfl).elim
    | runBg s t cmd => exact (hk _ rfl).elim
    | commit c =>
      have hown : ¬ l.Owns c := huse c rfl
      exact ⟨fun h => absurd h hown, fun _ _ _ => committed_eq hown _ _, hc⟩
    | rollback c =>
      have hown : ¬ l.Owns c := huse c rfl
      refine ⟨mayEnd_of_not_owns hown, fun ch r _ => ?_, hc⟩
      refine (step_rollback l c ch r).trans ?_
      rw [ended_eq hown, ite_self]
    | close c =>
      have hown : ¬ l.Owns c := huse c rfl
      refine ⟨mayEnd_of_not_owns hown, fun ch r _ => ?_, hc⟩
      refine (step_close l c ch r).trans ?_
      rw [ended_eq hown, ite_self]
    | _ => exact ⟨trivial, fun _ _ _ => rfl, hc⟩
  opens o ch a c ho hr hopen := by
    cases o with
    | connect =>
      cases hopen
      exact hr.2 _ rfl
    | _ => cases hopen

end StartState

/-! ## The start

The specifications follow the nesting of the source, from the inside out: the
upload and the spawn, the deployer around them, the claim transaction around
the deployer, and the attempt on one machine around that. Each of them has an
exit for errors, and what it says there is what its handlers need.

The deployer is the critical one. Either it returns and the process is spawned,
or it raises and the start is over, with the machine given back wherever the
process was not spawned. -/

namespace StartState

/-- Ready for a start of the task, or for going on without one. -/
def Ready (t : TaskId) (l : StartState) : Prop := l.Settled ∧ l.For t

/-- After a part of a start: on success the phase is known, after an error the
start is over. -/
def After {α : Type} (t : TaskId) (phase : StartPhase) (r : Except Exc α)
    (l : StartState) : Prop :=
  l.For t ∧ match r with
    | .ok _ => l.phase = phase
    | .error _ => l.Settled

variable {l : StartState} {t : TaskId} {c : Nat}

/-- A claim for the task is still for the task. -/
theorem For.claim {n : NodeId} (h : l.For t) (found : Bool) :
    (l.claim c t n found).For t := by
  intro c' t' n' hc
  by_cases he : c' = c
  · subst he
    rw [claim_self] at hc
    cases hc
    rfl
  · rw [claim_ne _ _ _ _ he] at hc
    exact h c' t' n' hc

/-- After a cancellation a start is settled, unless it is in the middle of the
deployment. -/
theorem settled_cancelled (h : l.phase.live = none ∨ l.phase.unchecked = true) :
    l.cancelled.Settled := by
  show match l.phase with
    | .idle | .claimed _ _ _ => True
    | .occupied _ _ _ => False
    | .spawned _ _ _ | .committed _ _ => (l.broken || l.phase.unchecked) = true
  cases hph : l.phase with
  | idle => trivial
  | claimed c t n => trivial
  | occupied c t s => rw [hph] at h; rcases h with h | h <;> cases h
  | spawned c t s => exact Bool.or_true _
  | committed t s => exact Bool.or_true _

/-- A claim, found or lost, occupies nothing. -/
theorem claim_settled (h : l.Settled) (c : Nat) (t : TaskId) (n : NodeId)
    (found : Bool) : (l.claim c t n found).Settled := by
  cases found with
  | true => trivial
  | false =>
    unfold Settled at h
    show match l.phase.unclaimed with
      | .idle | .claimed _ _ _ => True
      | .occupied _ _ _ => False
      | .spawned _ _ _ | .committed _ _ => l.broken = true
    cases hph : l.phase with
    | idle => trivial
    | claimed c' t' n' => trivial
    | occupied c' t' s => rw [hph] at h; exact h
    | spawned c' t' s => rw [hph] at h; exact h
    | committed t' s => rw [hph] at h; exact h

/-- The end of a transaction does not change which task it is. -/
theorem ended_for (h : l.For t) (c : Nat) : (l.ended c).For t := by
  unfold ended
  split <;> first | exact h | (split <;> exact h)

/-- Leaving a unit of work between two starts. -/
theorem exit_ready (c : Nat) (e : Option Exc) :
    Keeps startProtocol.logic (Ready t) (Uow.exit c e) := by
  have hend : ∀ o : Op, (o = .rollback c ∨ o = .close c) →
      Keeps startProtocol.logic (Ready t) (await o) := by
    rintro o (rfl | rfl)
    all_goals
      refine Protocol.keeps_op (fun l h => ⟨mayEnd_of_settled h.1 c, trivial⟩)
        (fun l ch r h _ => ?_) fun l h => ?_
      · show Ready t (if ch.effective then l.ended c else l)
        split
        · exact ⟨ended_settled h.1 c, ended_for h.2 c⟩
        · exact h
      · show Ready t l.cancelled
        rw [cancelled_eq_of_settled h.1]
        exact h
  have hclose := keeps_suppress (hend (.close c) (.inr rfl))
  unfold Uow.exit
  cases e with
  | none => exact hclose
  | some e =>
    exact keeps_bind (keeps_suppress (keeps_bind (hend (.rollback c) (.inl rfl))
      fun _ => Protocol.keeps_sync (fun _ _ => trivial) fun _ _ h _ => h)) fun _ => hclose

/-- Opening a unit of work gives a connection that belongs to no claim. -/
theorem enter_spec (hc : l.cancelled = l) :
    wp startProtocol.logic Uow.enter
      (fun r l' => l' = l ∧ ∀ c, r = .ok c → ¬ l.Owns c) l :=
  ignored_enter (ignored (fun _ h => h.elim) (fun h => h.elim) hc :
    (scope ∅).Ignored startProtocol {c | l.Owns c} l)

/-- The save that claims the task. -/
theorem save_spec {task : AnyTask} {st : Running} (hst : task.state = .running st)
    (h : Ready task.taskId l) (hc : l.claims c = none) :
    wp startProtocol.logic (Tasks.save c task (some .toDo))
      (After task.taskId (.claimed c task.taskId st.allocatedNodeId)) l := by
  have heff : saveEffect task (some .toDo) = .claim := by
    unfold saveEffect
    rw [hst]
  have hstep : ∀ ch (r : Except Exc Bool), startProtocol.step
      (.performed (.sql c (.taskUpdate task (some .toDo))) ch r) l =
        l.claim c task.taskId st.allocatedNodeId (found r) := by
    intro ch r
    show (match task.state with
      | .running st => l.claim c task.taskId st.allocatedNodeId (found r)
      | _ => l) = _
    rw [hst]
  -- whatever the statement returns, no machine is occupied yet
  have hset : ∀ b, (l.claim c task.taskId st.allocatedNodeId b).Settled :=
    claim_settled h.1 c _ _
  unfold Tasks.save
  rw [Co.bind_eq, wp_bind]
  refine Protocol.wp_op.mpr ⟨⟨⟨hc, ?_⟩, trivial⟩, fun ch r hr => ?_,
    fun ch r hr => ?_, ?_⟩
  · rw [heff]
    exact h
  · rw [hstep]
    match r with
    | .ok true =>
      refine Protocol.wp_sync.mpr ⟨trivial, fun _ _ => ⟨h.2.claim true, rfl⟩⟩
    | .ok false => exact ⟨h.2.claim false, hset false⟩
    | .error e => exact ⟨h.2.claim false, hset false⟩
  · rw [hstep]
    refine ⟨h.2.claim (found r), ?_⟩
    show (l.claim c task.taskId st.allocatedNodeId (found r)).cancelled.Settled
    rw [cancelled_eq_of_settled (hset _)]
    exact hset _
  · refine ⟨h.2, ?_⟩
    show l.cancelled.Settled
    rw [cancelled_eq_of_settled h.1]
    exact h.1

/-- An operation that is no part of a start leaves it where it is. -/
theorem plainAwait_keeps (hc : l.cancelled = l) {o : Op} (he : o.effect = none)
    (hconn : o.conn = none) : Keeps startProtocol.logic (· = l) (await o) := by
  have hign : (scope ∅).Ignored startProtocol {c | l.Owns c} l :=
    ignored (fun _ h => h.elim) (fun h => h.elim) hc
  rintro l' rfl
  exact hign.wp_closed (inside_plainAwait he hconn)

/-- The upload goes to the occupied machine and leaves the start where it
is. -/
theorem uploadTaskData_keeps {s : SessionId} (hph : l.phase = .occupied c t s)
    (task : RunningTask) (dir : String) (files : List String) :
    Keeps startProtocol.logic (· = l) (uploadTaskData s task dir files) := by
  have hc : l.cancelled = l := cancelled_eq (.inr (by rw [hph]; rfl))
  have hdirs : Keeps startProtocol.logic (· = l) (await (.sftpMakedirs s dir)) :=
    Protocol.keeps_op (fun _ h => ⟨⟨c, t, h ▸ hph⟩, trivial⟩) (fun _ _ _ h _ => h)
      fun _ h => h ▸ hc
  have hwrite : Keeps startProtocol.logic (· = l) (writeInputs s task dir files) := by
    induction files with
    | nil => exact keeps_ret _
    | cons file files ih =>
      unfold writeInputs
      cases task.extra.lookup file with
      | none => exact keeps_throw _
      | some data =>
        exact keeps_bind (Protocol.keeps_op (fun _ h => ⟨⟨c, t, h ▸ hph⟩, trivial⟩)
          (fun _ _ _ h _ => h) fun _ h => h ▸ hc) fun _ => ih
  exact keeps_asyncWith (plainAwait_keeps hc rfl rfl)
    (fun _ _ => plainAwait_keeps hc rfl rfl) fun _ =>
      keeps_bind hdirs fun _ => keeps_bind hwrite fun _ => keeps_ret _

/-- The upload and the spawn. -/
theorem deployAndSpawn_spec {s : SessionId} (engine : Engine) {task : RunningTask}
    (ncpus : Nat) (dir : String) (hph : l.phase = .occupied c task.taskId s)
    (h : l.For t) :
    wp startProtocol.logic (deployAndSpawn s engine task ncpus dir)
      (fun r l' => l'.For t ∧ l'.phase = match r with
        | .ok _ => .spawned c task.taskId s
        | .error _ => .occupied c task.taskId s) l := by
  have hun : l.phase.unchecked = false := by rw [hph]; rfl
  have hplain : ∀ {o : Op}, o.effect = none → o.conn = none →
      Keeps startProtocol.logic (· = l) (await o) :=
    plainAwait_keeps (cancelled_eq (.inr hun))
  have hspawn : l.spawn = { l with phase := .spawned c task.taskId s } := by
    unfold spawn
    rw [hph]
  have hun' : l.unspawn = l := by
    unfold unspawn
    rw [hph]
    exact cancelled_eq (.inr hun)
  unfold deployAndSpawn
  rw [Co.bind_eq, wp_bind]
  refine (keeps_asyncWith (hplain rfl rfl) (fun _ _ => hplain rfl rfl) fun _ =>
    keeps_bind (hplain rfl rfl) fun _ => keeps_bind
      (uploadTaskData_keeps hph task _ _) fun _ => keeps_ret _).wp rfl ?_
  rintro (e | dirs) l' rfl
  · exact ⟨h, hph⟩
  · refine Protocol.wp_op.mpr ⟨⟨⟨c, hph⟩, trivial⟩, fun ch r hr => ?_,
      fun ch r hr => ?_, ?_⟩
    · cases r with
      | ok u =>
        show For l'.spawn t ∧ l'.spawn.phase = _
        rw [hspawn]
        exact ⟨h, rfl⟩
      | error e => exact ⟨h, hph⟩
    · cases r with
      | ok u =>
        show For l'.spawn.unspawn t ∧ l'.spawn.unspawn.phase = _
        rw [hspawn]
        exact ⟨h, rfl⟩
      | error e =>
        show For l'.unspawn t ∧ l'.unspawn.phase = _
        rw [hun']
        exact ⟨h, hph⟩
    · show For l'.unspawn t ∧ l'.unspawn.phase = _
      rw [hun']
      exact ⟨h, hph⟩

/-- **The deployer** leaves the machine occupied exactly if the process is
spawned. -/
theorem deployerStart_spec {s : SessionId} (engine : Engine) {task : RunningTask}
    (ncpus : Nat) (dir : String) (hph : l.phase = .claimed c task.taskId s.node)
    (h : l.For t) :
    wp startProtocol.logic (deployerStart s engine task ncpus dir)
      (fun r l' => After t (.spawned c task.taskId s) r l' ∧ r ≠ .ok false) l := by
  have hsettled : l.Settled := by
    unfold Settled
    rw [hph]
    trivial
  unfold deployerStart
  rw [Co.bind_eq, wp_bind]
  refine Protocol.wp_sync.mpr ⟨⟨c, task.taskId, hph⟩, fun r _ => ?_⟩
  cases r with
  | error e => exact ⟨⟨h, hsettled⟩, fun h => nomatch h⟩
  | ok u =>
    have hocc : (l.occupy s).phase = .occupied c task.taskId s := by
      unfold occupy
      rw [hph]
    have hfor : (l.occupy s).For t := by
      unfold occupy
      rw [hph]
      exact h
    show wp startProtocol.logic (Co.bind (Co.tryCatch _ _) _) _ (l.occupy s)
    rw [wp_bind, wp_tryCatch]
    refine wp_mono (deployAndSpawn_spec engine ncpus dir hocc hfor) ?_
    rintro (e | u) l' ⟨hfor', hph'⟩
    · have hrel : l'.released.For t ∧ l'.released.Settled := by
        unfold released
        rw [hph']
        exact ⟨hfor', trivial⟩
      show wp startProtocol.logic (rollbackBusy s e) _ l'
      unfold rollbackBusy
      rw [Co.bind_eq, wp_bind]
      refine Protocol.wp_sync.mpr ⟨⟨c, task.taskId, hph'⟩, fun closed _ => ?_⟩
      cases closed with
      | true => exact ⟨hrel, fun h => nomatch h⟩
      | false =>
        show wp startProtocol.logic (Co.bind (ask (.machineState s)) _) _ l'
        rw [wp_bind]
        refine Protocol.wp_sync.mpr ⟨trivial, fun _ _ => ?_⟩
        show wp startProtocol.logic (Co.bind (ask (.release s)) _) _ l'
        rw [wp_bind]
        exact Protocol.wp_sync.mpr ⟨⟨c, task.taskId, hph'⟩, fun _ _ =>
          ⟨hrel, fun h => nomatch h⟩⟩
    · exact ⟨⟨hfor', hph'⟩, fun h => nomatch h⟩

/-- The node row and the number of cores are read before anything happens to
the machine. -/
theorem startTaskOnMachine_spec (cfg : Settings) {s : SessionId} (engine : Engine)
    {task : RunningTask} (hph : l.phase = .claimed c task.taskId s.node)
    (h : l.For t) :
    wp startProtocol.logic (startTaskOnMachine cfg s engine task)
      (fun r l' => After t (.spawned c task.taskId s) r l' ∧ r ≠ .ok false) l := by
  have hsettled : l.Settled := by
    unfold Settled
    rw [hph]
    trivial
  have hign : (scope ∅).Ignored startProtocol {c | l.Owns c} l :=
    ignored (fun _ h => h.elim) (fun h => h.elim) (cancelled_eq_of_settled hsettled)
  unfold startTaskOnMachine
  rw [Co.bind_eq, wp_bind]
  refine wp_mono (hign.wp_closed (inside_within fun c =>
    inside_read (Set.mem_insert c ∅) rfl)) ?_
  rintro (e | node) l' rfl
  · exact ⟨⟨h, hsettled⟩, fun h => nomatch h⟩
  · rw [onOk_ok]
    split
    · exact deployerStart_spec engine _ _ hph h
    · rw [Co.bind_eq, wp_bind]
      refine wp_mono (hign.wp_closed (inside_plainAwait rfl rfl)) ?_
      rintro (e | n) l'' rfl
      · exact ⟨⟨h, hsettled⟩, fun h => nomatch h⟩
      · exact deployerStart_spec engine n _ hph h

/-- The events of a committed start are delivered; only a cancellation comes
out of that, and it ends the start. -/
theorem publish_spec (cfg : Settings) {s : SessionId} (hph : l.phase = .committed t s)
    (h : l.For t) :
    wp startProtocol.logic (suppress (Uow.publishEvents cfg c))
      (After t (.committed t s)) l := by
  have hcancel : l.cancelled.Settled := settled_cancelled (.inr (by rw [hph]; rfl))
  have hdispatch : ∀ es, wp startProtocol.logic (Uow.dispatch cfg es)
      (fun r l' => After t (.committed t s) r l' ∧ (∀ e, r = .error e → e = .cancelled)) l := by
    intro es
    induction es with
    | nil => exact ⟨⟨h, hph⟩, fun e h => nomatch h⟩
    | cons e es ih =>
      unfold Uow.dispatch
      split
      · rw [Co.bind_eq, wp_bind, suppress, wp_exceptException]
        refine Protocol.wp_op.mpr ⟨⟨trivial, trivial⟩, fun ch r hr => ?_,
          fun ch r hr => ?_, ?_⟩
        · cases r with
          | ok u => exact ih
          | error e =>
            rw [onError_error, if_pos (hr e rfl)]
            exact ih
        · exact ⟨⟨h, hcancel⟩, fun e h => (Except.error.inj h).symm⟩
        · exact ⟨⟨h, hcancel⟩, fun e h => (Except.error.inj h).symm⟩
      · exact ih
  unfold Uow.publishEvents
  rw [suppress, wp_exceptException, Co.bind_eq, wp_bind]
  refine Protocol.wp_sync.mpr ⟨trivial, fun tasks _ => ?_⟩
  show wp startProtocol.logic (Co.bind (Uow.dispatch cfg _) _) _ l
  rw [wp_bind]
  refine wp_mono (hdispatch _) ?_
  rintro (e | u) l' ⟨hafter, herr⟩
  · rw [herr e rfl] at hafter ⊢
    exact hafter
  · exact Protocol.wp_sync.mpr ⟨trivial, fun _ _ => hafter⟩

/-- The commit of a start. -/
theorem commit_spec (cfg : Settings) {s : SessionId} (hph : l.phase = .spawned c t s)
    (h : l.For t) :
    wp startProtocol.logic (Uow.commit cfg c) (After t (.committed t s)) l := by
  have hcom : ∀ effective failed, l.committed c effective failed =
      { l with
        phase := if effective then .committed t s else .spawned c t s
        broken := l.broken || failed } := by
    intro effective failed
    unfold committed
    rw [hph]
    exact if_pos rfl
  -- a COMMIT that fails, or is cancelled, breaks the start
  have hfail : ∀ effective, (l.committed c effective true).Settled := by
    intro effective
    rw [hcom, Bool.or_true]
    cases effective <;> rfl
  have hcancel : ∀ effective failed,
      (l.committed c effective failed).cancelled.Settled := by
    intro effective failed
    refine settled_cancelled (.inr ?_)
    rw [hcom]
    cases effective <;> rfl
  have hfor : ∀ effective failed, (l.committed c effective failed).For t := by
    intro effective failed
    rw [hcom]
    exact h
  unfold Uow.commit
  rw [Co.bind_eq, wp_bind]
  refine Protocol.wp_op.mpr ⟨⟨fun _ => ⟨t, s, hph⟩, trivial⟩, fun ch r hr => ?_,
    fun ch r hr => ⟨hfor _ _, hcancel _ _⟩,
    h, settled_cancelled (.inr (by rw [hph]; rfl))⟩
  cases r with
  | error e => exact ⟨hfor _ _, hfail _⟩
  | ok u =>
    have heff : ch.effective = true := by
      by_contra hne
      exact nomatch hr.2 (Bool.eq_false_iff.mpr hne)
    show wp startProtocol.logic (suppress _) _ (l.committed c ch.effective false)
    refine publish_spec cfg ?_ (hfor _ _)
    rw [hcom, heff]
    rfl

/-- Leaving the unit of work of a committed start. -/
theorem exit_committed {s : SessionId} (hph : l.phase = .committed t s) (h : l.For t) :
    wp startProtocol.logic (Uow.exit c none) (After t (.committed t s)) l := by
  have hended : l.ended c = l := by
    unfold ended
    rw [hph]
    rfl
  have hstep : ∀ ch (r : Except Exc Unit),
      startProtocol.step (.performed (.close c) ch r) l = l := by
    intro ch r
    refine (step_close l c ch r).trans ?_
    rw [hended, ite_self]
  have hmay : l.MayEnd c := by
    unfold MayEnd
    rw [hph]
    trivial
  have hcancel : l.cancelled.Settled := settled_cancelled (.inr (by rw [hph]; rfl))
  show wp startProtocol.logic (suppress (await (.close c))) _ l
  rw [suppress, wp_exceptException]
  refine Protocol.wp_op.mpr ⟨⟨hmay, trivial⟩, fun ch r hr => ?_, fun ch r hr => ?_, ?_⟩
  · rw [hstep]
    cases r with
    | ok u => exact ⟨h, hph⟩
    | error e =>
      rw [onError_error, if_pos (hr e rfl)]
      exact ⟨h, hph⟩
  · rw [hstep]
    exact ⟨h, hcancel⟩
  · exact ⟨h, hcancel⟩

/-- The claim transaction, with the deployment inside it. -/
theorem claim_spec (cfg : Settings) {s : SessionId} (engine : Engine)
    (running : RunningTask) (hn : running.state.allocatedNodeId = s.node)
    (h : Ready running.taskId l) :
    wp startProtocol.logic
      (Uow.within fun c => do
        Tasks.save c running.anyRunning (some .toDo)
        let started ← startTaskOnMachine cfg s engine running
        if !started then
          Uow.rollback c
          return false
        Uow.commit cfg c
        return true)
      (fun r l' => After running.taskId (.committed running.taskId s) r l' ∧
        r ≠ .ok false) l := by
  -- an error in the unit of work ends the start
  have herr : ∀ c (e : Exc) l', After (α := Bool) running.taskId .idle (.error e) l' →
      wp startProtocol.logic (Uow.exit c (some e))
        (onOk (fun _ l'' => After running.taskId (.committed running.taskId s)
          (.error e : Except Exc Bool) l'' ∧ (.error e : Except Exc Bool) ≠ .ok false)
          fun r l'' => After running.taskId (.committed running.taskId s) r l'' ∧
            r ≠ .ok false) l' := by
    intro c e l' hl'
    refine (exit_ready c (some e)).wp ⟨hl'.2, hl'.1⟩ fun r l'' hready => ?_
    cases r <;> exact ⟨⟨hready.2, hready.1⟩, fun h => nomatch h⟩
  unfold Uow.within
  rw [wp_asyncWith]
  refine wp_mono (enter_spec (cancelled_eq_of_settled h.1)) ?_
  rintro (e | c) l' ⟨rfl, hown⟩
  · exact ⟨⟨h.2, h.1⟩, fun h => nomatch h⟩
  · rw [onOk_ok, Co.bind_eq, wp_bind]
    have hc : l'.claims c = none := not_not.mp fun hne => hown c rfl (.inl hne)
    have hsave : wp startProtocol.logic
        (Tasks.save c running.anyRunning (some .toDo))
        (After running.taskId
          (.claimed c running.taskId running.state.allocatedNodeId)) l' :=
      save_spec rfl h hc
    refine wp_mono hsave ?_
    rintro (e | u) l₁ ⟨hfor₁, hph₁⟩
    · exact herr c e l₁ ⟨hfor₁, hph₁⟩
    · rw [onOk_ok, Co.bind_eq, wp_bind]
      have hph₁' : l₁.phase = .claimed c running.taskId s.node := by
        rw [← hn]
        exact hph₁
      refine wp_mono (startTaskOnMachine_spec cfg engine hph₁' hfor₁) ?_
      rintro (e | started) l₂ ⟨⟨hfor₂, hph₂⟩, hne⟩
      · exact herr c e l₂ ⟨hfor₂, hph₂⟩
      · cases started with
        | false => exact absurd rfl hne
        | true =>
          show wp startProtocol.logic (Co.bind (Uow.commit cfg c) _) _ l₂
          rw [wp_bind]
          refine wp_mono (commit_spec cfg hph₂ hfor₂) ?_
          rintro (e | u) l₃ ⟨hfor₃, hph₃⟩
          · exact herr c e l₃ ⟨hfor₃, hph₃⟩
          · show wp startProtocol.logic (Uow.exit c none) _ l₃
            refine wp_mono (exit_committed hph₃ hfor₃) ?_
            rintro (e | u) l₄ hafter
            · exact ⟨hafter, fun h => nomatch h⟩
            · exact ⟨hafter, fun h => nomatch h⟩

/-- **A start of a task on a machine** comes back ready for the next one,
whatever happens on the way. -/
theorem tryStartOnMachine_ready (cfg : Settings) {s : SessionId} {node : Node}
    (hnode : node.nodeId = s.node) (engine : Engine) (task : TodoTask) :
    Keeps startProtocol.logic (Ready task.taskId)
      (tryStartOnMachine cfg s node engine task) := by
  intro l hl
  unfold tryStartOnMachine
  rw [Co.bind_eq, wp_bind]
  refine wp_mono (claim_spec cfg engine (task.run node.nodeId _) hnode hl) ?_
  rintro (e | started) l' ⟨⟨hfor, hph⟩, hne⟩
  · exact ⟨hph, hfor⟩
  · cases started with
    | false => exact absurd rfl hne
    | true =>
      have hchecked : Ready task.taskId l'.checked := by
        unfold checked
        rw [hph]
        exact ⟨trivial, hfor⟩
      show wp startProtocol.logic (Co.bind (ask (.startOccupancyCheck s engine)) _) _ l'
      rw [wp_bind]
      refine Protocol.wp_sync.mpr ⟨.inr ⟨_, hph⟩, fun _ _ => ?_⟩
      show wp startProtocol.logic (Co.bind (ask (.trackerDiscard _)) _) _ l'.checked
      rw [wp_bind]
      exact Protocol.wp_sync.mpr ⟨trivial, fun _ _ => hchecked⟩

/-! ## Every job obeys the protocol

A worker tries several machines for one task, one after the other. It is
allowed to because each attempt ends settled: either nothing was occupied, or
it was given back, or the start has failed after its spawn, which is
remembered. The loop needs nothing else of an attempt. -/

/-- A program with quiet effects only, after the starts. -/
theorem quiet_ready {α : Type} {K : Set Effect} {x : Prog α} (t : TaskId)
    (hK : ∀ e ∈ K, e.quiet ∧ e ≠ .startCheck) (hx : (scope K).Inside ∅ x) :
    Keeps startProtocol.logic (Ready t) x := by
  intro l hl
  have hign := ignored (fun e he => (hK e he).1)
    (fun h => absurd rfl (hK _ h).2) (cancelled_eq_of_settled hl.1)
  refine wp_mono (hign.wp_closed hx) ?_
  rintro r l' rfl
  exact hl

/-- The node of a pair is that of its session. -/
theorem freePairs_node {running : List RunningTask} {enabled : List Node}
    {sessions : List SessionId} {s : SessionId} {node : Node}
    (h : (s, node) ∈ freePairs running enabled sessions) : node.nodeId = s.node := by
  obtain ⟨s', -, hs⟩ := List.mem_filterMap.mp h
  split at hs
  · rename_i n hfind
    split at hs
    · cases hs
    · cases hs
      simpa using List.find?_some hfind
  · cases hs

/-- The loop over the machines leaves each of them settled before it tries the next.
By induction on the pairs. -/
theorem tryMachines_ready (cfg : Settings) (engine : Engine) (task : TodoTask)
    (pairs : List (SessionId × Node)) (h : ∀ p ∈ pairs, p.2.nodeId = p.1.node) :
    Keeps startProtocol.logic (Ready task.taskId) (tryMachines cfg engine task pairs) := by
  induction pairs with
  | nil => exact keeps_ret _
  | cons p pairs ih =>
    refine keeps_bind (keeps_exceptException (tryStartOnMachine_ready cfg
      (h p List.mem_cons_self) engine task) fun _ => keeps_ret _) fun started => ?_
    cases started with
    | true => exact keeps_ret _
    | false => exact ih fun q hq => h q (List.mem_cons_of_mem _ hq)

/-- The effects of `allocateTask` outside the start. -/
def restEffects : Set Effect :=
  {.reject, .insertNode, .updateNode, .removeNode, .dropSession, .deleteVm, .lock}

/-- None of the other effects is part of a start. -/
theorem restEffects_quiet : ∀ e ∈ restEffects, e.quiet ∧ e ≠ .startCheck := by
  rintro e (rfl | rfl | rfl | rfl | rfl | rfl | rfl) <;>
    exact ⟨trivial, fun h => Effect.noConfusion h⟩

/-- **`allocate_task` ends settled**, however it ends. The cloud section and the
rejection are no part of a start, so only the loop over the machines has to be
followed. -/
theorem allocateTask_settled (cfg : Settings) (t : TaskId) :
    wp startProtocol.logic (allocateTask cfg t) (fun _ l => l.Settled)
      startProtocol.init := by
  have hinit : ∀ t, Ready t startProtocol.init :=
    fun t => ⟨trivial, by rintro _ _ _ ⟨⟩⟩
  have hget : (scope ∅).Inside ∅ (Uow.within fun c => Tasks.getTodo c t) :=
    inside_within fun c => inside_getTodo (Set.mem_insert c ∅) t
  have hign : (scope ∅).Ignored startProtocol {c | startProtocol.init.Owns c}
      startProtocol.init :=
    ignored (fun _ h => h.elim) (fun h => h.elim) rfl
  unfold allocateTask
  rw [Co.bind_eq, wp_bind]
  refine wp_mono (hign.wp_closed hget) ?_
  rintro (e | task) l rfl
  · trivial
  · cases task with
    | none => trivial
    | some task =>
      have hrest : ∀ {α : Type} {x : Prog α}, (scope restEffects).Inside ∅ x →
          Keeps startProtocol.logic (Ready task.taskId) x :=
        fun hx => quiet_ready task.taskId restEffects_quiet hx
      have hallocate : ∀ engine, Keeps startProtocol.logic (Ready task.taskId)
          (allocateFreeMachine cfg engine task) := by
        intro engine
        unfold allocateFreeMachine findFreeMachines
        rw [Co.bind_eq, Co.bind_eq, Co.bind_assoc]
        refine keeps_bind (hrest (inside_within fun c => inside_bind
          (inside_listRunning (Set.mem_insert c ∅)) fun _ => inside_bind
            (inside_read (Set.mem_insert c ∅) rfl) fun _ => trivial)) fun out => ?_
        obtain ⟨running, enabled⟩ := out
        show Keeps _ _ (Co.bind (Co.bind (ask (.listFree (some engine.platforms)))
          fun sessions => .ret (freePairs running enabled sessions)) _)
        rw [Co.bind_assoc]
        exact keeps_bind (hrest (inside_plainAsk rfl)) fun sessions =>
          tryMachines_ready cfg engine task _ fun p hp => freePairs_node hp
      refine Keeps.wp (keeps_bind (hrest (inside_validateEngine cfg task
        (by simp [restEffects]))) fun engine => ?_) (hinit _) fun _ _ h => h.1
      cases engine with
      | none => exact keeps_ret _
      | some engine =>
        refine keeps_bind (hallocate engine) fun started => ?_
        cases started with
        | true => exact keeps_ret _
        | false =>
          show Keeps _ _ (if engine.platforms.isEmpty then pure false
            else allocateCloud cfg engine task)
          split
          · exact keeps_ret _
          · refine hrest (inside_allocateCloud cfg engine task ?_ ?_ ?_ ?_ ?_ ?_) <;>
              simp [restEffects]

/-- **Every job obeys the protocol of a start.** All but that of the allocating
worker have quiet effects only. -/
theorem program_runs (cfg : Settings) (j : Job) :
    startProtocol.Runs (j.program cfg) startProtocol.init := by
  -- a job that cannot start anything stays where it is
  have hquiet : (∀ e ∈ j.effects, e.quiet) →
      startProtocol.Runs (j.program cfg) startProtocol.init := fun h =>
    (ignored h (fun _ => rfl) rfl).runs (inside_program cfg j) trivial
  cases j with
  | allocateWorker =>
    have hconsumer : ∀ task : TodoTask, wp startProtocol.logic
        (allocatorConsumer cfg task) (fun _ l => l.Settled) startProtocol.init := by
      intro task
      unfold allocatorConsumer
      rw [wp_exceptException, Co.bind_eq, wp_bind]
      refine wp_mono (allocateTask_settled cfg task.taskId) ?_
      rintro (e | b) l h
      · rw [onOk_error, onError_error]
        split <;> exact h
      · exact h
    have hend : ∀ q id, Keeps startProtocol.logic Settled (ask (.itemDone q id)) :=
      fun _ _ => Protocol.keeps_sync (fun _ _ => trivial) fun _ _ h _ => h
    show wp startProtocol.logic (Co.bind (await (.queueGet .allocate)) _) _ _
    rw [wp_bind]
    refine Protocol.wp_op.mpr ⟨⟨trivial, trivial⟩, fun ch r hr => ?_,
      fun _ _ _ => ⟨trivial, trivial⟩, trivial, trivial⟩
    cases r with
    | error e => exact ⟨trivial, trivial⟩
    | ok task =>
      show wp startProtocol.logic (Co.tryFinally _ _) _ _
      rw [wp_tryFinally, wp_exceptException]
      refine wp_mono (hconsumer task) ?_
      rintro (e | u) l h
      · rw [onError_error]
        split <;> exact (hend _ _).wp h fun r l' h' => by cases r <;> exact ⟨trivial, h'⟩
      · exact (hend _ _).wp h fun r l' h' => by cases r <;> exact ⟨trivial, h'⟩
  | _ =>
    refine hquiet fun e he => ?_
    cases e <;> simp [Job.effects] at he <;> trivial

end StartState

end Yascheduler
