import Yascheduler.Async.Logic
import Mathlib.Logic.Function.Basic

/-!
# A pool of coroutines on several event loops

Coroutines are scheduled by event loops. At any moment at most one coroutine
of a loop is running; it runs call after call until it awaits or ends, and
only then may the loop resume another one. Operations are resolved by the
outside world while their coroutine is suspended, and the result is delivered
later, when the loop resumes the coroutine – other coroutines may have run
since. A coroutine that is suspended may be cancelled: whether or not its
operation has already taken effect, it is then resumed with the cancellation
error instead of the result.

The pool records what has happened in a *log*, latest entry first. A
`Protocol` reads the entries of one coroutine and computes from them its
local state; it says what the coroutine may issue in which local state. If
every program obeys the protocol – a weakest precondition, proved program by
program – then an invariant of the world and the log only has to be checked
call by call and operation by operation, never program by program: this is
`Steps.invariant`, the rule every result about interleavings rests on.

## What is left open

Which loop goes on, in which order coroutines are resumed, how an operation ends
and when: all of this is up to the actions of a run. So a result about all runs
holds under every scheduler, and under schedulers no event loop would have.
Nothing is fair here – a coroutine that could go on may never be resumed – and a
statement that something happens in the end is not one about all runs. It is
made about a coroutine that nobody disturbs (`Solo`).

## Why a log

A protocol could keep its local states in the pool. They are computed from the
log instead, because then a run does not depend on the protocol it is looked at
through: the same run can be looked at through several of them at once
(`Product`), and a watcher that remembers more than any program needs costs the
programs nothing.
-/

namespace Async

open Co hiding bind

variable {S : Sig} {L : Type}

/-! ## Events and protocols

An awaited operation has two ends, that of the operation and that of the wait.
The first is an event of the world, and its effect is there from then on; the
second is when the coroutine learns of it. A cancellation can come before the
first, and then the operation has never taken place, or between the two, and
then it has, and the result is lost. A coroutine gets the same error in both
cases. -/

/-- What happens to one coroutine. This is all that a protocol sees of a run. -/
inductive Event (S : Sig) where
  /-- it makes a call and is answered -/
  | call (c : S.Call) (r : S.Ans c)
  /-- the operation it awaits is resolved -/
  | performed (o : S.Op) (ch : S.Choice) (r : Except S.Err (S.Res o))
  /-- it is cancelled while it awaits the operation -/
  | interrupted (o : S.Op)
  /-- it has ended, and a resource it left behind is reclaimed -/
  | reaped (ch : S.Choice)

/-- **A protocol**: the local state as a function of the events, the local states in
which each call and operation may be issued, and the answers that may come back.
`rest` describes the local states of a coroutine that is not running; only a call
can lead out of it. Since the local state is computed from the events, any point of
a run can be asked about it, and no ghost state has to be carried along. -/
structure Protocol (S : Sig) (L : Type) where
  init : L
  step : Event S → L → L
  callPre : S.Call → L → Prop := fun _ _ => True
  callAns : (c : S.Call) → L → S.Ans c → Prop := fun _ _ _ => True
  awaitPre : S.Op → L → Prop := fun _ _ => True
  opRes : (o : S.Op) → L → S.Choice → Except S.Err (S.Res o) → Prop :=
    fun _ _ _ _ => True
  rest : L → Prop := fun _ => True
  post : L → Prop := fun _ => True
  rest_init : rest init := by trivial
  rest_step : ∀ e l, (∀ c r, e ≠ .call c r) → rest l → rest (step e l) := by
    intros; trivial
  post_reaped : ∀ ch l, post l → post (step (.reaped ch) l) := by intros; trivial

/-- The environment a protocol describes: an operation is performed and its result
delivered, or performed and then cancelled, or cancelled at once. The coroutine
cannot tell the last two apart. -/
def Protocol.logic (P : Protocol S L) : Logic S L where
  callPre := P.callPre
  callRel c l r l' := P.callAns c l r ∧ l' = P.step (.call c r) l
  awaitPre o l := P.awaitPre o l ∧ P.rest l
  awaitRel o l r l' :=
    (∃ ch r₀, P.opRes o l ch r₀ ∧
      ((r = r₀ ∧ l' = P.step (.performed o ch r₀) l) ∨
       (r = .error S.cancelled ∧
          l' = P.step (.interrupted o) (P.step (.performed o ch r₀) l)))) ∨
    (r = .error S.cancelled ∧ l' = P.step (.interrupted o) l)

/-- `x` may run from the local state `l` to its end. -/
def Protocol.Runs {α : Type} (P : Protocol S L) (x : Co S α) (l : L) : Prop :=
  wp P.logic x (fun _ l' => P.rest l' ∧ P.post l') l

section Rules

variable {P : Protocol S L} {l : L}

theorem Protocol.wp_sync {c : S.Call} {R : Except S.Err (S.Ans c) → L → Prop} :
    wp P.logic (sync c) R l ↔ P.callPre c l ∧
      ∀ r, P.callAns c l r → R (.ok r) (P.step (.call c r) l) := by
  rw [Async.wp_sync]
  refine and_congr_right fun _ => ⟨fun h r hr => h r _ ⟨hr, rfl⟩, ?_⟩
  rintro h r l' ⟨hr, rfl⟩
  exact h r hr

/-- **An awaited operation has three outcomes** for the coroutine: the result,
and a cancellation before or after the operation took effect. -/
theorem Protocol.wp_op {o : S.Op} {R : Except S.Err (S.Res o) → L → Prop} :
    wp P.logic (op o) R l ↔ (P.awaitPre o l ∧ P.rest l) ∧
      (∀ ch r, P.opRes o l ch r → R r (P.step (.performed o ch r) l)) ∧
      (∀ ch r, P.opRes o l ch r → R (.error S.cancelled)
        (P.step (.interrupted o) (P.step (.performed o ch r) l))) ∧
      R (.error S.cancelled) (P.step (.interrupted o) l) := by
  rw [Async.wp_op]
  refine and_congr_right fun _ => ⟨fun h => ⟨?_, ?_, ?_⟩, ?_⟩
  · exact fun ch r hr => h _ _ (.inl ⟨ch, r, hr, .inl ⟨rfl, rfl⟩⟩)
  · exact fun ch r hr => h _ _ (.inl ⟨ch, r, hr, .inr ⟨rfl, rfl⟩⟩)
  · exact h _ _ (.inr ⟨rfl, rfl⟩)
  · rintro ⟨h₁, h₂, h₃⟩ r l' (⟨ch, r₀, hr, (⟨rfl, rfl⟩ | ⟨rfl, rfl⟩)⟩ | ⟨rfl, rfl⟩)
    · exact h₁ ch r hr
    · exact h₂ ch r₀ hr
    · exact h₃

/-- A call the protocol takes no notice of. -/
theorem Protocol.keeps_sync {I : L → Prop} {c : S.Call}
    (hpre : ∀ l, I l → P.callPre c l)
    (hstep : ∀ l r, I l → P.callAns c l r → I (P.step (.call c r) l)) :
    Keeps P.logic I (sync c) := fun l h =>
  Protocol.wp_sync.mpr ⟨hpre l h, fun r hr => hstep l r h hr⟩

/-- An operation the protocol takes no notice of. -/
theorem Protocol.keeps_op {I : L → Prop} {o : S.Op}
    (hpre : ∀ l, I l → P.awaitPre o l ∧ P.rest l)
    (hdone : ∀ l ch r, I l → P.opRes o l ch r → I (P.step (.performed o ch r) l))
    (hint : ∀ l, I l → I (P.step (.interrupted o) l)) :
    Keeps P.logic I (op o) := fun l h =>
  Protocol.wp_op.mpr ⟨hpre l h, fun ch r hr => hdone l ch r h hr,
    fun ch r hr => hint _ (hdone l ch r h hr), hint l h⟩

end Rules

/-! ## The pool

A coroutine is kept as what is left of its program. A step of its own takes the
tree apart at its root, and a result is put into the continuation, so there is
no program counter and nothing to be restored.

A loop that runs a coroutine is busy with it until it suspends or ends. The
other coroutines of the loop wait, those of other loops do not. -/

/-- A coroutine in the pool. Between the resolution of what it awaits and its next
step others may run, which is why a result can wait for it. -/
inductive Thread (S : Sig) where
  /-- about to make a call -/
  | running (c : S.Call) (k : S.Ans c → Co S Unit)
  /-- awaiting an operation that is not resolved yet -/
  | waiting (o : S.Op) (k : Except S.Err (S.Res o) → Co S Unit)
  /-- the operation is resolved, the loop has not resumed the coroutine yet -/
  | ready (o : S.Op) (r : Except S.Err (S.Res o))
      (k : Except S.Err (S.Res o) → Co S Unit)
  /-- cancelled, the loop has not resumed the coroutine yet -/
  | cancelling (o : S.Op) (k : Except S.Err (S.Res o) → Co S Unit)
  /-- ended -/
  | finished (r : Except S.Err Unit)

/-- Where a coroutine stands after a step of its own. -/
def Thread.settle : Co S Unit → Thread S
  | .ret _ => .finished (.ok ())
  | .throw e => .finished (.error e)
  | .call c k => .running c k
  | .await o k => .waiting o k

/-- Whether the coroutine is in the middle of its own steps. -/
def Thread.isRunning : Thread S → Bool
  | .running _ _ => true
  | _ => false

variable {W T Λ J E : Type}

/-- **The semantics of the vocabulary**: worlds `W`, coroutines named by `T` and run
by the loops `Λ`, programs for the jobs `J`, and events `E` of the environment.
Coroutines of one loop take turns at their awaits; those of different loops are
interleaved in any way. -/
structure Host (S : Sig) (W T Λ J E : Type) where
  /-- the loop that runs a coroutine -/
  loop : T → Λ
  /-- the program of a job -/
  program : T → J → Co S Unit
  /-- the answer to a call and the world after it -/
  call : W → T → (c : S.Call) → S.Ans c × W
  /-- the result of an operation and the world after it, unless the operation
  cannot be resolved in this way now -/
  perform : W → T → (o : S.Op) → S.Choice →
    Option (Except S.Err (S.Res o) × W)
  /-- whether the operation is carried out by a thread of its own, so that it
  can be resolved while the loop is busy -/
  offLoop : S.Op → Bool
  /-- reclaiming what an ended coroutine left behind -/
  reap : W → T → S.Choice → Option W
  /-- an event of the environment -/
  env : W → E → Option W
  /-- the loop an event of the environment needs for itself, if any -/
  envLoop : E → Option Λ

/-- An entry of the log. It is an event with the coroutine it has happened to, or
something that has happened outside. -/
inductive Entry (S : Sig) (T E : Type) where
  | thread (t : T) (e : Event S)
  | env (e : E)

/-- **The state of the pool.** The log is part of it, so that what has happened can
be referred to. -/
structure Pool (S : Sig) (W T Λ E : Type) where
  world : W
  threads : T → Option (Thread S)
  /-- the coroutine each loop is running -/
  current : Λ → Option T
  /-- what has happened, latest first -/
  log : List (Entry S T E)

/-- The pool before any coroutine is started. -/
def Pool.start (w : W) : Pool S W T Λ E where
  world := w
  threads _ := none
  current _ := none
  log := []

/-- What may happen next. Which of the possible actions is taken is left open: a
scheduler, the network and the user are all of them outside. -/
inductive Action (S : Sig) (T J E : Type) where
  /-- a coroutine is created for a job and runs up to its first call or await -/
  | spawn (t : T) (j : J)
  /-- a coroutine makes the call it is about to make -/
  | exec (t : T)
  /-- the operation a coroutine awaits is resolved -/
  | perform (t : T) (ch : S.Choice)
  /-- a suspended coroutine is cancelled -/
  | interrupt (t : T)
  /-- a loop resumes a coroutine -/
  | resume (t : T)
  /-- a resource left behind by an ended coroutine is reclaimed -/
  | reap (t : T) (ch : S.Choice)
  /-- something else happens -/
  | env (e : E)

variable [DecidableEq T] [DecidableEq Λ]

namespace Pool

/-- Put a coroutine in its new place; its loop is busy exactly while it
runs. -/
def put (H : Host S W T Λ J E) (p : Pool S W T Λ E) (t : T) (th : Thread S) :
    Pool S W T Λ E :=
  { p with
    threads := Function.update p.threads t (some th)
    current := Function.update p.current (H.loop t)
      (if th.isRunning then some t else none) }

/-- Record an entry, with the world it leads to. -/
def record (p : Pool S W T Λ E) (w : W) (e : Entry S T E) : Pool S W T Λ E :=
  { p with world := w, log := e :: p.log }

section

variable (H : Host S W T Λ J E) (p : Pool S W T Λ E) (t : T) (th : Thread S)

@[simp] theorem put_threads_self : (p.put H t th).threads t = some th :=
  Function.update_self ..

@[simp] theorem put_threads_ne {t' : T} (h : t' ≠ t) :
    (p.put H t th).threads t' = p.threads t' :=
  Function.update_of_ne h ..

@[simp] theorem put_current_self :
    (p.put H t th).current (H.loop t) = if th.isRunning then some t else none :=
  Function.update_self ..

@[simp] theorem put_current_ne {ℓ : Λ} (h : ℓ ≠ H.loop t) :
    (p.put H t th).current ℓ = p.current ℓ :=
  Function.update_of_ne h ..

@[simp] theorem put_world : (p.put H t th).world = p.world := rfl

@[simp] theorem put_log : (p.put H t th).log = p.log := rfl

omit [DecidableEq T] [DecidableEq Λ] in
@[simp] theorem record_log (w : W) (e : Entry S T E) :
    (p.record w e).log = e :: p.log := rfl

end

/-- **One step of the pool**, if the action is possible. It is a function, so that
runs can be computed. -/
def step (H : Host S W T Λ J E) (p : Pool S W T Λ E) :
    Action S T J E → Option (Pool S W T Λ E)
  | .spawn t j =>
    match p.threads t, p.current (H.loop t) with
    | none, none => some (p.put H t (.settle (H.program t j)))
    | _, _ => none
  | .exec t =>
    match p.threads t with
    | some (.running c k) =>
      let a := H.call p.world t c
      some ((p.record a.2 (.thread t (.call c a.1))).put H t (.settle (k a.1)))
    | _ => none
  | .perform t ch =>
    match p.threads t with
    | some (.waiting o k) =>
      if H.offLoop o || (p.current (H.loop t)).isNone then
        (H.perform p.world t o ch).map fun a =>
          { p.record a.2 (.thread t (.performed o ch a.1)) with
            threads := Function.update p.threads t (some (.ready o a.1 k)) }
      else none
    | _ => none
  | .interrupt t =>
    match p.threads t with
    | some (.waiting o k) | some (.ready o _ k) =>
      some { p.record p.world (.thread t (.interrupted o)) with
        threads := Function.update p.threads t (some (.cancelling o k)) }
    | _ => none
  | .resume t =>
    match p.threads t, p.current (H.loop t) with
    | some (.ready _ r k), none => some (p.put H t (.settle (k r)))
    | some (.cancelling _ k), none =>
      some (p.put H t (.settle (k (.error S.cancelled))))
    | _, _ => none
  | .reap t ch =>
    match p.threads t with
    | some (.finished _) =>
      (H.reap p.world t ch).map fun w => p.record w (.thread t (.reaped ch))
    | _ => none
  | .env e =>
    if (H.envLoop e).all fun ℓ => (p.current ℓ).isNone then
      (H.env p.world e).map fun w => p.record w (.env e)
    else none

end Pool

/-- **A run whose steps all meet a condition.** The condition sees the world and the
log before the step, and the entry the step is about to record. So it can say when
something happens, and not what becomes of it. -/
inductive Steps (H : Host S W T Λ J E)
    (C : W → List (Entry S T E) → Entry S T E → Prop) :
    Pool S W T Λ E → Pool S W T Λ E → Prop where
  | refl (p) : Steps H C p p
  | tail {p q q'} (a : Action S T J E) (h : Steps H C p q)
      (hstep : q.step H a = some q')
      (hC : ∀ e, q'.log = e :: q.log → C q.world q.log e) : Steps H C p q'

end Async
