import Yascheduler.Application.MessageBus
import Mathlib.Data.List.Perm.Subperm
import Mathlib.Tactic.Tauto

/-!
# When events are published exactly once

What the unit of work should do is kept by a `Ledger`: an event is due when an
instance that carries it is saved, unless it is due already or has been
published; a COMMIT that takes effect publishes what is due, and everything
else that ends the transaction discards it. The unit of work keeps instances
instead, and hands over all the events of all of them.

The two agree on a sequence of operations exactly when it is `Clean`. The
proof runs the unit of work, the ledger and the books of `Clean` side by side
(`InStep`); at each COMMIT that takes effect they agree on what is handed over
if and only if the books are clean there.

Why the ledger is no part of the code: it would have to be told which COMMITs
took effect, and the code is not. What it stands for is what a webhook should
have been told by the end – each event of a committed change, once.
-/

namespace Yascheduler

/-! ## What should be published

The ledger is told whether a COMMIT took effect, and it knows events and no
instances. This is the opposite of what the unit of work knows, and it is what
makes the ledger a measure for it. -/

/-- The events that are due, and those that have been published. It is kept beside
the code, and says what a unit of work is for: it knows neither instances nor how
often they are saved. -/
structure Ledger where
  connected : Bool := true
  due : List EventObject := []
  published : List EventObject := []

namespace Ledger

/-- What an operation does to the ledger, and what it publishes. Events become due
when an instance that carries them is saved, and what is due is published by the
COMMIT that makes it true. -/
def step (l : Ledger) (op : UowOp) : Ledger × List EventObject :=
  if l.connected then
    match op with
    | .save task found =>
      (if found then
        { l with due := l.due ++
            task.events.filter fun e => e ∉ l.due ∧ e ∉ l.published }
      else l, [])
    | .commit ok _ =>
      if ok then ({ l with due := [], published := l.published ++ l.due }, l.due)
      else ({ l with due := [] }, [])
    | .rollback => ({ l with due := [] }, [])
    | .exit _ => ({ l with connected := false, due := [] }, [])
  else (l, [])

/-- What a sequence publishes, operation by operation. -/
def run (l : Ledger) : List UowOp → List (List EventObject)
  | [] => []
  | op :: ops => (l.step op).2 :: run (l.step op).1 ops

end Ledger

/-- **Exactly once, in order, after the COMMIT**: at every operation of the
sequence, each handler is handed the events of its type that are published there.
Handlers of one type are not told apart, so each of them gets all of its events. -/
def PublishesOnce (registry : Registry) (ops : List UowOp) : Prop :=
  ∀ type i, i < registry type →
    (UowState.run registry {} ops).map (handedTo type i) =
      (Ledger.run {} ops).map (ofType type)

/-! ## When it is

There are three ways for the two to come apart, and the books have an entry for
each: instances that are left from a COMMIT that failed, events that are
carried by several of the instances that were saved, and events that were
published before and are carried still. -/

/-- The books of a sequence: the events of the instances saved before a COMMIT that
failed and was not followed by a rollback, those of the instances saved since, and
those published. Unlike the ledger they count an event as often as it is carried. -/
structure Books where
  connected : Bool := true
  left : List EventObject := []
  since : List EventObject := []
  published : List EventObject := []

namespace Books

/-- What an operation does to the books. -/
def step (b : Books) (op : UowOp) : Books :=
  if b.connected then
    match op with
    | .save task found => if found then { b with since := b.since ++ task.events } else b
    | .commit ok _ =>
      if ok then { b with left := [], since := [], published := b.published ++ b.since }
      else { b with left := b.left ++ b.since, since := [] }
    | .rollback => { b with left := [], since := [] }
    | .exit _ => { b with connected := false, since := [] }
  else b

/-- Of a type: nothing is left from a failed COMMIT, and what was saved since is
carried once and has not been published. Each of the three is a way to publish an
event that is not due. -/
def CleanOf (b : Books) (type : EventType) : Prop :=
  ofType type b.left = [] ∧ (ofType type b.since).Nodup ∧
    ∀ e ∈ ofType type b.since, e ∉ b.published

/-- Every COMMIT that takes effect finds the books clean, of each type that
has a handler. -/
def Clean (registry : Registry) (b : Books) : List UowOp → Prop
  | [] => True
  | op :: ops =>
    (∀ raises, op = .commit true raises → b.connected = true →
      ∀ type, 0 < registry type → b.CleanOf type) ∧ Clean registry (b.step op) ops

end Books

/-! ## The three side by side

All three read the same operations, so they are run in step, and at each
operation it is known what each has. Only at a COMMIT that takes effect are
they compared, type by type, because a handler is handed the events of its
type. -/

/-- The unit of work, the ledger and the books after the same operations. The unit
of work collects what the books have written down, and the ledger has it without
repetitions. -/
structure InStep (u : UowState) (l : Ledger) (b : Books) : Prop where
  ledger : l.connected = u.connected
  books : b.connected = u.connected
  saved : u.connected = true → u.collectEvents = b.left ++ b.since
  due : l.due.Sublist b.since
  nodup : l.due.Nodup
  mem_due : ∀ e, e ∈ l.due ↔ e ∈ b.since ∧ e ∉ b.published
  published : ∀ e, e ∈ l.published ↔ e ∈ b.published

/-- Nothing has been saved yet. -/
theorem InStep.start : InStep {} {} {} where
  ledger := rfl
  books := rfl
  saved _ := rfl
  due := .slnil
  nodup := .nil
  mem_due e := by simp
  published e := Iff.rfl

variable {u : UowState} {l : Ledger} {b : Books}

/-- Saving an instance makes its new events due. -/
theorem InStep.save (h : InStep u l b) (hu : u.connected = true) (task : EventTuple) :
    InStep { u with savedTasks := u.savedTasks ++ [task] }
      { l with due := l.due ++
          task.events.filter fun e => e ∉ l.due ∧ e ∉ l.published }
      { b with since := b.since ++ task.events } where
  ledger := h.ledger
  books := h.books
  saved _ := by
    have hsaved := h.saved hu
    simp only [UowState.collectEvents, List.flatMap_append, List.flatMap_singleton] at hsaved ⊢
    rw [hsaved, List.append_assoc]
  due := h.due.append List.filter_sublist
  nodup := by
    refine List.nodup_append.mpr ⟨h.nodup, task.nodup.filter _, ?_⟩
    rintro e he e' he' rfl
    have hnew := of_decide_eq_true (List.mem_filter.mp he').2
    exact hnew.1 he
  mem_due e := by
    have hdue := h.mem_due e
    have hpub := h.published e
    simp only [List.mem_append, List.mem_filter, decide_eq_true_eq]
    tauto
  published := h.published

/-- Discarding what is due. A rollback and a failing COMMIT both do so, but only the
first forgets the instances. -/
theorem InStep.discard (h : InStep u l b) {left : List EventObject}
    {savedTasks : List EventTuple} {connected : Bool}
    (hsaved : connected = true → savedTasks.flatMap (·.events) = left) :
    InStep { connected := connected, savedTasks := savedTasks }
      { l with connected := connected, due := [] }
      { b with connected := connected, left := left, since := [] } where
  ledger := rfl
  books := rfl
  saved hu := (hsaved hu).trans (List.append_nil left).symm
  due := .slnil
  nodup := .nil
  mem_due e := by simp
  published := h.published

/-- Publishing what is due. -/
theorem InStep.publish (h : InStep u l b) :
    InStep { u with savedTasks := [] }
      { l with due := [], published := l.published ++ l.due }
      { b with left := [], since := [], published := b.published ++ b.since } where
  ledger := h.ledger
  books := h.books
  saved _ := rfl
  due := .slnil
  nodup := .nil
  mem_due e := by simp
  published e := by
    have hdue := h.mem_due e
    have hpub := h.published e
    simp only [List.mem_append]
    tauto

/-- **At a COMMIT that takes effect**, a type is handed what is due exactly when the
books are clean of it. A list is equal to one of its sublists only if nothing was
left out. -/
theorem InStep.ofType_eq_iff (h : InStep u l b) (hu : u.connected = true)
    (type : EventType) :
    ofType type u.collectEvents = ofType type l.due ↔ b.CleanOf type := by
  have hsplit : ofType type u.collectEvents = ofType type b.left ++ ofType type b.since := by
    rw [h.saved hu]
    exact List.filter_append ..
  have hsub : (ofType type l.due).Sublist (ofType type b.since) := h.due.filter _
  have hmem (e : EventObject) : e ∈ ofType type l.due ↔
      e ∈ ofType type b.since ∧ e ∉ b.published := by
    have hdue := h.mem_due e
    simp only [ofType, List.mem_filter]
    tauto
  rw [hsplit]
  constructor
  · intro heq
    -- what is due is part of what was saved since, so nothing else is there
    have hlen := congrArg List.length heq
    rw [List.length_append] at hlen
    have hle := hsub.length_le
    have hleft : ofType type b.left = [] := List.eq_nil_of_length_eq_zero (by omega)
    have hsince : ofType type b.since = ofType type l.due := by
      rwa [hleft, List.nil_append] at heq
    refine ⟨hleft, hsince ▸ h.nodup.filter _, fun e he => ?_⟩
    exact ((hmem e).mp (hsince ▸ he)).2
  · rintro ⟨hleft, hnodup, hnew⟩
    rw [hleft, List.nil_append]
    refine (hsub.eq_of_length_le ?_).symm
    exact (List.subperm_of_subset hnodup fun e he => (hmem e).mpr ⟨he, hnew e he⟩).length_le

/-- The handlers of an operation raise exceptions only. -/
def UowOp.Isolated : UowOp → Prop
  | .commit _ raises => ∀ i, ∀ e ∈ raises i, e.isException = true
  | _ => True

/-- **One operation** keeps the three in step, and hands over what is
published if and only if, being a COMMIT that takes effect, it finds the books
clean. -/
theorem InStep.step (h : InStep u l b) (registry : Registry) {op : UowOp}
    (hop : op.Isolated) :
    InStep (u.step registry op).1 (l.step op).1 (b.step op) ∧
      ((∀ type i, i < registry type →
        handedTo type i (u.step registry op).2 = ofType type (l.step op).2) ↔
      (∀ raises, op = .commit true raises → b.connected = true →
        ∀ type, 0 < registry type → b.CleanOf type)) := by
  obtain ⟨connected, savedTasks⟩ := u
  obtain ⟨connected', due, published⟩ := l
  obtain ⟨connected'', left, since, published'⟩ := b
  obtain rfl : connected' = connected := h.ledger
  obtain rfl : connected'' = connected' := h.books
  cases connected'' with
  | false => exact ⟨h, iff_of_true (fun _ _ _ => rfl) fun _ _ hfalse => nomatch hfalse⟩
  | true =>
    cases op with
    | save task found =>
      refine ⟨?_, iff_of_true (fun _ _ _ => rfl) fun _ hcommit => nomatch hcommit⟩
      cases found with
      | true => exact h.save rfl task
      | false => exact h
    | rollback =>
      refine ⟨?_, iff_of_true (fun _ _ _ => rfl) fun _ hcommit => nomatch hcommit⟩
      exact h.discard fun _ => rfl
    | exit failed =>
      refine ⟨?_, iff_of_true (fun _ _ _ => rfl) fun _ hcommit => nomatch hcommit⟩
      exact h.discard fun hfalse => nomatch hfalse
    | commit ok raises =>
      cases ok with
      | false =>
        refine ⟨?_, iff_of_true (fun _ _ _ => rfl) fun _ hcommit => nomatch hcommit⟩
        exact h.discard fun _ => h.saved rfl
      | true =>
        refine ⟨h.publish, ?_⟩
        show (∀ type i, i < registry type → handedTo type i
          (dispatch raises (handOvers registry (UowState.collectEvents _))).1 =
            ofType type due) ↔ _
        rw [dispatch_all _ hop]
        constructor
        · intro hall raises' hcommit _ type hpos
          refine (h.ofType_eq_iff rfl type).mp ?_
          rw [← handedTo_handOvers hpos]
          exact hall type 0 hpos
        · intro hclean type i hi
          rw [handedTo_handOvers hi]
          exact (h.ofType_eq_iff rfl type).mpr
            (hclean raises rfl rfl type (Nat.zero_lt_of_lt hi))

/-- **A whole sequence** hands over what is published if and only if it is clean at
every COMMIT. By induction on the operations: the three stay in step whether or not
one of them went wrong. -/
theorem InStep.run (registry : Registry) {ops : List UowOp}
    (hops : ∀ op ∈ ops, op.Isolated) (h : InStep u l b) :
    (∀ type i, i < registry type →
      (u.run registry ops).map (handedTo type i) = (l.run ops).map (ofType type)) ↔
    b.Clean registry ops := by
  induction ops generalizing u l b with
  | nil => exact iff_of_true (fun _ _ _ => rfl) trivial
  | cons op ops ih =>
    obtain ⟨hnext, hhere⟩ := h.step registry (hops op List.mem_cons_self)
    have hrest := ih (fun o ho => hops o (List.mem_cons_of_mem op ho)) hnext
    unfold Books.Clean
    rw [← hhere, ← hrest]
    simp only [UowState.run, Ledger.run, List.map_cons, List.cons.injEq]
    exact ⟨fun hall => ⟨fun type i hi => (hall type i hi).1, fun type i hi => (hall type i hi).2⟩,
      fun hall type i hi => ⟨hall.1 type i hi, hall.2 type i hi⟩⟩

/-- **When every event is published exactly once.** For every sequence of operations
on a unit of work and any handlers that raise exceptions or not, each handler is
handed exactly what is published, if and only if every COMMIT that takes effect
finds the books clean: no event with a handler is left from a failed COMMIT, is
carried by two of the instances saved since, or has been published. -/
theorem publishesOnce {registry : Registry} {ops : List UowOp}
    (hops : ∀ op ∈ ops, op.Isolated) :
    PublishesOnce registry ops ↔ Books.Clean registry {} ops :=
  InStep.start.run registry hops

namespace Events

def eventOf (kind : EventKind) : DomainEvent where
  taskId := 1
  webhookUrl := none
  webhookCustomParams := []
  kind := kind

def allocated : EventObject := ⟨0, eventOf (.taskAllocated 7 "dummy")⟩

def completed : EventObject := ⟨1, eventOf (.taskCompleted "out")⟩

/-- A task that was loaded and started. -/
def running : EventTuple := EventTuple.advance {} allocated (by decide)

/-- The same task, completed. -/
def done : EventTuple := running.advance completed (by decide)

/-- Every type has one handler. -/
def registry : Registry := fun _ => 1

/-- A handler that always fails. -/
def failing : Nat → Option Exc := fun _ => some (.other "webhook")

end Events

open Events

/-- **An event is published twice.** Both instances of a task that is started and
then completed are saved and committed. The second instance still carries the events
of the first, and what is collected is not looked at for repetitions. -/
theorem event_published_twice :
    ¬ PublishesOnce registry [.save running true, .commit true fun _ => none,
      .save done true, .commit true fun _ => none] := by
  intro h
  exact absurd (h .taskAllocated 0 (by decide)) (by decide)

/-- A COMMIT fails, the start is rolled back, and then the completed task is saved
and committed, with a handler that fails. The rollback has emptied the books, so the
condition holds, and the handler that fails takes nothing from the others. -/
theorem publishesOnce_retried :
    PublishesOnce registry [.save running true, .commit false fun _ => none, .rollback,
      .save done true, .commit true failing] := by
  refine (publishesOnce ?_).mpr ⟨?_, ?_, ?_, ?_, ?_, trivial⟩
  · intro op hop
    simp only [List.mem_cons, List.not_mem_nil, or_false] at hop
    rcases hop with rfl | rfl | rfl | rfl | rfl
    · trivial
    · exact fun _ _ hnone => nomatch hnone
    · trivial
    · trivial
    · rintro i e he
      rw [← Option.some.inj he]
      rfl
  · exact fun _ hcommit => nomatch hcommit
  · exact fun _ hcommit => nomatch hcommit
  · exact fun _ hcommit => nomatch hcommit
  · exact fun _ hcommit => nomatch hcommit
  · rintro raises - - type -
    refine ⟨rfl, done.nodup.filter _, fun e _ hmem => ?_⟩
    exact absurd hmem List.not_mem_nil

end Yascheduler
