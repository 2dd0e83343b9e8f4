import Yascheduler.Domain
import Mathlib.Data.List.Nodup

/-!
# Events and the message bus

The unit of work as a state machine: what its methods do to the list of saved
instances, and which hand-overs of events to handlers they make. The
coroutines that suspend inside these methods are those of
`Application.UnitOfWork`.

An instance of a task is immutable, and a transition returns a new one whose
event tuple is that of its predecessor and one new event object. All that the
unit of work ever reads of a saved instance is this tuple.

Which events an instance carries is what makes publishing them once difficult.
The new instance has all the events of the old one, published or not, and no
marks on them. The unit of work saves instances, not events, and several
instances of one task may be saved in one transaction.
-/

namespace Yascheduler

/-! ## Events

An event is an object: two events that say the same are different events, and
one that is carried by two instances is one event. This is why it has an
identity here, which nothing in the code reads. -/

/-- The classes of domain events. Handlers are registered for a class and not for a
task. -/
inductive EventType where
  | taskCreated
  | taskAllocated
  | taskCompleted
  | taskFailed
  | taskAbandoned
deriving DecidableEq

/-- `type(event)`. -/
def EventKind.type : EventKind → EventType
  | .taskCreated _ => .taskCreated
  | .taskAllocated _ _ => .taskAllocated
  | .taskCompleted _ => .taskCompleted
  | .taskFailed _ => .taskFailed
  | .taskAbandoned _ => .taskAbandoned

/-- An event object. Two transitions append two objects, also when what they
say is the same. -/
structure EventObject where
  serial : Nat
  event : DomainEvent
deriving DecidableEq

/-- `type(event)`. -/
def EventObject.type (e : EventObject) : EventType := e.event.kind.type

/-- The event tuple of an instance of a task. Its objects are distinct by
construction, though two of them may say the same. -/
structure EventTuple where
  events : List EventObject := []
  nodup : events.Nodup := by decide

/-- `_advance`: a transition appends its event. The tuple of the instance before is
left as it was. -/
def EventTuple.advance (task : EventTuple) (e : EventObject) (h : e ∉ task.events) :
    EventTuple where
  events := task.events ++ [e]
  nodup := by
    refine List.nodup_append.mpr ⟨task.nodup, List.nodup_singleton e, ?_⟩
    rintro a ha b hb rfl
    exact h (List.mem_singleton.mp hb ▸ ha)

/-! ## The bus -/

/-- How many handlers are registered for each type, in order of registration. What a
handler does plays no role here, only whether it raises. -/
abbrev Registry := EventType → Nat

/-- The call of a handler of the event's type with the event. The number says which
of the handlers of the type it is. -/
structure HandOver where
  event : EventObject
  handler : Nat
deriving DecidableEq

/-- The calls that events are due to make: for each event, one of each handler of
its type. Whether they are made depends on what the earlier ones raise. -/
def handOvers (registry : Registry) (events : List EventObject) : List HandOver :=
  events.flatMap fun e => (List.range (registry e.type)).map fun i =>
    { event := e, handler := i }

/-- `MessageBus.dispatch`: make the calls one after the other, where the `i`-th
call may raise. An exception is logged; what is no `Exception` ends the
loop. -/
def dispatch (raises : Nat → Option Exc) : List HandOver → List HandOver × Option Exc
  | [] => ([], none)
  | call :: calls =>
    let rest := dispatch (fun i => raises (i + 1)) calls
    match raises 0 with
    | none => (call :: rest.1, rest.2)
    | some e => if e.isException then (call :: rest.1, rest.2) else ([call], some e)

/-! ## The unit of work

The state of a unit of work is the list of the instances that were saved in it.
A COMMIT hands over the events of all of them and empties the list, a rollback
only empties it, and a COMMIT that raises does neither. -/

/-- A unit of work: whether its connection is open, and the instances saved
and not yet collected. -/
structure UowState where
  connected : Bool := true
  savedTasks : List EventTuple := []

/-- What can be done with a unit of work: save an instance, whose row is found
or not; commit, where the COMMIT takes effect or raises, and the handlers may
raise; roll back; and leave, after an exception or without. -/
inductive UowOp where
  | save (task : EventTuple) (found : Bool)
  | commit (ok : Bool) (raises : Nat → Option Exc)
  | rollback
  | exit (failed : Bool)

namespace UowState

/-- `collect_events`: the events of all saved instances. An instance that was saved
twice is there twice. -/
def collectEvents (u : UowState) : List EventObject :=
  u.savedTasks.flatMap (·.events)

/-- **The methods of the unit of work**, and the hand-overs they make. On a
unit of work that was left they raise. -/
def step (registry : Registry) (u : UowState) (op : UowOp) : UowState × List HandOver :=
  if u.connected then
    match op with
    | .save task found =>
      (if found then { u with savedTasks := u.savedTasks ++ [task] } else u, [])
    | .commit ok raises =>
      if ok then
        ({ u with savedTasks := [] },
          (dispatch raises (handOvers registry u.collectEvents)).1)
      else (u, [])
    | .rollback => ({ u with savedTasks := [] }, [])
    | .exit failed =>
      ({ connected := false, savedTasks := if failed then [] else u.savedTasks }, [])
  else (u, [])

/-- The hand-overs of a sequence of operations, operation by operation. -/
def run (registry : Registry) (u : UowState) : List UowOp → List (List HandOver)
  | [] => []
  | op :: ops => (u.step registry op).2 :: run registry (u.step registry op).1 ops

end UowState

/-! ## What a handler is handed

A handler is called with the events of its type. Seen from one handler the rest
of the bus does not exist, so what is published is compared handler by handler.
-/

/-- The events of a type. -/
def ofType (type : EventType) (events : List EventObject) : List EventObject :=
  events.filter (·.type = type)

/-- The events that calls hand to the `i`-th handler of a type. -/
def handedTo (type : EventType) (i : Nat) (calls : List HandOver) : List EventObject :=
  (calls.filter fun call => call.event.type = type ∧ call.handler = i).map (·.event)

/-- **Handlers that raise are isolated**: all calls are made. This holds of
exceptions only; what is no `Exception` ends the loop. -/
theorem dispatch_all (calls : List HandOver) {raises : Nat → Option Exc}
    (h : ∀ i, ∀ e ∈ raises i, e.isException = true) : dispatch raises calls = (calls, none) := by
  induction calls generalizing raises with
  | nil => rfl
  | cons call calls ih =>
    unfold dispatch
    rw [ih fun i => h (i + 1)]
    cases he : raises 0 with
    | none => rfl
    | some e => exact if_pos (h 0 e he)

/-- **Each handler of a type is handed the events of the type**, in order. The events
of other types are not in its way. -/
theorem handedTo_handOvers {registry : Registry} {type : EventType} {i : Nat}
    (hi : i < registry type) (events : List EventObject) :
    handedTo type i (handOvers registry events) = ofType type events := by
  induction events with
  | nil => rfl
  | cons e events ih =>
    have hsplit : handedTo type i (handOvers registry (e :: events)) =
        handedTo type i ((List.range (registry e.type)).map fun j =>
          { event := e, handler := j }) ++ handedTo type i (handOvers registry events) := by
      simp only [handedTo, handOvers, List.flatMap_cons, List.filter_append, List.map_append]
    rw [hsplit, ih]
    unfold handedTo ofType
    rw [List.filter_map, List.map_map, List.filter_cons]
    by_cases htype : e.type = type
    · -- of the calls with this event, exactly the `i`-th is to this handler
      have hone : (List.range (registry e.type)).filter (· = i) = [i] := by
        rw [htype, List.filter_eq,
          List.count_eq_one_of_mem List.nodup_range (List.mem_range.mpr hi)]
        rfl
      simp only [Function.comp_def, htype, true_and, decide_true, if_true] at hone ⊢
      rw [hone]
      rfl
    · simp [Function.comp_def, htype]

end Yascheduler
