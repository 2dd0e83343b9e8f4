import Yascheduler.Application.Memory
import Yascheduler.Async.Machine

/-!
# The queue between producers and workers

`UniqueQueue` adds to the queue of `asyncio` that a message is not taken in
while one with its identifier is queued or in progress. A producer holds a lock
from this test until its message is in the queue, and may wait in between for a
free slot.

A coroutine runs from one `await` to the next. Whether and when a waiting
coroutine is resumed is left open: one that waits for a slot or for a message
tests again when it is resumed, and one that waits for the lock is resumed when
the lock is free. Histories are kept of the messages that were taken in and of
those that were handed out.

The memory of a process has the same queue with `put`, `get` and `item_done` as
single steps.

The waiting coroutines are part of the state, because what they have been told so
far is: a producer that has passed the test for a duplicate and waits for a slot
holds the lock, and a cancellation there has to give it back. A model in which
`put` is one step could not lose a message at that point, nor take one in twice.
-/

namespace Yascheduler.Queueing

/-- A message. To the queue, messages with one identifier are equal. What a message
carries besides is not compared. -/
structure UMessage (I P : Type) where
  id : I
  payload : P

/-- The state of a queue. Each coroutine of `T` may hold the lock. -/
structure UniqueQueue (T I P : Type) where
  maxsize : Int
  putLock : Option T := none
  queue : List (UMessage I P) := []
  donePending : List (UMessage I P) := []
  unfinishedTasks : Nat := 0
  finished : Bool := true

namespace UniqueQueue

variable {T I P : Type} [DecidableEq I]

/-- `full`. -/
def full (q : UniqueQueue T I P) : Bool :=
  if q.maxsize ≤ 0 then false else q.maxsize ≤ q.queue.length

/-- `item in q._queue or item in q._done_pending`. -/
def contains (q : UniqueQueue T I P) (item : UMessage I P) : Bool :=
  q.queue.any (·.id = item.id) || q.donePending.any (·.id = item.id)

/-- `put_nowait`, unless the queue is full. -/
def putNowait (q : UniqueQueue T I P) (item : UMessage I P) :
    Option (UniqueQueue T I P) :=
  if q.full then none
  else some { q with
    queue := q.queue ++ [item]
    unfinishedTasks := q.unfinishedTasks + 1
    finished := false }

/-- `_done_pending.add`. -/
def addPending (pending : List (UMessage I P)) (item : UMessage I P) :
    List (UMessage I P) :=
  if pending.any (·.id = item.id) then pending else item :: pending

/-- `get_nowait`, unless the queue is empty. -/
def getNowait (q : UniqueQueue T I P) : Option (UMessage I P × UniqueQueue T I P) :=
  match q.queue with
  | [] => none
  | item :: rest =>
    some (item, { q with queue := rest, donePending := addPending q.donePending item })

/-- `asyncio.Queue.task_done`, and what it raises. -/
def taskDone (q : UniqueQueue T I P) : UniqueQueue T I P × Option Exc :=
  if q.unfinishedTasks = 0 then
    (q, some (.other "task_done() called too many times"))
  else
    ({ q with
      unfinishedTasks := q.unfinishedTasks - 1
      finished := if q.unfinishedTasks - 1 = 0 then true else q.finished }, none)

/-- `item_done`, and what it raises. -/
def itemDone (q : UniqueQueue T I P) (item : UMessage I P) :
    UniqueQueue T I P × Option Exc :=
  if q.donePending.any (·.id = item.id) then
    taskDone { q with donePending := q.donePending.eraseP (·.id = item.id) }
  else
    (q, some (.key "_done_pending"))

end UniqueQueue

/-! ## Producers and workers

A coroutine stands at a call that it has not returned from, and what it waits
for there is a lock, a slot, a message or the end of all work. It is resumed
when the scheduler likes, tests again, and may have to wait once more. A
cancellation can meet it at each of these places. -/

/-- Where a coroutine stands. Whatever it has been told so far is part of the place.
-/
inductive Waiting (I P : Type) where
  /-- in no method of the queue -/
  | idle
  /-- in `put`, waiting for the lock -/
  | lock (item : UMessage I P)
  /-- in `put`, with the lock, waiting for a free slot -/
  | putter (item : UMessage I P)
  /-- in `get`, waiting for a message -/
  | getter
  /-- a worker between `get` and `item_done` -/
  | working (msg : UMessage I P)
  /-- a worker whose `item_done` has raised -/
  | failed (e : Exc)
  /-- in `join`, waiting -/
  | join
  /-- let go by `join` -/
  | joined

/-- A coroutine that waits in `join` is let go. -/
def Waiting.letGo {I P : Type} : Waiting I P → Waiting I P
  | .join => .joined
  | task => task

/-- What a coroutine does next. The order of the coroutines is left open, and so is
when one is cancelled. -/
inductive Action (I P : Type) where
  | put (item : UMessage I P)
  | get
  | join
  | resume
  | itemDone
  | cancel

/-- The queue, the coroutines, and the messages taken in and handed out so far,
in this order. -/
structure State (T I P : Type) where
  q : UniqueQueue T I P
  task : T → Waiting I P
  accepted : List (UMessage I P)
  delivered : List (UMessage I P)

namespace State

variable {T I P : Type} [DecidableEq T] [DecidableEq I]

/-- An empty queue. -/
def init (maxsize : Int) : State T I P where
  q := { maxsize := maxsize }
  task _ := .idle
  accepted := []
  delivered := []

/-- A coroutine moves. -/
def move (s : State T I P) (t : T) (task : Waiting I P) : State T I P :=
  { s with task := Function.update s.task t task }

/-- Everyone who waits in `join` is let go. -/
def letGo (s : State T I P) : State T I P :=
  { s with task := fun t => (s.task t).letGo }

/-- The loop of `asyncio.Queue.put`, by a coroutine that holds the lock: the
message is put in and the lock released, or the coroutine waits for a slot. -/
def insert (s : State T I P) (t : T) (item : UMessage I P) : State T I P :=
  match s.q.putNowait item with
  | none => { s with q := { s.q with putLock := some t } }.move t (.putter item)
  | some q =>
    { s with
      q := { q with putLock := none }
      accepted := s.accepted ++ [item] }.move t .idle

/-- A resumed coroutine runs to its next `await`. -/
def resume (s : State T I P) (t : T) : Option (State T I P) :=
  match s.task t with
  | .lock item =>
    if s.q.putLock.isNone then
      -- skip already added
      if s.q.contains item then some (s.move t .idle) else some (s.insert t item)
    else none
  | .putter item => some (s.insert t item)
  | .getter =>
    match s.q.getNowait with
    | none => some s
    | some (msg, q) =>
      some ({ s with q := q, delivered := s.delivered ++ [msg] }.move t (.working msg))
  | .joined => some (s.move t .idle)
  | _ => none

/-- A cancelled coroutine leaves the method it waits in. A worker that is
cancelled calls `item_done` on its way out, which is a step of its own. -/
def cancel (s : State T I P) (t : T) : Option (State T I P) :=
  match s.task t with
  | .lock _ | .getter | .join | .joined => some (s.move t .idle)
  | .putter _ => some ({ s with q := { s.q with putLock := none } }.move t .idle)
  | _ => none

/-- The worker's `item_done`. -/
def itemDone (s : State T I P) (t : T) : Option (State T I P) :=
  match s.task t with
  | .working msg =>
    match s.q.itemDone msg with
    | (q, some e) => some ({ s with q := q }.move t (.failed e))
    | (q, none) =>
      let s := { s with q := q }.move t .idle
      if q.unfinishedTasks = 0 then some s.letGo else some s
  | _ => none

/-- A coroutine enters a method and runs to its first `await`. -/
def enter (s : State T I P) (t : T) (place : Waiting I P) : Option (State T I P) :=
  match s.task t with
  | .idle => some (s.move t place)
  | _ => none

/-- One step of a coroutine, if it can take it. -/
def step (s : State T I P) : T × Action I P → Option (State T I P)
  | (t, .put item) => s.enter t (.lock item)
  | (t, .get) => s.enter t .getter
  | (t, .join) =>
    s.enter t (if s.q.unfinishedTasks = 0 ∨ s.q.finished then .joined else .join)
  | (t, .resume) => s.resume t
  | (t, .itemDone) => s.itemDone t
  | (t, .cancel) => s.cancel t

end State

end Yascheduler.Queueing
