import Yascheduler.Application.Transactions
import Yascheduler.Application.Footprints

/-!
# Queues of a given size

The queues of a daemon hold a given number of messages, and a producer that has
one more waits until a worker takes one. In `system` a put never waits. For
what must not happen that makes no difference: a run in which producers wait is
a run of `system` in which they happen to be resumed late (`bounded_run`).

It does make a difference for what a cycle achieves. A producer that nobody
disturbs – no worker either – comes to its end only if all of its messages find
a place. So the cycles of the producers are executed in `boundedSystem`, and
what is proved of them says when they end (`HasRoom`) as well as how.
-/

namespace Yascheduler

open Store Async

/-! ## One queue

Whether a message is taken depends on the identifiers that are there, and
whether it has to wait on the number of messages. A message that is skipped
needs no place. So the room that is needed for several messages is found by
going through them in order. -/

namespace UniqueQueue

variable {α : Type}

/-- Nobody waits for the identifier or works on it. -/
def Idle (q : UniqueQueue α) (id : Nat) : Prop :=
  id ∉ q.queue.map Prod.fst ∧ id ∉ q.donePending

instance (q : UniqueQueue α) (id : Nat) : Decidable (q.Idle id) :=
  inferInstanceAs (Decidable (_ ∧ _))

/-- `full`, for a queue of this size. -/
def full (q : UniqueQueue α) (size : Nat) : Bool :=
  0 < size && size ≤ q.queue.length

/-- The queue has room for that many more messages. -/
def HasRoom (q : UniqueQueue α) (size k : Nat) : Prop :=
  k = 0 ∨ size = 0 ∨ q.queue.length + k ≤ size

/-- Messages behind those that are there. -/
def extend (q : UniqueQueue α) (id : α → Nat) (ms : List α) : UniqueQueue α :=
  { q with queue := q.queue ++ ms.map fun m => (id m, m) }

/-- Those of the messages that nobody waits for or works on. -/
def due (q : UniqueQueue α) (id : α → Nat) (ms : List α) : List α :=
  ms.filter fun m => q.Idle (id m)

/-- A message that nobody waits for is appended, -/
theorem put_of_idle {q : UniqueQueue α} {i : Nat} (h : q.Idle i) (m : α) :
    q.put i m = { q with queue := q.queue ++ [(i, m)] } := by
  unfold put
  rw [if_neg (not_or.mpr h)]

/-- and any other is dropped. -/
theorem put_of_not_idle {q : UniqueQueue α} {i : Nat} (h : ¬ q.Idle i) (m : α) :
    q.put i m = q := by
  unfold put
  rw [if_pos]
  by_contra hnot
  exact h (not_or.mp hnot)

/-- Afterwards its identifier is taken, and no other. -/
theorem idle_put {q : UniqueQueue α} {i j : Nat} {m : α} (h : q.Idle i) :
    (q.put i m).Idle j ↔ q.Idle j ∧ j ≠ i := by
  rw [put_of_idle h]
  simp only [Idle, List.map_append, List.mem_append, List.map_cons, List.map_nil,
    List.mem_singleton, not_or]
  constructor
  · rintro ⟨⟨hq, hne⟩, hd⟩
    exact ⟨⟨hq, hd⟩, hne⟩
  · rintro ⟨⟨hq, hd⟩, hne⟩
    exact ⟨⟨hq, hne⟩, hd⟩

/-- Nothing is added. -/
@[simp] theorem extend_nil (q : UniqueQueue α) (id : α → Nat) : q.extend id [] = q := by
  unfold extend
  rw [List.map_nil, List.append_nil]

/-- Messages are added one by one. -/
theorem extend_put {q : UniqueQueue α} {id : α → Nat} {m : α} (h : q.Idle (id m))
    (ms : List α) : (q.put (id m) m).extend id ms = q.extend id (m :: ms) := by
  rw [put_of_idle h]
  unfold extend
  rw [List.append_assoc, List.map_cons, List.singleton_append]

/-- What is due after a message was put are the others that were. -/
theorem due_put {q : UniqueQueue α} {id : α → Nat} {m : α} {ms : List α}
    (h : q.Idle (id m)) (hms : id m ∉ ms.map id) :
    (q.put (id m) m).due id ms = q.due id ms := by
  unfold due
  refine List.filter_congr fun a ha => ?_
  have hne : id a ≠ id m := fun he => hms (he ▸ List.mem_map_of_mem ha)
  exact decide_eq_decide.mpr ((idle_put h).trans (and_iff_left hne))

/-- Room for a message and for others is room for the others after it. -/
theorem hasRoom_put {q : UniqueQueue α} {i : Nat} {m : α} (h : q.Idle i) {size k : Nat}
    (hfull : q.full size = false) : (q.put i m).HasRoom size k ↔ q.HasRoom size (k + 1) := by
  rw [put_of_idle h]
  unfold HasRoom
  simp only [full, Bool.and_eq_false_iff, decide_eq_false_iff_not] at hfull
  simp only [List.length_append, List.length_singleton]
  omega

/-- A full queue has no room for anything. -/
theorem not_hasRoom_of_full {q : UniqueQueue α} {size k : Nat} (h : q.full size = true) :
    ¬ q.HasRoom size (k + 1) := by
  unfold HasRoom
  simp only [full, Bool.and_eq_true, decide_eq_true_eq] at h
  omega

end UniqueQueue

/-! ## The system

The bound takes actions away and adds none. This is why it was left out so far:
a property of all runs is not lost when there are fewer of them. -/

namespace World

/-- A put has to wait for a place, unless its message is skipped. -/
def mustWait (w : World) (cfg : Nat → Settings) (t : Tid) : Op → Bool
  | .queuePut q m =>
    let u := (w.procs t.proc).queues q
    u.Idle (q.msgId m) && u.full ((cfg t.proc).pending q)
  | _ => false

/-- `perform`, with queues of the sizes in the settings. -/
def performBounded (w : World) (cfg : Nat → Settings) (t : Tid) (o : Op) (ch : Choice) :
    Option (Except Exc o.Res × World) :=
  if ch.effective && w.mustWait cfg t o then none else w.perform cfg t o ch

/-- Where nobody has to wait, the bound makes no difference. -/
theorem perform_of_not_mustWait {w : World} {cfg : Nat → Settings} {t : Tid} {o : Op}
    {ch : Choice} (h : w.mustWait cfg t o = false) :
    w.performBounded cfg t o ch = w.perform cfg t o ch := by
  unfold performBounded
  rw [h, Bool.and_false]
  rfl

/-- A bound only takes steps away, -/
theorem perform_of_bounded {w : World} {cfg : Nat → Settings} {t : Tid} {o : Op} {ch : Choice}
    {a : Except Exc o.Res × World} (h : w.performBounded cfg t o ch = some a) :
    w.perform cfg t o ch = some a := by
  unfold performBounded at h
  split at h
  · cases h
  · exact h

end World

/-- **The system with queues of a given size.** It differs in one operation. -/
def boundedSystem (cfg : Nat → Settings) : Host sig World Tid Nat Job World.Env :=
  { system cfg with perform := fun w t o ch => w.performBounded cfg t o ch }

variable {cfg : Nat → Settings}

/-- so every step of the bounded system is a step of the other, and what holds in
every run of that one holds here. -/
theorem bounded_step {p q : State} {a : Act} (h : p.step (boundedSystem cfg) a = some q) :
    p.step (system cfg) a = some q := by
  cases a with
  | perform t ch =>
    simp only [Pool.step] at h ⊢
    split at h
    · split at h
      · rename_i o k hth hloop
        obtain ⟨b, hb, rfl⟩ := Option.map_eq_some_iff.mp h
        have hperf : (system cfg).perform p.world t o ch = some b := World.perform_of_bounded hb
        refine (if_pos hloop).trans ?_
        rw [hperf]
        rfl
      · cases h
    · cases h
  | _ => exact h

/-- **Waiting for a place adds no runs**: whatever is an invariant of the system
is one of the system with queues of a given size. -/
theorem bounded_run {C : StepCondition} {p q : State}
    (h : Steps (boundedSystem cfg) C p q) : Run cfg C p q := by
  induction h with
  | refl => exact .refl _
  | tail a _ hstep hC ih => exact .tail a ih (bounded_step hstep) hC

/-! ## A coroutine that nobody disturbs

Nobody takes a message either, while the cycle is executed, since a worker that
does disturbs it. So the queue only fills. The cycle ends if it has room for
what is due, and otherwise it comes to the put for which there is none. -/

variable {x : Tid} {w : World} {α : Type}

/-- The world as a producer meets it when nothing goes wrong, nobody disturbs it,
and nobody takes a message either. -/
abbrev alone (cfg : Nat → Settings) (x : Tid) : Solo sig World :=
  (boundedSystem cfg).solo x usualReply

/-- **A program that puts nothing** does what it does in the system. The bound is
only asked for when something is put. -/
theorem outcome_alone {K : Set Effect} {own : Set Nat} {y : Prog α} {a : α} {tr : Trace sig}
    {w' : World} (hy : (scope K).Inside own y) (hK : Effect.put ∉ K)
    (h : (undisturbed cfg x).exec y w = some (.ok a, tr, w')) :
    (alone cfg x).outcome y w = some (.ok a, w') := by
  have hperform : ∀ (w : World) (o : Op), (scope K).op o →
      w.performBounded cfg x o (usualReply o) = w.perform cfg x o (usualReply o) := by
    intro w o ho
    cases o with
    | queuePut q m => exact absurd (ho _ rfl) hK
    | _ => exact World.perform_of_not_mustWait rfl
  have hexec : (alone cfg x).exec y w = (undisturbed cfg x).exec y w :=
    Solo.exec_of_inside (E := undisturbed cfg x) (G := alone cfg x) (F := scope K)
      (fun _ _ _ => rfl) hperform hy
  exact Solo.outcome_of_exec (hexec.trans h)

/-- Messages are put behind those in a queue of a process. -/
def World.enqueue (w : World) (p : Nat) (q : QueueName) (ms : List q.Payload) : World :=
  w.modifyProc p (·.modifyQueue q (·.extend q.msgId ms))

/-- The database is not touched. -/
@[simp] theorem World.enqueue_db (w : World) (p : Nat) (q : QueueName)
    (ms : List q.Payload) : (w.enqueue p q ms).db = w.db := rfl

/-- The messages are in the queue. -/
@[simp] theorem World.enqueue_queues (w : World) (p : Nat) (q : QueueName)
    (ms : List q.Payload) :
    ((w.enqueue p q ms).procs p).queues q = ((w.procs p).queues q).extend q.msgId ms := by
  unfold World.enqueue
  rw [modifyProc_self]
  exact Function.update_self ..

/-- A queue that stays the same leaves the memory the same, -/
theorem Memory.modifyQueue_self {m : Memory} {q : QueueName}
    {f : UniqueQueue q.Payload → UniqueQueue q.Payload} (h : f (m.queues q) = m.queues q) :
    m.modifyQueue q f = m := by
  unfold Memory.modifyQueue
  rw [h, Function.update_eq_self]

/-- and such a memory the world. -/
theorem World.modifyProc_eq_self {w : World} {p : Nat} {f : Memory → Memory}
    (h : f (w.procs p) = w.procs p) : w.modifyProc p f = w := by
  unfold World.modifyProc
  rw [h, Function.update_eq_self]

/-- Nothing is put. -/
theorem World.enqueue_nil (w : World) (p : Nat) (q : QueueName) : w.enqueue p q [] = w :=
  World.modifyProc_eq_self (Memory.modifyQueue_self (UniqueQueue.extend_nil _ _))

/-- One message, and others after it. -/
theorem World.enqueue_put {w : World} {p : Nat} {q : QueueName} {m : q.Payload}
    (h : ((w.procs p).queues q).Idle (q.msgId m)) (ms : List q.Payload) :
    (w.modifyProc p (·.modifyQueue q (·.put (q.msgId m) m))).enqueue p q ms =
      w.enqueue p q (m :: ms) := by
  unfold World.enqueue World.modifyProc Memory.modifyQueue
  simp only [Function.update_self, Function.update_idem, UniqueQueue.extend_put h]

/-- The queue of a process has room for that many more messages. -/
def World.HasRoom (w : World) (cfg : Nat → Settings) (p : Nat) (q : QueueName) (k : Nat) :
    Prop :=
  ((w.procs p).queues q).HasRoom ((cfg p).pending q) k

/-- Messages that are due: those that nobody waits for or works on. -/
def World.due (w : World) (p : Nat) (q : QueueName) (ms : List q.Payload) : List q.Payload :=
  ((w.procs p).queues q).due q.msgId ms

/-- **Messages are put one after the other**, into the queue as it is in the world
`v`: all that are due, if there is room for them, and otherwise the coroutine
waits for ever. -/
structure PutsDue (cfg : Nat → Settings) (x : Tid) (q : QueueName) (y : Prog Unit)
    (w v : World) (due : List q.Payload) : Prop where
  ends : v.HasRoom cfg x.proc q due.length →
    (alone cfg x).outcome y w = some (.ok (), v.enqueue x.proc q due)
  waits : ¬ v.HasRoom cfg x.proc q due.length → (alone cfg x).outcome y w = none

/-- After a part that puts nothing. -/
theorem PutsDue.after {q : QueueName} {y : Prog α} {f : α → Prog Unit} {a : α} {w' v : World}
    {due : List q.Payload} (hy : (alone cfg x).outcome y w = some (.ok a, w'))
    (hf : PutsDue cfg x q (f a) w' v due) : PutsDue cfg x q (Co.bind y f) w v due where
  ends hroom := (Solo.outcome_bind hy).trans (hf.ends hroom)
  waits hroom := (Solo.outcome_bind hy).trans (hf.waits hroom)

/-- A message that is skipped. -/
theorem PutsDue.skip {q : QueueName} {m : q.Payload} {y : Prog Unit}
    {due : List q.Payload} (h : ¬ ((w.procs x.proc).queues q).Idle (q.msgId m))
    (hy : PutsDue cfg x q y w w due) :
    PutsDue cfg x q (Co.bind (await (.queuePut q m)) fun _ => y) w w due := by
  have hput : (alone cfg x).outcome (await (.queuePut q m)) w = some (.ok (), w) := by
    refine Solo.outcome_of_exec (Solo.exec_op ?_)
    refine (World.perform_of_not_mustWait (by simp [World.mustWait, h])).trans ?_
    show some (Except.ok (), w.modifyProc x.proc (·.modifyQueue q (·.put (q.msgId m) m))) = _
    rw [World.modifyProc_eq_self (Memory.modifyQueue_self (UniqueQueue.put_of_not_idle h m))]
  exact .after hput hy

/-- A message that is put. -/
theorem PutsDue.put {q : QueueName} {m : q.Payload} {y : Prog Unit}
    {due : List q.Payload} (h : ((w.procs x.proc).queues q).Idle (q.msgId m))
    (hy : PutsDue cfg x q y
      (w.modifyProc x.proc (·.modifyQueue q (·.put (q.msgId m) m)))
      (w.modifyProc x.proc (·.modifyQueue q (·.put (q.msgId m) m))) due) :
    PutsDue cfg x q (Co.bind (await (.queuePut q m)) fun _ => y) w w (m :: due) := by
  cases hfull : ((w.procs x.proc).queues q).full ((cfg x.proc).pending q) with
  | true =>
    have hput : (alone cfg x).outcome (await (.queuePut q m)) w = none := by
      refine Option.map_eq_none_iff.mpr (Option.bind_eq_none_iff.mpr fun a ha => ?_)
      have hwait : (boundedSystem cfg).perform w x (.queuePut q m)
          (usualReply (.queuePut q m)) = none :=
        if_pos (by simp [World.mustWait, Choice.effective, usualReply, h, hfull])
      exact absurd (hwait.symm.trans ha) (by simp)
    exact ⟨fun hroom => absurd hroom (UniqueQueue.not_hasRoom_of_full hfull),
      fun _ => Solo.outcome_bind_none hput⟩
  | false =>
    have hput : (alone cfg x).outcome (await (.queuePut q m)) w =
        some (.ok (), w.modifyProc x.proc (·.modifyQueue q (·.put (q.msgId m) m))) :=
      Solo.outcome_of_exec (Solo.exec_op
        (World.perform_of_not_mustWait (by simp [World.mustWait, hfull])))
    have hroom_iff : (w.modifyProc x.proc (·.modifyQueue q (·.put (q.msgId m) m))).HasRoom
        cfg x.proc q due.length ↔ w.HasRoom cfg x.proc q (m :: due).length := by
      unfold World.HasRoom
      rw [World.modifyProc_self]
      unfold Memory.modifyQueue
      dsimp only
      rw [Function.update_self]
      exact UniqueQueue.hasRoom_put h hfull
    refine ⟨fun hroom => ?_, fun hroom => ?_⟩
    · rw [Solo.outcome_bind hput, hy.ends (hroom_iff.mpr hroom), World.enqueue_put h]
    · rw [Solo.outcome_bind hput]
      exact hy.waits fun hroom' => hroom (hroom_iff.mp hroom')

/-- What is due of the others after one message was put. -/
theorem World.due_put {p : Nat} {q : QueueName} {m : q.Payload} {ms : List q.Payload}
    (h : ((w.procs p).queues q).Idle (q.msgId m)) (hms : q.msgId m ∉ ms.map q.msgId) :
    (w.modifyProc p (·.modifyQueue q (·.put (q.msgId m) m))).due p q ms = w.due p q ms := by
  unfold World.due
  rw [World.modifyProc_self]
  unfold Memory.modifyQueue
  dsimp only
  rw [Function.update_self]
  exact UniqueQueue.due_put h hms

/-- One message, and others with other identifiers after it. -/
theorem PutsDue.cons {q : QueueName} {m : q.Payload} {ms : List q.Payload} {y : Prog Unit}
    (hm : q.msgId m ∉ ms.map q.msgId)
    (hskip : PutsDue cfg x q y w w (w.due x.proc q ms))
    (hput : PutsDue cfg x q y (w.modifyProc x.proc (·.modifyQueue q (·.put (q.msgId m) m)))
      (w.modifyProc x.proc (·.modifyQueue q (·.put (q.msgId m) m)))
      ((w.modifyProc x.proc (·.modifyQueue q (·.put (q.msgId m) m))).due x.proc q ms)) :
    PutsDue cfg x q (Co.bind (await (.queuePut q m)) fun _ => y) w w
      (w.due x.proc q (m :: ms)) := by
  by_cases h : ((w.procs x.proc).queues q).Idle (q.msgId m)
  · have hdue : w.due x.proc q (m :: ms) = m :: w.due x.proc q ms :=
      List.filter_cons_of_pos (p := fun m => ((w.procs x.proc).queues q).Idle (q.msgId m))
        (decide_eq_true h)
    rw [World.due_put h hm] at hput
    rw [hdue]
    exact .put h hput
  · have hdue : w.due x.proc q (m :: ms) = w.due x.proc q ms :=
      List.filter_cons_of_neg (p := fun m => ((w.procs x.proc).queues q).Idle (q.msgId m))
        (by simpa using h)
    rw [hdue]
    exact .skip h hskip

/-- **Putting messages** with different identifiers. By induction on the messages:
each that is due takes a place, and the others leave the queue as it is. -/
theorem puts_putAll (q : QueueName) (ms : List q.Payload) (w : World)
    (hids : (ms.map q.msgId).Nodup) :
    PutsDue cfg x q (putAll q ms) w w (w.due x.proc q ms) := by
  induction ms generalizing w with
  | nil =>
    refine ⟨fun _ => ?_, fun hroom => absurd (.inl rfl) hroom⟩
    show some _ = some (_, w.enqueue x.proc q [])
    rw [World.enqueue_nil]
  | cons m ms ih =>
    obtain ⟨hm, hrest⟩ := List.nodup_cons.mp hids
    exact .cons hm (ih w hrest) (ih _ hrest)

/-- **A cycle of a producer.** Its messages are what is due and nobody waits for
or works on, each of them once. If the queue has room for them, the cycle ends
with them behind those that were there; otherwise it does not end before a
worker has taken a message. -/
structure Cycle (cfg : Nat → Settings) (x : Tid) (q : QueueName) (y : Prog Unit) (w : World)
    (Due : q.Payload → Prop) (After : World → Prop) (due : List q.Payload) : Prop where
  once : due.Nodup
  exact : ∀ m, m ∈ due ↔ Due m ∧ ((w.procs x.proc).queues q).Idle (q.msgId m)
  ends : w.HasRoom cfg x.proc q due.length → ∃ w',
    (alone cfg x).outcome y w = some (.ok (), w') ∧ After w' ∧
      ((w'.procs x.proc).queues q).queue =
        ((w.procs x.proc).queues q).queue ++ due.map fun m => (q.msgId m, m)
  waits : ¬ w.HasRoom cfg x.proc q due.length → (alone cfg x).outcome y w = none

/-- A cycle that puts what is due of some messages, after it has read. -/
theorem PutsDue.cycle {q : QueueName} {y : Prog Unit} {v : World} {ms : List q.Payload}
    {Due : q.Payload → Prop} {After : World → Prop}
    (h : PutsDue cfg x q y w v (v.due x.proc q ms))
    (hqueue : (v.procs x.proc).queues q = (w.procs x.proc).queues q) (hms : ms.Nodup)
    (hdue : ∀ m, m ∈ ms ↔ Due m)
    (hafter : ∀ due, After (v.enqueue x.proc q due)) :
    Cycle cfg x q y w Due After (w.due x.proc q ms) := by
  have hsame : v.due x.proc q ms = w.due x.proc q ms := by
    unfold World.due
    rw [hqueue]
  have hroom : ∀ k, v.HasRoom cfg x.proc q k ↔ w.HasRoom cfg x.proc q k := fun k => by
    unfold World.HasRoom
    rw [hqueue]
  rw [hsame] at h
  refine ⟨hms.filter _, fun m => ?_, fun hr => ⟨_, h.ends ((hroom _).mpr hr), hafter _, ?_⟩,
    fun hr => h.waits fun hv => hr ((hroom _).mp hv)⟩
  · rw [← hdue]
    exact List.mem_filter.trans (and_congr_right fun _ => decide_eq_true_iff)
  · rw [World.enqueue_queues, hqueue]
    rfl

end Yascheduler
