import Yascheduler.Application.Queue

/-!
# The queue deduplicates without loss

What holds in every state that producers, workers and cancellations can reach:
no identifier is twice in the queue or in progress, every message taken in is
handed out once or still queued, in the order of their arrival, and the counter
that `join` waits for counts both.

Between the test for a duplicate and the insertion a producer may wait for a
slot. Nobody else puts a message in meanwhile, since it holds the lock, and
what leaves the queue goes into progress and from there nowhere else: the
identifier it tested for stays absent (`Sound.fresh`).

## Histories

That nothing is lost cannot be said of a state alone: a message that is in neither
place may have been finished, or never have been there. So the state remembers
which messages were taken in and which were handed out, and the result relates
these to the queue. They are histories of the model; no code reads them.

The queues in the memory of a process do all this in single steps. The last
section says that each step of the machine is one of those steps, or none, so
what is proved with the simple queue holds with this one.
-/

namespace Yascheduler.Queueing

variable {T I P : Type}

/-! ## The statement

The promises are those of the module that has the queue. Each is a property of
a single state with its histories, so that it can be read without knowing how
the queue is implemented. The one about `join` is about a step, since it is
about the moment when somebody is let go. -/

/-- The identifiers in the queue and in progress. -/
def UniqueQueue.ids (q : UniqueQueue T I P) : List I :=
  (q.queue ++ q.donePending).map (·.id)

/-- **The queue deduplicates without loss.** These are the promises of the module
that has the queue, each about a single state; what is promised about `join` is
about steps. -/
structure Deduplicates (s : State T I P) : Prop where
  /-- no identifier is there twice -/
  distinct : s.q.ids.Nodup
  /-- what is in progress is what the workers hold -/
  inProgress : ∀ m, m ∈ s.q.donePending ↔ ∃ t, s.task t = .working m
  /-- an identifier is held by one worker -/
  one : ∀ t t' m m', s.task t = .working m → s.task t' = .working m' → m.id = m'.id →
    t = t'
  /-- the messages taken in are those handed out and, after them, those queued -/
  fifo : s.accepted = s.delivered ++ s.q.queue
  /-- the counter counts what is queued and what is in progress -/
  counted : s.q.unfinishedTasks = s.q.queue.length + s.q.donePending.length
  /-- nobody waits in `join` when there is neither -/
  joining : ∀ t, s.task t = .join → s.q.queue ++ s.q.donePending ≠ []
  /-- a positive `maxsize` is kept -/
  bounded : 0 < s.q.maxsize → s.q.queue.length ≤ s.q.maxsize
  /-- `item_done` does not raise -/
  noError : ∀ t e, s.task t ≠ .failed e

/-- A coroutine is let go by `join`. It is let go in the step of somebody else, the
worker that finishes the last message. -/
def LetGo (s s' : State T I P) (t : T) : Prop :=
  s'.task t = .joined ∧ s.task t ≠ .joined

/-! ## The invariant

What is promised is not inductive. A coroutine that waits relies on facts about
the queue that it has tested before, and these have to be kept by everybody
else while it waits. So the invariant has a part for each place where a
coroutine can wait. -/

/-- The facts about a queue itself. They do not say who holds what is in progress,
since the queue does not know. -/
structure UniqueQueue.Consistent (q : UniqueQueue T I P) : Prop where
  distinct : q.ids.Nodup
  counted : q.unfinishedTasks = q.queue.length + q.donePending.length
  bounded : 0 < q.maxsize → q.queue.length ≤ q.maxsize
  finished : q.finished = true ↔ q.unfinishedTasks = 0

/-- **What a coroutine at a place relies on**: one that waits for a slot has the
lock and a message that is no duplicate, a worker has a message in progress, and
who waits in `join` has something to wait for. -/
def Placed (q : UniqueQueue T I P) (t : T) : Waiting I P → Prop
  | .putter item => q.putLock = some t ∧ item.id ∉ q.ids
  | .working msg => msg ∈ q.donePending
  | .join => q.queue ++ q.donePending ≠ []
  | .failed _ => False
  | .idle | .lock _ | .getter | .joined => True

/-- What every step keeps: the facts about the queue, what each coroutine relies on
where it waits, and who holds what. -/
structure Sound (s : State T I P) : Prop where
  consistent : s.q.Consistent
  placed : ∀ t, Placed s.q t (s.task t)
  held : ∀ m ∈ s.q.donePending, ∃ t, s.task t = .working m
  one : ∀ t t' m m', s.task t = .working m → s.task t' = .working m' → m.id = m'.id →
    t = t'
  fifo : s.accepted = s.delivered ++ s.q.queue

/-- An empty queue, with nobody at it. -/
theorem Sound.init (maxsize : Int) : Sound (State.init maxsize : State T I P) where
  consistent := {
    distinct := List.nodup_nil
    counted := rfl
    bounded := fun h => Int.le_of_lt h
    finished := by simp [State.init] }
  placed _ := trivial
  held _ h := nomatch h
  one _ _ _ _ h := nomatch h
  fifo := rfl

section

variable {q q' : UniqueQueue T I P} {item : UMessage I P} {t : T} {place : Waiting I P}

/-- An identifier is known from a message that is queued or in progress. -/
theorem mem_ids {i : I} :
    i ∈ q.ids ↔ (∃ m ∈ q.queue, m.id = i) ∨ ∃ m ∈ q.donePending, m.id = i := by
  simp [UniqueQueue.ids]

/-- The oldest message has no identifier that is in progress. Otherwise a worker
that takes it would find its own entry there already. -/
theorem UniqueQueue.Consistent.head_new (hq : q.Consistent)
    {rest : List (UMessage I P)} (hqueue : q.queue = item :: rest) :
    ∀ m ∈ q.donePending, m.id ≠ item.id := by
  intro m hm hid
  have hdistinct := hq.distinct
  unfold UniqueQueue.ids at hdistinct
  rw [hqueue, List.cons_append, List.map_cons, List.nodup_cons] at hdistinct
  refine hdistinct.1 (hid ▸ ?_)
  exact List.mem_map_of_mem (List.mem_append_right rest hm)

/-- A coroutine that stays where it is. What it relies on is kept if the lock, the
messages in progress and the need to wait are. -/
theorem Placed.keep (h : Placed q t place)
    (hputter : ∀ item, place = .putter item → q.putLock = some t →
      q'.putLock = some t ∧ ∀ i ∈ q'.ids, i ∈ q.ids)
    (hworking : ∀ m, place = .working m → m ∈ q.donePending → m ∈ q'.donePending)
    (hjoin : place = .join → q'.queue ++ q'.donePending ≠ []) : Placed q' t place := by
  cases place with
  | putter item =>
    obtain ⟨hlock, hfresh⟩ := h
    obtain ⟨hlock', hids⟩ := hputter item rfl hlock
    exact ⟨hlock', fun hmem => hfresh (hids _ hmem)⟩
  | working msg => exact hworking msg rfl h
  | join => exact hjoin rfl
  | failed e => exact h
  | idle | lock _ | getter | joined => trivial

variable [DecidableEq I]

/-- `__contains__` looks at the queue and at what is in progress, and so does the
definition of what is a duplicate. -/
theorem contains_iff : q.contains item = true ↔ item.id ∈ q.ids := by
  simp [UniqueQueue.contains, mem_ids]

/-- The queue without a message that was in progress. This is `item_done` with its
error path left out, which is not taken for a message in progress. -/
def UniqueQueue.without (q : UniqueQueue T I P) (item : UMessage I P) :
    UniqueQueue T I P :=
  { q with
    donePending := q.donePending.eraseP (·.id = item.id)
    unfinishedTasks := q.unfinishedTasks - 1
    finished := if q.unfinishedTasks - 1 = 0 then true else q.finished }

/-- The oldest message is no duplicate of one in progress. -/
theorem UniqueQueue.Consistent.getNowait (hq : q.Consistent)
    (h : q.getNowait = some (item, q')) : ∃ rest, q.queue = item :: rest ∧
      q' = { q with queue := rest, donePending := item :: q.donePending } := by
  unfold UniqueQueue.getNowait at h
  split at h
  · cases h
  · rename_i first rest hqueue
    have hnew : ¬ q.donePending.any (·.id = first.id) = true := by
      intro hany
      obtain ⟨m, hm, hid⟩ := List.any_eq_true.mp hany
      exact hq.head_new hqueue m hm (of_decide_eq_true hid)
    unfold UniqueQueue.addPending at h
    rw [if_neg hnew] at h
    cases h
    exact ⟨rest, hqueue, rfl⟩

/-- **`item_done` does not raise** for a message in progress. It would if the
counter were too low, or if the message were not found. -/
theorem UniqueQueue.Consistent.itemDone (hq : q.Consistent)
    (hmem : item ∈ q.donePending) : q.itemDone item = (q.without item, none) := by
  have hany : q.donePending.any (·.id = item.id) = true :=
    List.any_eq_true.mpr ⟨item, hmem, by simp⟩
  have hunfinished : q.unfinishedTasks ≠ 0 := by
    have hpos := List.length_pos_of_mem hmem
    have hcounted := hq.counted
    omega
  unfold UniqueQueue.itemDone UniqueQueue.taskDone
  rw [if_pos hany, if_neg hunfinished]
  rfl

end

section

variable [DecidableEq T] {s : State T I P} {t : T}

/-- Who moves is where he has moved to; nobody else moves. -/
@[simp] theorem move_task (place : Waiting I P) (t' : T) :
    (s.move t place).task t' = if t' = t then place else s.task t' := by
  simp [State.move, Function.update_apply]

@[simp] theorem move_q (place : Waiting I P) : (s.move t place).q = s.q := rfl

/-- **One coroutine moves and the queue changes**: what is to be shown about the
queue, about the coroutine, and about the others. -/
theorem Sound.update (h : Sound s) {q' : UniqueQueue T I P} {place : Waiting I P}
    {accepted delivered : List (UMessage I P)} (hq : q'.Consistent)
    (hothers : ∀ t', t' ≠ t → Placed q' t' (s.task t')) (hplace : Placed q' t place)
    (hheld : ∀ m ∈ q'.donePending,
      place = .working m ∨ m ∈ s.q.donePending ∧ s.task t ≠ .working m)
    (hnew : ∀ m, place = .working m → ∀ m' ∈ s.q.donePending, m'.id ≠ m.id)
    (hfifo : accepted = delivered ++ q'.queue) :
    Sound (State.move ⟨q', s.task, accepted, delivered⟩ t place) where
  consistent := hq
  placed t' := by
    rw [move_task]
    split
    · rename_i heq
      rw [heq]
      exact hplace
    · rename_i hne
      exact hothers t' hne
  held m hm := by
    rcases hheld m hm with rfl | ⟨hold, hne⟩
    · exact ⟨t, by rw [move_task, if_pos rfl]⟩
    · obtain ⟨t', ht'⟩ := h.held m hold
      refine ⟨t', ?_⟩
      rw [move_task, if_neg]
      · exact ht'
      · rintro rfl
        exact hne ht'
  one t₁ t₂ m₁ m₂ h₁ h₂ hid := by
    have hpending {t' : T} {m : UMessage I P} (h' : s.task t' = .working m) :
        m ∈ s.q.donePending := by
      have hp := h.placed t'
      rwa [h'] at hp
    rw [move_task] at h₁ h₂
    split at h₁ <;> split at h₂
    · rename_i heq₁ heq₂
      rw [heq₁, heq₂]
    · exact absurd hid.symm (hnew m₁ h₁ m₂ (hpending h₂))
    · exact absurd hid (hnew m₂ h₂ m₁ (hpending h₁))
    · exact h.one t₁ t₂ m₁ m₂ h₁ h₂ hid
  fifo := hfifo

/-! ## The changes

Each of the lemmas is about one thing that may happen to the queue, with the
coroutine that does it. What is to be shown of the others is always the same,
that what they rely on is still true, and this is a matter of three facts about
the queue only: the lock, what is in progress, and whether there is something
to wait for. -/

/-- Where a coroutine neither has a message in progress nor the lock. -/
def Waiting.Free : Waiting I P → Prop
  | .putter _ | .working _ | .failed _ => False
  | _ => True

/-- A coroutine that has no message in progress moves, and the queue stays. -/
theorem Sound.move (h : Sound s) {place : Waiting I P} (hfrom : (s.task t).Free)
    (hto : place.Free) (hplace : Placed s.q t place) : Sound (s.move t place) := by
  refine h.update h.consistent (fun t' _ => h.placed t') hplace ?_ ?_ h.fifo
  · intro m hm
    refine .inr ⟨hm, fun heq => ?_⟩
    rw [heq] at hfrom
    exact hfrom
  · rintro m rfl
    exact hto.elim

omit [DecidableEq T] in
/-- Only one coroutine waits for a slot, because it holds the lock of the producers
while it does. The others wait for the lock. -/
theorem Sound.alone (h : Sound s) {t' : T} {item item' : UMessage I P}
    (ht : s.task t = .putter item) (ht' : s.task t' = .putter item') : t' = t := by
  have hlock := h.placed t
  have hlock' := h.placed t'
  rw [ht] at hlock
  rw [ht'] at hlock'
  exact Option.some.inj (hlock'.1.symm.trans hlock.1)

/-- The lock is free, or the coroutine has it. So between its test for a duplicate
and its insertion nobody else inserts. -/
def MayPut (s : State T I P) (t : T) : Prop :=
  ∀ t' item, s.task t' = .putter item → t' = t

section

variable {item : UMessage I P}

/-- The producer waits for a slot. -/
theorem Sound.wait (h : Sound s) (hwork : ∀ m, s.task t ≠ .working m)
    (hlock : MayPut s t) (hfresh : item.id ∉ s.q.ids) :
    Sound ({ s with q := { s.q with putLock := some t } }.move t (.putter item)) := by
  refine h.update ⟨h.consistent.distinct, h.consistent.counted, h.consistent.bounded,
    h.consistent.finished⟩ ?_ ⟨rfl, hfresh⟩ ?_ ?_ h.fifo
  · intro t' hne
    refine (h.placed t').keep ?_ (fun _ _ hm => hm) fun heq => ?_
    · intro item' heq
      exact absurd (hlock t' item' heq) hne
    · have hp := h.placed t'
      rwa [heq] at hp
  · exact fun m hm => .inr ⟨hm, hwork m⟩
  · intro m heq
    cases heq

/-- The message is put in. It is no duplicate: the test was made with the lock held,
and nobody else has put anything in since. -/
theorem Sound.accept (h : Sound s) (hwork : ∀ m, s.task t ≠ .working m)
    (hlock : MayPut s t) (hfresh : item.id ∉ s.q.ids) (hfull : s.q.full = false) :
    Sound ({ s with
      q := { s.q with
        putLock := none
        queue := s.q.queue ++ [item]
        unfinishedTasks := s.q.unfinishedTasks + 1
        finished := false }
      accepted := s.accepted ++ [item] }.move t .idle) := by
  obtain ⟨hdistinct, hcounted, hbounded, -⟩ := h.consistent
  refine h.update ⟨?_, ?_, ?_, ?_⟩ ?_ trivial ?_ ?_ ?_
  · -- the identifiers are those before and the new one
    have hperm : (s.q.queue ++ [item] ++ s.q.donePending).Perm
        (item :: (s.q.queue ++ s.q.donePending)) := by
      rw [List.append_assoc]
      exact List.perm_middle
    refine (hperm.map UMessage.id).nodup_iff.mpr ?_
    exact List.nodup_cons.mpr ⟨hfresh, hdistinct⟩
  · simp only [List.length_append, List.length_singleton]
    omega
  · intro (hpos : 0 < s.q.maxsize)
    unfold UniqueQueue.full at hfull
    rw [if_neg (by omega), decide_eq_false_iff_not] at hfull
    show ((s.q.queue ++ [item]).length : Int) ≤ s.q.maxsize
    rw [List.length_append, List.length_singleton]
    omega
  · simp
  · intro t' hne
    refine (h.placed t').keep ?_ (fun _ _ hm => hm) fun _ => ?_
    · intro item' heq
      exact absurd (hlock t' item' heq) hne
    · simp
  · exact fun m hm => .inr ⟨hm, hwork m⟩
  · intro m heq
    cases heq
  · show s.accepted ++ [item] = s.delivered ++ (s.q.queue ++ [item])
    rw [h.fifo, List.append_assoc]

/-- The producer gives the lock back. -/
theorem Sound.release (h : Sound s) (ht : s.task t = .putter item) :
    Sound ({ s with q := { s.q with putLock := none } }.move t .idle) := by
  refine h.update ⟨h.consistent.distinct, h.consistent.counted, h.consistent.bounded,
    h.consistent.finished⟩ ?_ trivial ?_ ?_ h.fifo
  · intro t' hne
    refine (h.placed t').keep ?_ (fun _ _ hm => hm) fun heq => ?_
    · intro item' heq
      exact absurd (h.alone ht heq) hne
    · have hp := h.placed t'
      rwa [heq] at hp
  · refine fun m hm => .inr ⟨hm, ?_⟩
    simp [ht]
  · intro m heq
    cases heq

/-- A worker takes the oldest message. It stays a duplicate for the producers until
the worker is done with it. -/
theorem Sound.deliver (h : Sound s) (ht : s.task t = .getter)
    {rest : List (UMessage I P)} (hqueue : s.q.queue = item :: rest) :
    Sound ({ s with
      q := { s.q with queue := rest, donePending := item :: s.q.donePending }
      delivered := s.delivered ++ [item] }.move t (.working item)) := by
  obtain ⟨hdistinct, hcounted, hbounded, hfinished⟩ := h.consistent
  have hperm : (rest ++ item :: s.q.donePending).Perm (s.q.queue ++ s.q.donePending) := by
    rw [hqueue]
    exact List.perm_middle
  refine h.update ⟨?_, ?_, ?_, hfinished⟩ ?_ List.mem_cons_self ?_ ?_ ?_
  · show ((rest ++ item :: s.q.donePending).map (·.id)).Nodup
    exact (hperm.map UMessage.id).nodup_iff.mpr hdistinct
  · rw [hqueue, List.length_cons] at hcounted
    rw [List.length_cons]
    show s.q.unfinishedTasks = rest.length + (s.q.donePending.length + 1)
    omega
  · intro hpos
    have hle := hbounded hpos
    rw [hqueue, List.length_cons] at hle
    show (rest.length : Int) ≤ s.q.maxsize
    omega
  · intro t' hne
    refine (h.placed t').keep (fun _ _ hlock => ⟨hlock, fun i hi => ?_⟩)
      (fun m _ hm => List.mem_cons_of_mem item hm) fun _ => ?_
    · exact (hperm.map UMessage.id).mem_iff.mp hi
    · simp
  · intro m hm
    rcases List.mem_cons.mp hm with rfl | hm
    · exact .inl rfl
    · refine .inr ⟨hm, ?_⟩
      simp [ht]
  · rintro m heq m' hm' hid
    obtain rfl : item = m := Waiting.working.inj heq
    exact h.consistent.head_new hqueue m' hm' hid
  · show s.accepted = s.delivered ++ [item] ++ rest
    rw [h.fifo, hqueue, List.append_assoc]
    rfl

/-- What is in progress besides a message has other identifiers. -/
theorem mem_eraseP_iff [DecidableEq I] {pending : List (UMessage I P)}
    (hdistinct : (pending.map UMessage.id).Nodup) {m : UMessage I P} :
    m ∈ pending.eraseP (·.id = item.id) ↔ m ∈ pending ∧ m.id ≠ item.id := by
  induction pending with
  | nil => simp
  | cons m' pending ih =>
    obtain ⟨hnot, hdistinct⟩ := List.nodup_cons.mp hdistinct
    by_cases hid : m'.id = item.id
    · rw [List.eraseP_cons_of_pos (by simpa using hid), List.mem_cons]
      constructor
      · intro hm
        refine ⟨.inr hm, fun heq => hnot ?_⟩
        rw [hid, ← heq]
        exact List.mem_map_of_mem hm
      · rintro ⟨rfl | hm, hne⟩
        · exact absurd hid hne
        · exact hm
    · rw [List.eraseP_cons_of_neg (by simpa using hid), List.mem_cons, List.mem_cons,
        ih hdistinct]
      constructor
      · rintro (rfl | ⟨hm, hne⟩)
        · exact ⟨.inl rfl, hid⟩
        · exact ⟨.inr hm, hne⟩
      · rintro ⟨rfl | hm, hne⟩
        · exact .inl rfl
        · exact .inr ⟨hm, hne⟩

omit [DecidableEq T] in
/-- Who waits in `join` is let go. -/
theorem Sound.letGo (h : Sound s) : Sound s.letGo := by
  have hiff (t : T) (m : UMessage I P) :
      (s.task t).letGo = .working m ↔ s.task t = .working m := by
    cases s.task t <;> simp [Waiting.letGo]
  refine ⟨h.consistent, fun t => ?_, fun m hm => ?_, ?_, h.fifo⟩
  · have hp := h.placed t
    show Placed s.q t (s.task t).letGo
    cases ht : s.task t with
    | join => trivial
    | idle | lock _ | putter _ | getter | working _ | failed _ | joined =>
      rwa [ht] at hp
  · obtain ⟨t, ht⟩ := h.held m hm
    exact ⟨t, (hiff t m).mpr ht⟩
  · intro t₁ t₂ m₁ m₂ h₁ h₂
    exact h.one t₁ t₂ m₁ m₂ ((hiff t₁ m₁).mp h₁) ((hiff t₂ m₂).mp h₂)

/-- The worker is done with its message: if that was the last one, nobody may
wait in `join` any more. -/
theorem Sound.finish [DecidableEq I] (h : Sound s) (ht : s.task t = .working item)
    (hjoin : s.q.unfinishedTasks - 1 = 0 → ∀ t', s.task t' ≠ .join) :
    Sound ({ s with q := s.q.without item }.move t .idle) := by
  obtain ⟨hdistinct, hcounted, hbounded, hfinished⟩ := h.consistent
  have hmem : item ∈ s.q.donePending := by
    have hp := h.placed t
    rwa [ht] at hp
  have hpending : (s.q.donePending.map UMessage.id).Nodup := by
    unfold UniqueQueue.ids at hdistinct
    rw [List.map_append] at hdistinct
    exact (List.nodup_append.mp hdistinct).2.1
  have hlength : (s.q.donePending.eraseP (·.id = item.id)).length =
      s.q.donePending.length - 1 := List.length_eraseP_of_mem hmem (by simp)
  have hpos := List.length_pos_of_mem hmem
  have hsub : (s.q.queue ++ s.q.donePending.eraseP (·.id = item.id)).Sublist
      (s.q.queue ++ s.q.donePending) :=
    List.Sublist.append_left List.eraseP_sublist s.q.queue
  refine h.update ⟨?_, ?_, hbounded, ?_⟩ ?_ trivial ?_ ?_ h.fifo
  · exact (hsub.map UMessage.id).nodup hdistinct
  · show s.q.unfinishedTasks - 1 =
      s.q.queue.length + (s.q.donePending.eraseP (·.id = item.id)).length
    omega
  · show (if s.q.unfinishedTasks - 1 = 0 then true else s.q.finished) = true ↔
      s.q.unfinishedTasks - 1 = 0
    split
    · rename_i hzero
      exact iff_of_true rfl hzero
    · rename_i hzero
      rw [hfinished]
      exact iff_of_false (by omega) hzero
  · intro t' hne
    refine (h.placed t').keep (fun _ _ hlock => ⟨hlock, fun i hi => ?_⟩)
      (fun m heq hm => ?_) fun heq hnil => ?_
    · exact (hsub.map UMessage.id).subset hi
    · refine (mem_eraseP_iff hpending).mpr ⟨hm, fun hid => hne ?_⟩
      exact h.one t' t m item heq ht hid
    · refine hjoin ?_ t' heq
      have hzero : s.q.queue.length + (s.q.donePending.eraseP (·.id = item.id)).length = 0 := by
        rw [← List.length_append]
        exact congrArg List.length hnil
      omega
  · intro m hm
    obtain ⟨hm, hid⟩ := (mem_eraseP_iff hpending).mp hm
    refine .inr ⟨hm, fun heq => hid ?_⟩
    rw [ht] at heq
    rw [Waiting.working.inj heq]
  · intro m heq
    cases heq

/-- To let go of who waits in `join` and to move another coroutine can be done in
either order. -/
theorem letGo_move (place : Waiting I P) (hplace : place ≠ .join) :
    (s.move t place).letGo = s.letGo.move t place := by
  unfold State.letGo
  congr 1
  funext t'
  by_cases heq : t' = t
  · subst heq
    cases place <;> simp_all [Waiting.letGo]
  · simp [heq]

end

end

/-! ## Every step

A step of a coroutine may do several of these changes one after the other: a
producer that is resumed puts its message in and gives the lock back, a worker
that is done lets go of those who wait in `join`. The step is taken apart into
its changes, and none of them is looked at twice. -/

section

variable [DecidableEq T] [DecidableEq I] {s s' : State T I P} {t : T}
  {item : UMessage I P}

/-- **What a step can do**, with all that is known when it does. -/
inductive Change (s : State T I P) (t : T) : State T I P → Prop where
  | stay : Change s t s
  | move {place : Waiting I P} (hfrom : (s.task t).Free) (hto : place.Free)
      (hplace : Placed s.q t place) (hjoined : place = .joined → s.q.unfinishedTasks = 0) :
      Change s t (s.move t place)
  | wait {item : UMessage I P} (hwork : ∀ m, s.task t ≠ .working m) (hlock : MayPut s t)
      (hfresh : item.id ∉ s.q.ids) :
      Change s t ({ s with q := { s.q with putLock := some t } }.move t (.putter item))
  | accept {item : UMessage I P} (hwork : ∀ m, s.task t ≠ .working m) (hlock : MayPut s t)
      (hfresh : item.id ∉ s.q.ids) (hfull : s.q.full = false) :
      Change s t ({ s with
        q := { s.q with
          putLock := none
          queue := s.q.queue ++ [item]
          unfinishedTasks := s.q.unfinishedTasks + 1
          finished := false }
        accepted := s.accepted ++ [item] }.move t .idle)
  | release {item : UMessage I P} (ht : s.task t = .putter item) :
      Change s t ({ s with q := { s.q with putLock := none } }.move t .idle)
  | deliver {item : UMessage I P} {rest : List (UMessage I P)} (ht : s.task t = .getter)
      (hqueue : s.q.queue = item :: rest) :
      Change s t ({ s with
        q := { s.q with queue := rest, donePending := item :: s.q.donePending }
        delivered := s.delivered ++ [item] }.move t (.working item))
  | finish {item : UMessage I P} (ht : s.task t = .working item)
      (hlast : s.q.unfinishedTasks - 1 ≠ 0) :
      Change s t ({ s with q := s.q.without item }.move t .idle)
  | last {item : UMessage I P} (ht : s.task t = .working item)
      (hlast : s.q.unfinishedTasks - 1 = 0) :
      Change s t ({ s with q := s.q.without item }.move t .idle).letGo

/-- **What a step can do keeps it.** One lemma for each change, and here they are put
together. -/
theorem Sound.change (h : Sound s) (hc : Change s t s') : Sound s' := by
  cases hc with
  | stay => exact h
  | move hfrom hto hplace _ => exact h.move hfrom hto hplace
  | wait hwork hlock hfresh => exact h.wait hwork hlock hfresh
  | accept hwork hlock hfresh hfull => exact h.accept hwork hlock hfresh hfull
  | release ht => exact h.release ht
  | deliver ht hqueue => exact h.deliver ht hqueue
  | finish ht hlast => exact h.finish ht fun hzero => absurd hzero hlast
  | @last item ht _ =>
    -- the worker moves after those in `join` are let go
    have hjoin (t' : T) : s.letGo.task t' ≠ .join := by
      show (s.task t').letGo ≠ .join
      cases s.task t' <;> simp [Waiting.letGo]
    have hworking : s.letGo.task t = .working item := by
      show (s.task t).letGo = .working item
      rw [ht]
      rfl
    rw [letGo_move _ (by simp)]
    exact h.letGo.finish hworking fun _ => hjoin

/-- The loop of `put`. It ends with the message put in, or goes on waiting for a
slot. -/
theorem insert_change (hwork : ∀ m, s.task t ≠ .working m) (hlock : MayPut s t)
    (hfresh : item.id ∉ s.q.ids) : Change s t (s.insert t item) := by
  unfold State.insert UniqueQueue.putNowait
  cases hfull : s.q.full with
  | true => exact .wait hwork hlock hfresh
  | false => exact .accept hwork hlock hfresh hfull

/-- A coroutine that is resumed goes on where it waits. -/
theorem resume_change (h : Sound s) (hstep : s.resume t = some s') : Change s t s' := by
  unfold State.resume at hstep
  have hplaced := h.placed t
  split at hstep
  · rename_i item ht
    split at hstep
    · rename_i hfree
      split at hstep
      · obtain rfl := Option.some.inj hstep
        exact .move (by rw [ht]; trivial) trivial trivial nofun
      · rename_i hcontains
        obtain rfl := Option.some.inj hstep
        refine insert_change (by simp [ht]) ?_ fun hmem => hcontains (contains_iff.mpr hmem)
        -- nobody has the lock
        intro t' item' ht'
        have hlock := h.placed t'
        rw [ht'] at hlock
        rw [hlock.1] at hfree
        cases hfree
    · cases hstep
  · rename_i item ht
    obtain rfl := Option.some.inj hstep
    rw [ht] at hplaced
    exact insert_change (by simp [ht]) (fun t' item' ht' => h.alone ht ht') hplaced.2
  · rename_i ht
    split at hstep
    · obtain rfl := Option.some.inj hstep
      exact .stay
    · rename_i msg q hget
      obtain rfl := Option.some.inj hstep
      obtain ⟨rest, hqueue, rfl⟩ := h.consistent.getNowait hget
      exact .deliver ht hqueue
  · rename_i ht
    obtain rfl := Option.some.inj hstep
    exact .move (by rw [ht]; trivial) trivial trivial nofun
  · cases hstep

/-- A producer that is cancelled while it waits gives the lock back. Its message is
not taken in. -/
theorem cancel_change (hstep : s.cancel t = some s') : Change s t s' := by
  unfold State.cancel at hstep
  cases ht : s.task t with
  | lock _ | getter | join | joined =>
    rw [ht] at hstep
    obtain rfl := Option.some.inj hstep
    exact .move (by rw [ht]; trivial) trivial trivial nofun
  | putter item =>
    rw [ht] at hstep
    obtain rfl := Option.some.inj hstep
    exact .release ht
  | idle | working _ | failed _ =>
    rw [ht] at hstep
    cases hstep

/-- A worker is done with its message. -/
theorem itemDone_change (h : Sound s) (hstep : s.itemDone t = some s') : Change s t s' := by
  unfold State.itemDone at hstep
  split at hstep
  · rename_i item ht
    have hmem : item ∈ s.q.donePending := by
      have hp := h.placed t
      rwa [ht] at hp
    rw [h.consistent.itemDone hmem] at hstep
    simp only at hstep
    split at hstep
    · rename_i hzero
      obtain rfl := Option.some.inj hstep
      exact .last ht hzero
    · rename_i hzero
      obtain rfl := Option.some.inj hstep
      exact .finish ht hzero
  · cases hstep

/-- A coroutine that calls a method either waits or is through with it. -/
theorem enter_change {place : Waiting I P} (hstep : s.enter t place = some s')
    (hfree : place.Free) (hplace : Placed s.q t place)
    (hjoined : place = .joined → s.q.unfinishedTasks = 0) : Change s t s' := by
  unfold State.enter at hstep
  split at hstep
  · rename_i ht
    obtain rfl := Option.some.inj hstep
    exact .move (by rw [ht]; trivial) hfree hplace hjoined
  · cases hstep

omit [DecidableEq T] [DecidableEq I] in
/-- Something is queued or in progress exactly while the counter is positive. -/
theorem Sound.empty_iff (h : Sound s) :
    s.q.unfinishedTasks = 0 ↔ s.q.queue ++ s.q.donePending = [] := by
  rw [h.consistent.counted, ← List.length_append, List.length_eq_zero_iff]

/-- **Every step is a change.** It is the only place where the steps of the machine
are unfolded. -/
theorem step_change (h : Sound s) {a : T × Action I P} (hstep : s.step a = some s') :
    Change s a.1 s' := by
  obtain ⟨t, action⟩ := a
  cases action with
  | put item => exact enter_change hstep trivial trivial nofun
  | get => exact enter_change hstep trivial trivial nofun
  | join =>
    have hzero : s.q.unfinishedTasks = 0 ∨ s.q.finished = true ↔ s.q.unfinishedTasks = 0 := by
      rw [h.consistent.finished, or_self]
    refine enter_change hstep ?_ ?_ ?_
    · split <;> trivial
    · split
      · trivial
      · rename_i hwaits
        exact fun hnil => hwaits (hzero.mpr (h.empty_iff.mpr hnil))
    · intro hjoined
      split at hjoined
      · rename_i hready
        exact hzero.mp hready
      · cases hjoined
  | resume => exact resume_change h hstep
  | itemDone => exact itemDone_change h hstep
  | cancel => exact cancel_change hstep

/-! ## The results -/

omit [DecidableEq T] [DecidableEq I] in
/-- What is kept is what is promised. -/
theorem Sound.deduplicates (h : Sound s) : Deduplicates s where
  distinct := h.consistent.distinct
  inProgress m := by
    refine ⟨h.held m, fun ⟨t, ht⟩ => ?_⟩
    have hp := h.placed t
    rwa [ht] at hp
  one := h.one
  fifo := h.fifo
  counted := h.consistent.counted
  joining t ht := by
    have hp := h.placed t
    rwa [ht] at hp
  bounded := h.consistent.bounded
  noError t e ht := by
    have hp := h.placed t
    rwa [ht] at hp

/-- **`join` lets go only of who finds nothing queued and nothing in
progress.** -/
theorem Change.letGo (h : Sound s) (hc : Change s t s') {t' : T} (hgo : LetGo s s' t') :
    s'.q.queue ++ s'.q.donePending = [] := by
  obtain ⟨hafter, hbefore⟩ := hgo
  have hs' := h.change hc
  -- a move to another place lets nobody go
  have hmove {s₁ : State T I P} {place : Waiting I P} (htask : s₁.task = s.task)
      (hafter : (s₁.move t place).task t' = .joined) : place = .joined := by
    rw [move_task, htask] at hafter
    split at hafter
    · exact hafter
    · exact absurd hafter hbefore
  refine hs'.empty_iff.mp ?_
  cases hc with
  | stay => exact absurd hafter hbefore
  | move _ _ _ hjoined => exact hjoined (hmove rfl hafter)
  | wait | accept | release | deliver | finish => cases hmove rfl hafter
  | last _ hlast => exact hlast

end

/-! ## The queues in the memory of a process

The rest of the development uses a queue without waiting coroutines, in which a
`put` is one operation. This is justified here, by showing that what the
machine does to the contents of the queue is done by these operations. Who
waits and for what is not seen from outside. -/

section

variable {q : UniqueQueue T Nat P} [DecidableEq T] {s s' : State T Nat P} {t : T}

/-- The queue as the memory of a process has it. -/
def UniqueQueue.view (q : UniqueQueue T Nat P) : Yascheduler.UniqueQueue P where
  queue := q.queue.map fun m => (m.id, m.payload)
  donePending := q.donePending.map (·.id)

/-- One operation on it, or none. What the memory of a process does not have is who
waits, the lock and the counter. -/
inductive Operation (q : Yascheduler.UniqueQueue P) : Yascheduler.UniqueQueue P → Prop where
  | none : Operation q q
  | put (id : Nat) (payload : P) : Operation q (q.put id payload)
  | get {payload : P} {q' : Yascheduler.UniqueQueue P} (h : q.get = some (payload, q')) :
      Operation q q'
  | itemDone (id : Nat) : Operation q (q.itemDone id)

omit [DecidableEq T] in
/-- It is removed there as well. -/
theorem view_without (item : UMessage Nat P) :
    (q.without item).view = q.view.itemDone item.id := by
  have herase : (q.donePending.eraseP (·.id = item.id)).map (·.id) =
      (q.donePending.map (·.id)).erase item.id := by
    induction q.donePending with
    | nil => rfl
    | cons m pending ih =>
      by_cases hid : m.id = item.id
      · simp [hid]
      · simp [hid, ih]
  simp only [UniqueQueue.view, UniqueQueue.without, Yascheduler.UniqueQueue.itemDone, herase]

/-- **Every step of a producer or worker is at most one operation** on the queue
as the memory has it, the insertion being the whole of `put`. -/
theorem Change.operation (hc : Change s t s') : Operation s.q.view s'.q.view := by
  cases hc with
  | stay | move | wait | release => exact .none
  | @accept item _ _ hfresh _ =>
    have hnot : ¬ (item.id ∈ s.q.view.queue.map (·.1) ∨ item.id ∈ s.q.view.donePending) := by
      intro hmem
      refine hfresh ?_
      unfold UniqueQueue.ids
      rw [List.map_append, List.mem_append]
      simpa [UniqueQueue.view, Function.comp_def] using hmem
    have hput := Operation.put (q := s.q.view) item.id item.payload
    unfold Yascheduler.UniqueQueue.put at hput
    rw [if_neg hnot] at hput
    simpa [UniqueQueue.view] using hput
  | @deliver item rest _ hqueue =>
    have hget : s.q.view.get = some (item.payload,
        { queue := rest.map fun m => (m.id, m.payload)
          donePending := item.id :: s.q.donePending.map (·.id) }) := by
      simp [UniqueQueue.view, Yascheduler.UniqueQueue.get, hqueue]
    exact .get hget
  | @finish item _ _ | @last item _ _ =>
    show Operation s.q.view (s.q.without item).view
    rw [view_without]
    exact .itemDone item.id

end

/-- **The queue deduplicates without loss.** Whatever producers, workers and
cancellations do, in every state they reach the identifiers queued and in
progress are distinct, each held by one worker; the messages taken in are those
handed out and, after them, those still queued; the counter counts what is
queued and in progress; a positive `maxsize` is kept; and `join` lets go
exactly when nothing is left. -/
theorem queueDeduplicates [DecidableEq T] [DecidableEq I] {maxsize : Int}
    {actions : List (T × Action I P)} {s : State T I P}
    (h : Machine.run State.step (State.init maxsize) actions = some s) :
    Deduplicates s ∧
      ∀ a s', s.step a = some s' → ∀ t, LetGo s s' t →
        s'.q.queue = [] ∧ s'.q.donePending = [] := by
  have hsound : Sound s :=
    Machine.run_invariant (fun _ _ _ hs hstep => hs.change (step_change hs hstep)) h
      (Sound.init maxsize)
  refine ⟨hsound.deduplicates, fun a s' hstep t hgo => ?_⟩
  exact List.append_eq_nil_iff.mp ((step_change hsound hstep).letGo hsound hgo)

/-- Two producers of message 2 on a full queue: the second finds that the first
has put it in. -/
def race : List (Nat × Action Nat String) :=
  [(0, .put ⟨1, "A"⟩), (0, .resume), (1, .put ⟨2, "Y"⟩), (2, .put ⟨2, "Y"⟩), (1, .resume),
    (3, .get), (3, .resume), (1, .resume), (2, .resume), (3, .itemDone)]

/-- **A duplicate is found after the wait.** The second producer waits for the lock,
and makes its test when it gets it, not when it was called. -/
theorem queueDeduplicates_race :
    ∃ s, Machine.run State.step (State.init 1) race = some s ∧
      s.q.ids = [2] ∧ s.accepted = [⟨1, "A"⟩, ⟨2, "Y"⟩] ∧ Deduplicates s := by
  obtain ⟨s, hrun, hids, haccepted⟩ :
      ∃ s, Machine.run State.step (State.init 1) race = some s ∧
        s.q.ids = [2] ∧ s.accepted = [⟨1, "A"⟩, ⟨2, "Y"⟩] := ⟨_, rfl, rfl, rfl⟩
  exact ⟨s, hrun, hids, haccepted, (queueDeduplicates hrun).1⟩

end Yascheduler.Queueing
