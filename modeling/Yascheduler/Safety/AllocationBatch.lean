import Yascheduler.Safety.FreeMachines

/-!
# The batch of the allocator

One cycle of `_allocator_producer` yields TO_DO tasks up to a limit, which is
the largest of the remaining cloud capacity, the number of FREE machines, and
ten. The query orders the tasks by their identifiers; whether a free machine
can run them is looked at later, by the consumer, task by task.

So the batch is a prefix of the backlog, and a task that a free machine could
run is in it as long as the tasks before it are fewer than the limit
(`batchRuns_iff`). In a longer backlog the tasks at its head keep it out, in
every cycle.

A limit on a batch is reasonable as long as the tasks in it can make progress.
The limit here is computed from what is free and what can be had, and the tasks
from the order of their submission. When the first of them need a machine that
cannot be had they stay at the head, and every later batch is the same.
-/

namespace Yascheduler

open Store Async

/-! ## The batch

The limit of a cycle is computed before the tasks are read, from the memory and
the database, and it is at least ten. The query gives the first rows in the
order of their identifiers, so the batch is the beginning of the backlog and
nothing else decides about it. -/

/-- The messages a producer has yielded to the allocation queue. -/
def yielded (tr : Trace sig) : List TodoTask :=
  tr.filterMap fun
    | .op (.queuePut .allocate task) _ => some task
    | _ => none

/-- The TO_DO tasks that a list of rows stands for. -/
def todoTasks (rows : List (TaskId × TaskRow)) : List TodoTask :=
  ((rows.filter (·.2.status = .toDo)).map fun r => r.2.toTask r.1).filterMap AnyTask.todo?

/-- What is left of `max_nodes` of the active clouds. It is negative if more nodes
are there than allowed, and then counts as nothing. -/
def Settings.capacity (cfg : Settings) (nodes : List Node) : Nat :=
  let counts := countNodesByCloud nodes
  let maxNodes := (cfg.activeClouds.map (·.maxNodes)).sum
  let current := (cfg.activeClouds.map fun c =>
    (((counts.get c.name).getD 0 : Nat) : Int)).sum
  (maxNodes - current).toNat

/-- How many tasks a cycle yields at most. The least is ten, so that a backlog moves
on even when neither a machine nor a place at a provider is free. -/
def batchLimit (cfg : Settings) (w : World) (p : Nat) : Nat :=
  max (max (cfg.capacity w.db.nodeRows) ((w.procs p).listFree none).length) 10

/-- Keeping the first rows is keeping the first tasks. -/
theorem filterMap_take {α β : Type} {f : α → Option β} {l : List α}
    (h : ∀ a ∈ l, (f a).isSome = true) (n : Nat) :
    (l.take n).filterMap f = (l.filterMap f).take n := by
  induction l generalizing n with
  | nil => simp
  | cons a l ih =>
    obtain ⟨b, hb⟩ := Option.isSome_iff_exists.mp (h a List.mem_cons_self)
    have ih' := ih fun a' ha' => h a' (List.mem_cons_of_mem a ha')
    cases n with
    | zero => rfl
    | succ n => rw [List.take_succ_cons, List.filterMap_cons_some hb, List.filterMap_cons_some hb,
        List.take_succ_cons, ih']

/-- A row that is TO_DO stands for a task to do. -/
theorem TaskRow.isSome_todo? {row : TaskRow} (h : row.status = .toDo) (t : TaskId) :
    (row.toTask t).todo?.isSome = true := by
  have hstatus := row.state_status
  rw [h] at hstatus
  unfold AnyTask.todo?
  simp only [TaskRow.toTask]
  cases hs : row.state with
  | todo s => rfl
  | running s | done s =>
    rw [hs] at hstatus
    cases hstatus

/-- **The first rows of the backlog** stand for the first tasks. The limit is one of
the query, and rows that are not TO_DO do not count against it. -/
theorem todoTasks_take (rows : List (TaskId × TaskRow)) (n : Nat) :
    (((rows.filter (·.2.status = .toDo)).take n).map fun r => r.2.toTask r.1).filterMap
      AnyTask.todo? = (todoTasks rows).take n := by
  unfold todoTasks
  rw [List.map_take]
  refine filterMap_take (fun task htask => ?_) n
  obtain ⟨r, hr, rfl⟩ := List.mem_map.mp htask
  exact TaskRow.isSome_todo? (of_decide_eq_true (List.mem_filter.mp hr).2) r.1

/-! ## One cycle

The cycle is executed undisturbed. In a run with others the numbers it has read
may be out of date when the query is made, but the batch is the beginning of
the backlog all the same. -/

variable (cfg : Nat → Settings) (x : Tid) {w : World}

/-- Messages are put one after the other. -/
theorem exec_putAll (tasks : List TodoTask) (w : World) :
    ∃ w', (undisturbed cfg x).exec (putAll .allocate tasks) w =
      some (.ok (), tasks.map fun task => .op (.queuePut .allocate task) (.ok ()), w') := by
  induction tasks generalizing w with
  | nil => exact ⟨w, rfl⟩
  | cons task tasks ih =>
    obtain ⟨w', hw'⟩ := ih (w.modifyProc x.proc
      (·.modifyQueue .allocate (·.put (QueueName.msgId .allocate task) task)))
    exact ⟨w', Solo.exec_bind (Solo.exec_op rfl) hw'⟩

theorem yielded_append (tr tr' : Trace sig) :
    yielded (tr ++ tr') = yielded tr ++ yielded tr' := List.filterMap_append

@[simp] theorem yielded_readTrace (c : Nat) (tr : Trace sig) :
    yielded (Uow.readTrace c tr) = yielded tr := by
  unfold Uow.readTrace
  rw [yielded_append, yielded_append]
  exact List.append_nil _

theorem yielded_puts (tasks : List TodoTask) :
    yielded (tasks.map fun task => .op (.queuePut .allocate task) (.ok ())) = tasks := by
  unfold yielded
  rw [List.filterMap_map]
  exact List.filterMap_some

/-- **What a cycle yields** when nobody disturbs it: the beginning of the backlog.
Which tasks a free machine could run plays no role in it. -/
theorem exec_allocatorProducer (h : w.Regular) : ∃ tr w',
    (undisturbed cfg x).exec (allocatorProducer (cfg x.proc)) w = some (.ok (), tr, w') ∧
      yielded tr = (todoTasks w.db.taskRows).take (batchLimit (cfg x.proc) w x.proc) := by
  have hall : (w.connected 1).db.exec ⟨x, w.db.lastConn + 1⟩ .nodeListAll =
      some (.ok w.db.nodeRows, (w.connected 1).db) := by
    simp only [Database.exec, h.visibleNodes]
  have hcap : (undisturbed cfg x).exec (cloudsGetCapacity (cfg x.proc)) w =
      some (.ok ((cfg x.proc).capacity w.db.nodeRows), _, w.connected 1) :=
    Solo.exec_bind (exec_within h (exec_sql le_rfl hall)) rfl
  have h₁ := h.connected 1
  have htodo : ((w.connected 1).connected 1).db.exec ⟨x, (w.connected 1).db.lastConn + 1⟩
      (.taskList .toDo (some (batchLimit (cfg x.proc) w x.proc))) =
      some (.ok (((w.db.taskRows.filter (·.2.status = .toDo)).take
        (batchLimit (cfg x.proc) w x.proc)).map fun r => r.2.toTask r.1),
        ((w.connected 1).connected 1).db) := by
    simp only [Database.exec, h₁.visibleTasks]
    rfl
  have hlist : (undisturbed cfg x).exec (Uow.within fun c =>
      Tasks.listTodo c (some (batchLimit (cfg x.proc) w x.proc))) (w.connected 1) =
      some (.ok ((((w.db.taskRows.filter (·.2.status = .toDo)).take
        (batchLimit (cfg x.proc) w x.proc)).map fun r => r.2.toTask r.1).filterMap
          AnyTask.todo?), _, (w.connected 1).connected 1) :=
    exec_within h₁ (Solo.exec_bind (exec_sql le_rfl htodo) rfl)
  rw [todoTasks_take] at hlist
  obtain ⟨w', hput⟩ := exec_putAll cfg x
    ((todoTasks w.db.taskRows).take (batchLimit (cfg x.proc) w x.proc))
    ((w.connected 1).connected 1)
  refine ⟨_, w', Solo.exec_bind hcap (Solo.exec_bind (exec_ask rfl) (Solo.exec_bind hlist hput)),
    ?_⟩
  refine Eq.trans ?_ (yielded_puts _)
  simp only [yielded_append, yielded_readTrace]
  rfl

/-- **An undisturbed cycle is a run of the system.** So what is computed of the cycle
is reached by a daemon. -/
theorem allocateProducer_run {p : State} (h : p.world.Regular) (hnew : p.threads x = none)
    (hidle : p.current x.proc = none) : ∃ tr q,
      (undisturbed cfg x).exec (allocatorProducer (cfg x.proc)) p.world =
        some (.ok (), tr, q.world) ∧
      Run cfg AnyStep p q ∧ q.threads x = some (.finished (.ok ())) := by
  obtain ⟨tr, w', hexec, -⟩ := exec_allocatorProducer cfg x h
  obtain ⟨q, hrun, hend, rfl⟩ := Solo.job_steps (j := Job.allocateProducer)
    (Solo.exec_tryCatch hexec) hnew hidle
  exact ⟨tr, q, hexec, hrun, hend⟩

/-! ## Head-of-line blocking

Whether a task that could run is in the batch depends on how many are before
it, and not on what they need. So the condition is one on the world: if some
task can run, the first such task is among the first of the backlog. -/

/-- A machine that is free may be offered to the task. This is for the workers to
find out, long after the batch is fixed. -/
def World.Runs (w : World) (cfg : Settings) (p : Nat) (task : TodoTask) : Prop :=
  ∃ engine, cfg.engines.getNonempty task.engine = some engine ∧
    ∃ s node, w.Offers p engine s node

/-- **No head-of-line blocking**: if a free machine can run a TO_DO task, an
undisturbed cycle of the producer yields one that a free machine can run. It need
not be the oldest of them. -/
def BatchRuns (cfg : Nat → Settings) (x : Tid) (w : World) : Prop :=
  (∃ task ∈ todoTasks w.db.taskRows, w.Runs (cfg x.proc) x.proc task) →
    ∃ r tr w', (undisturbed cfg x).exec (allocatorProducer (cfg x.proc)) w = some (r, tr, w') ∧
      ∃ task ∈ yielded tr, w.Runs (cfg x.proc) x.proc task

/-- The first of a list with a property. -/
theorem exists_first {α : Type} {P : α → Prop} {l : List α} (h : ∃ a ∈ l, P a) :
    ∃ before a after, l = before ++ a :: after ∧ (∀ b ∈ before, ¬ P b) ∧ P a := by
  classical
  obtain ⟨a, ha, hP⟩ := h
  cases hf : l.find? fun b => decide (P b) with
  | none => exact absurd (decide_eq_true hP) (List.find?_eq_none.mp hf a ha)
  | some b =>
    obtain ⟨hb, before, after, hl, hbefore⟩ := List.find?_eq_some_iff_append.mp hf
    refine ⟨before, b, after, hl, fun c hc => ?_, of_decide_eq_true hb⟩
    simpa using hbefore c hc

/-- **The oldest task that a free machine can run is considered** if and only if
fewer tasks than the limit are before it. Those before it wait for a machine that is
not there, and are yielded again in every cycle. -/
theorem batchRuns_iff (cfg : Nat → Settings) (x : Tid) (w : World) (h : w.Regular) :
    BatchRuns cfg x w ↔ ∀ older task newer,
      todoTasks w.db.taskRows = older ++ task :: newer →
      (∀ a ∈ older, ¬ w.Runs (cfg x.proc) x.proc a) → w.Runs (cfg x.proc) x.proc task →
      older.length < batchLimit (cfg x.proc) w x.proc := by
  obtain ⟨tr, w', hexec, hyield⟩ := exec_allocatorProducer cfg x h
  constructor
  · intro hruns older task newer hsplit holder htask
    by_contra hlong
    obtain ⟨r, tr', w'', hexec', a, ha, hrun⟩ :=
      hruns ⟨task, hsplit ▸ List.mem_append_right _ List.mem_cons_self, htask⟩
    rw [hexec] at hexec'
    cases hexec'
    -- the whole batch is older than the task
    rw [hyield, hsplit, List.take_append_of_le_length (not_lt.mp hlong)] at ha
    exact holder a (List.mem_of_mem_take ha) hrun
  · intro hcond hsome
    obtain ⟨older, task, newer, hsplit, holder, htask⟩ := exists_first hsome
    have hlt := hcond older task newer hsplit holder htask
    refine ⟨_, tr, w', hexec, task, ?_, htask⟩
    obtain ⟨k, hk⟩ := Nat.exists_eq_add_of_lt hlt
    rw [hyield, hsplit, hk, Nat.add_assoc, List.take_length_add_append]
    exact List.mem_append_right _ List.mem_cons_self

namespace AllocationBatch

/-- Two engines, for different platforms. -/
def settings : Nat → Settings := fun _ => {
  engines := [("pcrystal", { name := "pcrystal", platforms := ["debian"] }),
    ("cp2k", { name := "cp2k", platforms := ["windows"] })] }

/-- A machine that is free, and a backlog. -/
def world (engines : List String) : World :=
  { FreeMachines.world with
    db := .ofLists (engines.map fun name => { engine := name, check := fieldCheck_toDo })
      [{ hostname := "10.0.0.1", ncpus := some 4 }] }

/-- Ten tasks that the machine cannot run are older than the one it can. -/
def backlog : List String := List.replicate 10 "cp2k" ++ ["pcrystal"]

/-- Nothing is going on there. -/
theorem world_regular (engines : List String) : (world engines).Regular where
  taskLocks _ _ _ _ h := nomatch h
  nodeLocks _ _ _ _ h := nomatch h
  registered := FreeMachines.world_regular.registered

theorem world_runs {engines : List String} {task : TodoTask} (h : task.engine = "pcrystal")
    (hidle : ∀ r ∈ (world engines).db.taskRows, ¬ r.2.RunsOn 1) :
    (world engines).Runs (settings 0) 0 task := by
  refine ⟨{ name := "pcrystal", platforms := ["debian"] }, by rw [h]; rfl, ⟨1, 0⟩,
    { hostname := "10.0.0.1", ncpus := some 4, nodeId := 1 }, ?_, .inr ⟨"debian", ?_, ?_⟩⟩
  · exact
      { registered := List.mem_singleton_self _
        free := rfl
        row := Database.mem_nodeRows.mpr ⟨le_rfl, rfl⟩
        session := rfl
        enabled := rfl
        idle := fun t row hmem => hidle (t, row) hmem }
  · exact List.mem_singleton_self _
  · exact List.mem_singleton_self _

/-- The machine cannot run the other engine. -/
theorem world_not_runs {engines : List String} {task : TodoTask} (h : task.engine = "cp2k") :
    ¬ (world engines).Runs (settings 0) 0 task := by
  rintro ⟨engine, hengine, s, node, havail, haccepts⟩
  rw [h] at hengine
  obtain rfl : ({ name := "cp2k", platforms := ["windows"] } : Engine) = engine :=
    Option.some.inj hengine
  obtain rfl : s = ⟨1, 0⟩ := List.mem_singleton.mp havail.registered
  rcases haccepts with hnone | ⟨name, hname, hmem⟩
  · cases hnone
  · obtain rfl : name = "debian" := List.mem_singleton.mp hname
    exact absurd (List.mem_singleton.mp hmem) (by decide)

end AllocationBatch

/-- A short backlog: the task that the machine can run is considered. -/
theorem batchRuns_short : BatchRuns AllocationBatch.settings ⟨0, 1⟩
    (AllocationBatch.world ["cp2k", "pcrystal"]) := by
  refine (batchRuns_iff _ _ _ (AllocationBatch.world_regular _)).mpr ?_
  intro older task newer hsplit _ _
  have hlen : 2 = older.length + (newer.length + 1) :=
    (by decide +kernel : 2 = (todoTasks _).length).trans
      ((congrArg List.length hsplit).trans List.length_append)
  exact lt_of_lt_of_le (by omega) (le_max_right _ 10)

/-- **A runnable task is not considered**: ten tasks before it keep it out. This
does not end by itself, since the ten stay TO_DO as long as no machine for them
appears. -/
theorem batchRuns_blocked : ¬ ∀ (cfg : Nat → Settings) (x : Tid) (w : World),
    w.Regular → BatchRuns cfg x w := by
  intro h
  obtain ⟨tr, w', hexec, hyield⟩ := exec_allocatorProducer AllocationBatch.settings
    ⟨0, 1⟩ (AllocationBatch.world_regular AllocationBatch.backlog)
  have hbatch : ∀ task ∈ (todoTasks (AllocationBatch.world AllocationBatch.backlog).db.taskRows).take
      (batchLimit (AllocationBatch.settings 0) (AllocationBatch.world AllocationBatch.backlog) 0),
      task.engine = "cp2k" := by
    decide +kernel
  have hrunnable : ∃ task ∈ todoTasks
      (AllocationBatch.world AllocationBatch.backlog).db.taskRows, task.engine = "pcrystal" := by
    decide +kernel
  have hidle : ∀ r ∈ (AllocationBatch.world AllocationBatch.backlog).db.taskRows,
      ¬ r.2.RunsOn 1 := by
    decide +kernel
  obtain ⟨task, htask, hengine⟩ := hrunnable
  obtain ⟨r, tr', w'', hexec', a, ha, hruns⟩ :=
    h AllocationBatch.settings ⟨0, 1⟩ _ (AllocationBatch.world_regular AllocationBatch.backlog)
      ⟨task, htask, AllocationBatch.world_runs hengine hidle⟩
  rw [hexec] at hexec'
  cases hexec'
  rw [hyield] at ha
  exact AllocationBatch.world_not_runs (hbatch a ha) hruns

end Yascheduler
