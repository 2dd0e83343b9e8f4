import Yascheduler.Application.BoundedQueues
import Yascheduler.Safety.FreeMachines

/-!
# What the producers put into the queues

A producer reads the database and the memory of its daemon, and puts messages
into its queue; the one of the deallocator first disables the nodes that have
been idle for too long. In a cycle that nobody disturbs the messages are
exactly those that are due: the machines that are not connected but should be,
and the disabled nodes that no task needs any more.

A queue skips a message whose identifier is waiting in it or being worked on,
so what a cycle adds are the messages that are due and not there yet.

## Whether a cycle ends

By default the queue of the connecting workers holds ten messages, and each of
the others one. With more that is due the producer waits, and if nobody takes a
message it does so for ever. So a cycle ends if and only if there is room for
what is due (`Cycle.ends`, `Cycle.waits`). In a daemon with several tasks there
rarely is: the workers empty the queue while the producer fills it.
-/

namespace Yascheduler

open Store Async

variable {cfg : Nat → Settings} {x : Tid} {w : World}

/-! ## Connecting machines

A machine should be connected if its node is enabled, or if it has a task to
finish. The cycle reads the enabled nodes and the disabled ones with a task by
two queries, so no node is in both, and then asks the memory which of them have
no session. -/

/-- Nodes with the same number are the same. -/
theorem nodeId_ext {m n : NodeId} (h : m.value = n.value) : m = n := by
  cases m
  cases n
  cases h
  rfl

/-- So are tasks. -/
theorem taskId_ext {s t : TaskId} (h : s.value = t.value) : s = t := by
  cases s
  cases t
  cases h
  rfl

/-- A task runs on the node. -/
def World.Busy (w : World) (n : NodeId) : Prop :=
  ∃ t row, (t, row) ∈ w.db.taskRows ∧ row.RunsOn n

/-- **A machine that is missing**: its node is enabled, or still has a task to
finish, and no session is registered for it. A disabled node is connected again only
for the sake of its task. -/
structure World.Missing (w : World) (p : Nat) (node : Node) : Prop where
  row : node ∈ w.db.nodeRows
  wanted : node.enabled = true ∨ node.hostname ≠ "" ∧ w.Busy node.nodeId
  unregistered : (w.procs p).registry.get node.nodeId = none

/-- The nodes that should be connected, as a connection lists them. It is the order
in which they are put into the queue. -/
def wantedNodes (db : Database) (c : Conn) : List Node :=
  db.enabledRows c ++ (db.disabledRows c).filter fun n =>
    n.nodeId ∈ (runningTasks db.taskRows).map (·.state.allocatedNodeId)

/-- These are the enabled nodes, and the disabled ones on which tasks run. -/
theorem mem_wantedNodes {c : Conn} {node : Node} : node ∈ wantedNodes w.db c ↔
    node ∈ w.db.nodeRows ∧
      (node.enabled = true ∨ node.hostname ≠ "" ∧ w.Busy node.nodeId) := by
  unfold wantedNodes World.Busy
  rw [List.mem_append, List.mem_filter, Database.mem_enabledRows, Database.mem_disabledRows,
    decide_eq_true_eq, mem_busy]
  cases he : node.enabled with
  | true => simp
  | false => simp [and_assoc]

/-- No node is among them twice, since it is enabled or not. -/
theorem nodup_wantedNodes (db : Database) (c : Conn) : (wantedNodes db c).Nodup := by
  refine List.Nodup.append Database.nodup_enabledRows (Database.nodup_disabledRows.filter _) ?_
  intro node henabled hdisabled
  have htrue := (Database.mem_enabledRows.mp henabled).2
  have hfalse := (Database.mem_disabledRows.mp (List.mem_of_mem_filter hdisabled)).2.1
  rw [htrue] at hfalse
  cases hfalse

/-- Different nodes have different identifiers. -/
theorem nodup_msgIds {ms : List Node} (h : ms.Nodup) (hrows : ∀ node ∈ ms, node ∈ w.db.nodeRows) :
    (ms.map fun node => node.nodeId.value).Nodup :=
  h.map_on fun a ha b hb hid =>
    Database.nodeRows_unique (hrows a ha) (hrows b hb) (nodeId_ext hid)

/-- What the cycle that connects machines reads first. -/
theorem outcome_enabledOrDraining (h : w.Regular) :
    (alone cfg x).outcome enabledOrDraining w =
      some (.ok (wantedNodes w.db (w.nextConn x)), w.connected 1) := by
  have hread : (undisturbed cfg x).exec (do
      let enabled ← Nodes.listEnabled (w.db.lastConn + 1)
      let running ← Tasks.listRunning (w.db.lastConn + 1)
      let busy := running.map (·.state.allocatedNodeId)
      let disabled ← Nodes.listDisabled (w.db.lastConn + 1)
      return enabled ++ disabled.filter fun n => n.nodeId ∈ busy) (w.connected 1) =
      some (.ok (wantedNodes w.db (w.nextConn x)), _, w.connected 1) :=
    Solo.exec_bind (exec_sql le_rfl (h.exec_listEnabled x)) (Solo.exec_bind
      (Solo.exec_bind (exec_sql le_rfl (h.exec_listRunning x)) rfl)
      (Solo.exec_bind (exec_sql le_rfl (h.exec_listDisabled x)) rfl))
  have hinside : (scope ∅).Inside ∅ enabledOrDraining := inside_enabledOrDraining
  exact outcome_alone hinside (Set.notMem_empty _) (exec_within h hread)

/-- Asking which nodes are connected changes nothing. -/
theorem exec_notConnected (cfg : Nat → Settings) (x : Tid) (nodes : List Node) (w : World) :
    ∃ tr, (undisturbed cfg x).exec (notConnected nodes) w = some (.ok (nodes.filter fun n =>
      ((w.procs x.proc).registry.get n.nodeId).isNone), tr, w) := by
  induction nodes with
  | nil => exact ⟨[], rfl⟩
  | cons node nodes ih =>
    obtain ⟨tr, htr⟩ := ih
    have hfilter : (if ((w.procs x.proc).registry.get node.nodeId).isSome then
          nodes.filter fun n => ((w.procs x.proc).registry.get n.nodeId).isNone
        else node :: nodes.filter fun n => ((w.procs x.proc).registry.get n.nodeId).isNone) =
        (node :: nodes).filter fun n => ((w.procs x.proc).registry.get n.nodeId).isNone := by
      rw [List.filter_cons]
      cases (w.procs x.proc).registry.get node.nodeId <;> simp
    rw [← hfilter]
    exact ⟨_, Solo.exec_bind (exec_ask rfl) (Solo.exec_bind htr rfl)⟩

/-- The nodes that are not registered. -/
def Memory.notRegistered (m : Memory) (nodes : List Node) : List Node :=
  nodes.filter fun n => (m.registry.get n.nodeId).isNone

/-- A node that is not registered has no session, open or closed. -/
theorem mem_notRegistered {m : Memory} {nodes : List Node} {node : Node} :
    node ∈ m.notRegistered nodes ↔ node ∈ nodes ∧ m.registry.get node.nodeId = none := by
  unfold Memory.notRegistered
  rw [List.mem_filter, Option.isNone_iff_eq_none]

/-- The second thing it reads. -/
theorem outcome_notConnected (nodes : List Node) (w : World) :
    (alone cfg x).outcome (notConnected nodes) w =
      some (.ok ((w.procs x.proc).notRegistered nodes), w) := by
  obtain ⟨tr, hexec⟩ := exec_notConnected cfg x nodes w
  have hinside : (scope ∅).Inside ∅ (notConnected nodes) := inside_notConnected nodes
  exact outcome_alone hinside (Set.notMem_empty _) hexec

/-- **Exactly the missing machines are connected.** In a cycle of the producer that
nobody disturbs, no row of a task or a node changes, and what is put into the queue
are the missing machines that nobody is connecting yet. The queue is bounded, so a
cycle may have to wait for the workers to take something from it; then the rest is
still to be put. -/
theorem connectsMissing (cfg : Nat → Settings) (x : Tid) (w : World) (h : w.Regular) :
    ∃ due, Cycle cfg x .connMachine connectMachineProducer w (w.Missing x.proc)
      (fun w' => w'.db.tasks = w.db.tasks ∧ w'.db.nodes = w.db.nodes) due := by
  let wanted := wantedNodes w.db (w.nextConn x)
  have hnodup : ((w.procs x.proc).notRegistered wanted).Nodup :=
    (nodup_wantedNodes w.db _).filter _
  have hids := nodup_msgIds (w := w) hnodup fun node hnode =>
    (mem_wantedNodes.mp (mem_notRegistered.mp hnode).1).1
  have hputs : PutsDue cfg x .connMachine connectMachineProducer w (w.connected 1) _ :=
    .after (outcome_enabledOrDraining h) (.after (outcome_notConnected wanted _)
      (puts_putAll .connMachine _ _ hids))
  refine ⟨_, hputs.cycle rfl hnodup (fun node => mem_notRegistered.trans ?_)
    fun _ => ⟨rfl, rfl⟩⟩
  rw [mem_wantedNodes]
  constructor
  · rintro ⟨⟨hrow, hwanted⟩, hun⟩
    exact ⟨hrow, hwanted, hun⟩
  · rintro ⟨hrow, hwanted, hun⟩
    exact ⟨⟨hrow, hwanted⟩, hun⟩

namespace ProducerCycles

/-- A daemon that has just been started: nothing is connected. -/
def world (tasks : List TaskRow) (nodes : List NewNode) : World where
  db := .ofLists tasks nodes

/-- Nothing is going on there. -/
theorem world_regular (tasks : List TaskRow) (nodes : List NewNode) :
    (world tasks nodes).Regular where
  taskLocks _ _ _ _ h := nomatch h
  nodeLocks _ _ _ _ h := nomatch h
  registered _ := @Memory.Registered.ofSessions [] List.nodup_nil

end ProducerCycles

/-- The machine of a new daemon is connected. -/
theorem connectsMissing_new : ∃ w',
    (alone (fun _ => {}) ⟨0, 1⟩).outcome connectMachineProducer
      (ProducerCycles.world [] [{ hostname := "10.0.0.1" }]) = some (.ok (), w') ∧
      (1, { hostname := "10.0.0.1", nodeId := 1 }) ∈
        ((w'.procs 0).queues .connMachine).queue := by
  obtain ⟨due, hcycle⟩ := connectsMissing (fun _ => {}) ⟨0, 1⟩ _
    (ProducerCycles.world_regular [] [{ hostname := "10.0.0.1" }])
  have hnode : { hostname := "10.0.0.1", nodeId := 1 } ∈ due :=
    (hcycle.exact _).mpr ⟨⟨Database.mem_nodeRows.mpr ⟨le_rfl, rfl⟩, .inl rfl, rfl⟩,
      List.not_mem_nil, List.not_mem_nil⟩
  -- the only node there is
  have hlength : due.length ≤ 1 := List.Subperm.length_le
    (hcycle.once.subperm fun node hmem => ((hcycle.exact node).mp hmem).1.row)
  obtain ⟨w', hends, -, hqueue⟩ := hcycle.ends
    (.inr (.inr (show 0 + due.length ≤ 10 by omega)))
  refine ⟨w', hends, ?_⟩
  rw [show ((w'.procs 0).queues .connMachine).queue = _ from hqueue]
  exact List.mem_append_right _ (List.mem_map_of_mem hnode)

/-! ## Consuming tasks

The running tasks are read by one query, and for each the memory is asked, at
its turn, whether it is being consumed. Undisturbed the answers belong to one
state. The skipped tasks take no place in the queue, so what has to find room
are the others. -/

/-- The running tasks that a list of rows stands for, those of them that are
not being consumed. -/
def Memory.notConsuming (m : Memory) (tasks : List RunningTask) : List RunningTask :=
  tasks.filter fun task => task.taskId ∉ m.consuming

/-- **Tasks are put while others are skipped**: those that are being consumed. The
skipped ones take no place in the queue. -/
theorem puts_putNotConsuming (tasks : List RunningTask) (w : World)
    (hids : (tasks.map fun task => task.taskId.value).Nodup) :
    PutsDue cfg x .consume (putNotConsuming tasks) w w
      (w.due x.proc .consume ((w.procs x.proc).notConsuming tasks)) := by
  induction tasks generalizing w with
  | nil => exact puts_putAll (q := .consume) [] w List.nodup_nil
  | cons task tasks ih =>
    obtain ⟨htask, hrest⟩ := List.nodup_cons.mp hids
    have hinside : (scope ∅).Inside ∅ (ask (.consumingContains task.taskId)) :=
      inside_plainAsk rfl
    by_cases hin : task.taskId ∈ (w.procs x.proc).consuming
    · have hask : (undisturbed cfg x).exec (ask (.consumingContains task.taskId)) w =
          some (.ok true, _, w) := exec_answer (by simp [Memory.call, hin])
      have hskip : (w.procs x.proc).notConsuming (task :: tasks) =
          (w.procs x.proc).notConsuming tasks := by simp [Memory.notConsuming, hin]
      rw [hskip]
      exact .after (outcome_alone hinside (Set.notMem_empty _) hask) (ih w hrest)
    · have hask : (undisturbed cfg x).exec (ask (.consumingContains task.taskId)) w =
          some (.ok false, _, w) := exec_answer (by simp [Memory.call, hin])
      have hput : (w.procs x.proc).notConsuming (task :: tasks) =
          task :: (w.procs x.proc).notConsuming tasks := by simp [Memory.notConsuming, hin]
      have hother : task.taskId.value ∉
          ((w.procs x.proc).notConsuming tasks).map fun task => task.taskId.value := fun hmem =>
        htask ((List.filter_sublist.map _).subset hmem)
      have hafter := ih (w.modifyProc x.proc
        (·.modifyQueue .consume (·.put (QueueName.msgId .consume task) task))) hrest
      rw [World.modifyProc_self] at hafter
      rw [hput]
      exact .after (outcome_alone hinside (Set.notMem_empty _) hask)
        (.cons hother (ih w hrest) hafter)

/-- **A task that is to be consumed**: it runs, and nobody is consuming it. Whether
it has ended on its machine is for the consumer to find out. -/
structure World.ToConsume (w : World) (p : Nat) (task : RunningTask) : Prop where
  running : ∃ row, (task.taskId, row) ∈ w.db.taskRows ∧
    (row.toTask task.taskId).running? = some task
  free : task.taskId ∉ (w.procs p).consuming

/-- A running task keeps its identifier. -/
theorem running?_taskId {row : TaskRow} {t : TaskId} {task : RunningTask}
    (h : (row.toTask t).running? = some task) : t = task.taskId := by
  unfold AnyTask.running? at h
  split at h
  · cases h
    rfl
  · cases h

/-- They are the rows that run. -/
theorem mem_runningTasks {rows : List (TaskId × TaskRow)} {task : RunningTask} :
    task ∈ runningTasks rows ↔
      ∃ row, (task.taskId, row) ∈ rows ∧ (row.toTask task.taskId).running? = some task := by
  unfold runningTasks
  rw [List.filterMap_map]
  simp only [List.mem_filterMap, List.mem_filter, Function.comp_apply, decide_eq_true_eq]
  constructor
  · rintro ⟨⟨t, row⟩, ⟨hmem, -⟩, htask⟩
    obtain rfl : t = task.taskId := running?_taskId htask
    exact ⟨row, hmem, htask⟩
  · rintro ⟨row, hmem, htask⟩
    have hruns := (TaskRow.running?_toTask (n := task.state.allocatedNodeId)).mp
      ⟨task, htask, rfl⟩
    exact ⟨(task.taskId, row), ⟨hmem, hruns.1⟩, htask⟩

/-- Different tasks have different identifiers. -/
theorem nodup_runningTasks (db : Database) :
    ((runningTasks db.taskRows).map fun task => task.taskId.value).Nodup := by
  have hrows : db.taskRows.Pairwise fun r r' => r.1 ≠ r'.1 :=
    List.pairwise_map.mp (db.nodup_rowsOf _)
  unfold runningTasks
  rw [List.filterMap_map, List.Nodup, List.pairwise_map, List.pairwise_filterMap]
  refine (hrows.filter _).imp fun hne task htask task' htask' hid => hne ?_
  rw [running?_taskId htask, running?_taskId htask']
  exact taskId_ext hid

/-- **Exactly the running tasks that nobody consumes are queued.** In a cycle of the
producer that nobody disturbs, no row changes, and what is put into the queue are
the running tasks that are neither being consumed nor in the hands of a worker. The
queue holds a single message by default, so with several tasks a cycle has to wait
for the workers in between. -/
theorem consumesRunning (cfg : Nat → Settings) (x : Tid) (w : World) (h : w.Regular) :
    ∃ due, Cycle cfg x .consume taskConsumerProducer w (w.ToConsume x.proc)
      (fun w' => w'.db.tasks = w.db.tasks ∧ w'.db.nodes = w.db.nodes) due := by
  have hread : (undisturbed cfg x).exec (Tasks.listRunning (w.db.lastConn + 1))
      (w.connected 1) = some (.ok (runningTasks w.db.taskRows), _, w.connected 1) :=
    Solo.exec_bind (exec_sql le_rfl (h.exec_listRunning x)) rfl
  have hinside : (scope ∅).Inside ∅ (Uow.within fun c => Tasks.listRunning c) :=
    inside_within fun c => inside_listRunning (Set.mem_insert c ∅)
  have hrunning := outcome_alone hinside (Set.notMem_empty _) (exec_within h hread)
  have hids := nodup_runningTasks w.db
  have hputs : PutsDue cfg x .consume taskConsumerProducer w (w.connected 1) _ :=
    .after hrunning (puts_putNotConsuming _ _ hids)
  refine ⟨_, hputs.cycle rfl ((List.Nodup.of_map _ hids).filter _) (fun task => ?_)
    fun _ => ⟨rfl, rfl⟩⟩
  unfold Memory.notConsuming
  rw [List.mem_filter, mem_runningTasks, decide_eq_true_eq]
  exact ⟨fun hmem => ⟨hmem.1, hmem.2⟩, fun hmem => ⟨hmem.running, hmem.free⟩⟩

namespace ProducerCycles

/-- A task that runs on the first node. -/
def running : TaskRow where
  engine := "pcrystal"
  status := .running
  allocatedNodeId := some 1
  remoteFolder := some "/root/tasks/1"

end ProducerCycles

/-- Every running task is due at first. -/
theorem ProducerCycles.toConsume {rows : List TaskRow} {t : TaskId}
    (h : rows[t.value - 1]? = some running) (ht : t.value ≤ rows.length) :
    ∃ task, (world rows [{ hostname := "10.0.0.1" }]).ToConsume 0 task ∧ task.taskId = t := by
  have hruns : running.RunsOn 1 := ⟨rfl, rfl⟩
  obtain ⟨task, htask, -⟩ := (TaskRow.running?_toTask (t := t)).mpr hruns
  obtain rfl : t = task.taskId := running?_taskId htask
  refine ⟨task, ⟨⟨running, List.mem_filterMap.mpr ⟨task.taskId, ?_, ?_⟩, htask⟩,
    Finset.notMem_empty _⟩, rfl⟩
  · exact Database.mem_taskIds.mpr ht
  · show (rows[task.taskId.value - 1]?).map _ = _
    rw [h]
    rfl

/-- The running task of a new daemon is consumed; of two, one waits until a worker
has taken the other. -/
theorem consumesRunning_new :
    (∃ w' task, (alone (fun _ => {}) ⟨0, 1⟩).outcome taskConsumerProducer
        (ProducerCycles.world [ProducerCycles.running] [{ hostname := "10.0.0.1" }]) =
          some (.ok (), w') ∧
        (1, task) ∈ ((w'.procs 0).queues .consume).queue) ∧
      (alone (fun _ => {}) ⟨0, 1⟩).outcome taskConsumerProducer
        (ProducerCycles.world [ProducerCycles.running, ProducerCycles.running]
          [{ hostname := "10.0.0.1" }]) = none := by
  constructor
  · obtain ⟨due, hcycle⟩ := consumesRunning (fun _ => {}) ⟨0, 1⟩ _
      (ProducerCycles.world_regular [ProducerCycles.running] [{ hostname := "10.0.0.1" }])
    obtain ⟨task, htask, hid⟩ :=
      @ProducerCycles.toConsume [ProducerCycles.running] 1 rfl le_rfl
    have hmem : task ∈ due :=
      (hcycle.exact _).mpr ⟨htask, List.not_mem_nil, List.not_mem_nil⟩
    -- the only running task there is
    have hlength : due.length ≤ 1 := List.Subperm.length_le (hcycle.once.subperm fun task hmem =>
      mem_runningTasks.mpr ((hcycle.exact task).mp hmem).1.running)
    obtain ⟨w', hends, -, hqueue⟩ := hcycle.ends
      (.inr (.inr (show 0 + due.length ≤ 1 by omega)))
    refine ⟨w', task, hends, ?_⟩
    rw [show ((w'.procs 0).queues .consume).queue = _ from hqueue]
    refine List.mem_append_right _ (List.mem_map.mpr ⟨task, hmem, ?_⟩)
    exact Prod.ext (congrArg TaskId.value hid) rfl
  · obtain ⟨due, hcycle⟩ := consumesRunning (fun _ => {}) ⟨0, 1⟩ _
      (ProducerCycles.world_regular [ProducerCycles.running, ProducerCycles.running]
        [{ hostname := "10.0.0.1" }])
    have hmem : ∀ t : TaskId, t.value ≤ 2 → ∃ task ∈ due, task.taskId = t := by
      intro t ht
      have hrow : [ProducerCycles.running, ProducerCycles.running][t.value - 1]? =
          some ProducerCycles.running := by
        obtain h | h : t.value - 1 = 0 ∨ t.value - 1 = 1 := by omega
        · rw [h]
          rfl
        · rw [h]
          rfl
      obtain ⟨task, htask, hid⟩ := ProducerCycles.toConsume hrow ht
      exact ⟨task, (hcycle.exact _).mpr ⟨htask, List.not_mem_nil, List.not_mem_nil⟩, hid⟩
    obtain ⟨a, ha, hida⟩ := hmem 1 (by decide)
    obtain ⟨b, hb, hidb⟩ := hmem 2 (by decide)
    have hne : a ≠ b := by
      rintro rfl
      rw [hida] at hidb
      exact absurd hidb (by decide)
    have hpair : [a, b].Nodup := List.pairwise_pair.mpr hne
    have hlength : 2 ≤ due.length := (hpair.subperm (by simp [ha, hb])).length_le
    refine hcycle.waits ?_
    rintro (h | h | h)
    · omega
    · cases h
    · have hroom : 0 + due.length ≤ 1 := h
      omega

end Yascheduler
