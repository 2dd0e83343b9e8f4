import Yascheduler.Application.Snapshot

/-!
# The machines a task is offered

`_find_free_machines` joins the sessions of the process with the rows of the
database. A session can be offered if it is FREE, its node is enabled, and no
task runs on it; whether it suits the engine is a matter of platforms, and an
engine that declares none runs anywhere.

The last of these is what the code misses. The filter of `list_free` tells
"no filter" from "no platform" by `None`, and the use case always passes a
list – so an engine without platforms is offered nothing, and this is the
only case in which the selection is not exact (`selectsFree_iff`).

That the selection is exact includes its order and that nothing is offered twice.
A task tries the machines in this order, and each attempt costs a claim and an
upload.
-/

namespace Yascheduler

open Store Async

/-! ## What may be offered

The statement is about the rows and the sessions as they are, in the words of a
user: a machine that is free, that is enabled and that suits the engine. An
engine that names no platform suits every machine, which is how the rest of the
code takes it when it looks for a provider. -/

/-- The engine runs on a machine with these platforms; one that declares no platform
runs on every machine. This is how providers are matched, and the code says that
machines are as well. -/
def Engine.Accepts (engine : Engine) (platforms : List String) : Prop :=
  engine.platforms = [] ∨ ∃ name ∈ platforms, name ∈ engine.platforms

/-- The platforms of a session's machine. -/
def Memory.platforms (m : Memory) (s : SessionId) : List String :=
  ((m.heap s).map (·.machine.platforms)).getD []

/-- **A machine that is free**: its session is, its node is enabled, and no task
runs on it. The first is known in memory, the other two in the database. -/
structure World.Available (w : World) (p : Nat) (s : SessionId) (node : Node) : Prop where
  registered : s ∈ (w.procs p).registry.map Prod.snd
  free : (w.procs p).machineState s = .free
  row : node ∈ w.db.nodeRows
  session : node.nodeId = s.node
  enabled : node.enabled = true
  idle : ∀ t row, (t, row) ∈ w.db.taskRows → ¬ row.RunsOn s.node

/-- A machine that may be offered to a task of the engine. -/
def World.Offers (w : World) (p : Nat) (engine : Engine) (s : SessionId) (node : Node) :
    Prop :=
  w.Available p s node ∧ engine.Accepts ((w.procs p).platforms s)

/-- **The selection is exact**: these machines, each once, the one that has been
free longest first. The order is what spreads the tasks over the machines. -/
structure World.Selects (w : World) (p : Nat) (engine : Engine)
    (pairs : List (SessionId × Node)) : Prop where
  exact : ∀ s node, (s, node) ∈ pairs ↔ w.Offers p engine s node
  once : (pairs.map Prod.fst).Nodup
  order : (pairs.map Prod.fst).Pairwise fun s s' =>
    (w.procs p).freeSince s ≤ (w.procs p).freeSince s'

/-! ## Rows

The rows that a query lists are put into correspondence with the rows of the
table, each once. After this a list is a set with an order, and the join is a
matter of sets. -/

namespace Database

variable {db : Database}

/-- The listed nodes are the rows. -/
theorem mem_nodeRows {node : Node} : node ∈ db.nodeRows ↔
    node.nodeId.value ≤ db.lastNode ∧ db.nodes.rows node.nodeId = some node.toNewNode := by
  unfold nodeRows
  simp only [List.mem_filterMap, mem_nodeIds, Option.map_eq_some_iff]
  constructor
  · rintro ⟨n, hn, row, hrow, rfl⟩
    exact ⟨hn, hrow⟩
  · rintro ⟨hn, hrow⟩
    exact ⟨node.nodeId, hn, node.toNewNode, hrow, rfl⟩

/-- The enabled ones among them, in whatever order the database returns them. -/
theorem mem_enabledRows {c : Conn} {node : Node} :
    node ∈ db.enabledRows c ↔ node ∈ db.nodeRows ∧ node.enabled = true :=
  RowOrder.mem_arrange.trans List.mem_filter

/-- The disabled ones among them that are machines already. -/
theorem mem_disabledRows {c : Conn} {node : Node} : node ∈ db.disabledRows c ↔
    node ∈ db.nodeRows ∧ node.enabled = false ∧ node.hostname ≠ "" := by
  unfold disabledRows
  rw [RowOrder.mem_arrange, List.mem_filter, decide_eq_true_eq, Bool.not_eq_true']

/-- A node has one row. -/
theorem nodeRows_unique {a b : Node} (ha : a ∈ db.nodeRows) (hb : b ∈ db.nodeRows)
    (h : a.nodeId = b.nodeId) : a = b := by
  have hrow := (mem_nodeRows.mp ha).2
  rw [h, (mem_nodeRows.mp hb).2] at hrow
  cases a
  cases b
  cases h
  cases hrow
  rfl

/-- No row is listed twice. -/
theorem nodup_nodeRows : db.nodeRows.Nodup := by
  refine db.nodup_nodeIds.filterMap fun n n' node hn hn' => ?_
  obtain ⟨row, -, rfl⟩ := Option.map_eq_some_iff.mp hn
  obtain ⟨row', -, heq⟩ := Option.map_eq_some_iff.mp hn'
  exact (congrArg Node.nodeId heq).symm

theorem nodup_enabledRows {c : Conn} : (db.enabledRows c).Nodup :=
  (db.order.perm c _).nodup_iff.mpr (nodup_nodeRows.filter _)

theorem nodup_disabledRows {c : Conn} : (db.disabledRows c).Nodup :=
  (db.order.perm c _).nodup_iff.mpr (nodup_nodeRows.filter _)

end Database

/-- The running tasks that a list of rows stands for. A RUNNING row without a node
would stand for none; the schema excludes it. -/
def runningTasks (rows : List (TaskId × TaskRow)) : List RunningTask :=
  ((rows.filter (·.2.status = .running)).map fun r => r.2.toTask r.1).filterMap
    AnyTask.running?

/-- The running task of a row runs on the node of the row. -/
theorem TaskRow.running?_toTask {row : TaskRow} {t : TaskId} {n : NodeId} :
    (∃ task, (row.toTask t).running? = some task ∧ task.state.allocatedNodeId = n) ↔
      row.RunsOn n := by
  have hstatus := row.state_status
  have hnode := row.state_allocatedNodeId
  unfold AnyTask.running? TaskRow.RunsOn
  simp only [TaskRow.toTask]
  cases hs : row.state with
  | running s =>
    rw [hs] at hstatus hnode
    have hrunning : row.status = .running := hstatus.symm
    have hn : some s.allocatedNodeId = row.allocatedNodeId := by
      refine hnode ?_
      rw [hrunning]
      rintro ⟨⟩
    rw [← hn, hrunning]
    constructor
    · rintro ⟨task, htask, rfl⟩
      cases htask
      exact ⟨rfl, rfl⟩
    · rintro ⟨-, h⟩
      exact ⟨_, rfl, Option.some.inj h⟩
  | todo s | done s =>
    rw [hs] at hstatus
    constructor
    · rintro ⟨_, h, -⟩
      cases h
    · rintro ⟨h, -⟩
      cases hstatus.trans h

/-- A node is busy if a row says that a task runs on it. -/
theorem mem_busy {rows : List (TaskId × TaskRow)} {n : NodeId} :
    n ∈ (runningTasks rows).map (·.state.allocatedNodeId) ↔
      ∃ t row, (t, row) ∈ rows ∧ row.RunsOn n := by
  unfold runningTasks
  rw [List.filterMap_map, List.mem_map]
  simp only [List.mem_filterMap, List.mem_filter, Function.comp_apply, decide_eq_true_eq]
  constructor
  · rintro ⟨task, ⟨⟨t, row⟩, ⟨hmem, -⟩, htask⟩, hn⟩
    exact ⟨t, row, hmem, TaskRow.running?_toTask.mp ⟨task, htask, hn⟩⟩
  · rintro ⟨t, row, hmem, hruns⟩
    obtain ⟨task, htask, hn⟩ := TaskRow.running?_toTask.mpr hruns
    exact ⟨task, ⟨(t, row), ⟨hmem, hruns.1⟩, htask⟩, hn⟩

/-! ## The join

The join goes through the sessions and keeps those for which both conditions on
the row hold. Which row it takes for a session depends on the last one with the
identifier, and there is only one. -/

/-- The last of the nodes with an identifier. -/
theorem find_reverse {nodes : List Node} {n : NodeId} {node : Node}
    (hunique : ∀ a ∈ nodes, ∀ b ∈ nodes, a.nodeId = b.nodeId → a = b) :
    (nodes.reverse.find? fun a => a.nodeId = n) = some node ↔
      node ∈ nodes ∧ node.nodeId = n := by
  constructor
  · intro h
    exact ⟨List.mem_reverse.mp (List.mem_of_find?_eq_some h), by simpa using List.find?_some h⟩
  · rintro ⟨hmem, rfl⟩
    cases h : nodes.reverse.find? fun a => a.nodeId = node.nodeId with
    | none =>
      exact absurd (decide_eq_true rfl) (List.find?_eq_none.mp h node (List.mem_reverse.mpr hmem))
    | some a =>
      refine congrArg some (hunique a ?_ node hmem (by simpa using List.find?_some h))
      exact List.mem_reverse.mp (List.mem_of_find?_eq_some h)

/-- **What the join keeps.** A session whose node has an enabled row and no running
task, with that row. -/
theorem mem_freePairs {running : List RunningTask} {enabled : List Node}
    {sessions : List SessionId} {s : SessionId} {node : Node}
    (hunique : ∀ a ∈ enabled, ∀ b ∈ enabled, a.nodeId = b.nodeId → a = b) :
    (s, node) ∈ freePairs running enabled sessions ↔ s ∈ sessions ∧
      (node ∈ enabled ∧ node.nodeId = s.node) ∧
      s.node ∉ running.map (·.state.allocatedNodeId) := by
  rw [← find_reverse hunique]
  unfold freePairs
  rw [List.mem_filterMap]
  constructor
  · rintro ⟨s', hs', h⟩
    split at h
    · rename_i n hfind
      split at h
      · cases h
      · rename_i hbusy
        cases h
        exact ⟨hs', hfind, hbusy⟩
    · cases h
  · rintro ⟨hs, hfind, hbusy⟩
    exact ⟨s, hs, by simp [hfind, hbusy]⟩

/-- The sessions of the join are among those it was given, in their order. -/
theorem freePairs_sublist (running : List RunningTask) (enabled : List Node)
    (sessions : List SessionId) :
    ((freePairs running enabled sessions).map Prod.fst).Sublist sessions := by
  unfold freePairs
  induction sessions with
  | nil => exact .refl []
  | cons s sessions ih =>
    rw [List.filterMap_cons]
    split
    · exact ih.cons s
    · rename_i pair hpair
      have hfst : pair.1 = s := by
        split at hpair
        · split at hpair <;> cases hpair
          rfl
        · cases hpair
      rw [List.map_cons, hfst]
      exact ih.cons_cons s

/-! ## The selection

The platforms are compared in `list_free`, before the join. It is told the
platforms of the engine as a list, and takes the absence of a list for the
absence of a filter. The case of an engine without platforms falls in between.
-/

/-- **What `list_free` returns.** Asked for an empty list of platforms it returns
nothing; only asked for none at all it does not look at them. -/
theorem Memory.mem_listFree {m : Memory} {names : List String} {s : SessionId} :
    s ∈ m.listFree (some names) ↔ s ∈ m.registry.map Prod.snd ∧ m.machineState s = .free ∧
      ∃ name ∈ m.platforms s, name ∈ names := by
  unfold listFree
  rw [List.mem_insertionSort, List.mem_filter]
  refine and_congr_right fun _ => ?_
  rw [Bool.and_eq_true, decide_eq_true_eq]
  refine and_congr_right fun _ => ?_
  unfold platforms
  cases m.heap s with
  | none => simp
  | some x => simp

/-- No session is returned twice, since each is registered under one node. -/
theorem Memory.nodup_listFree {m : Memory} (h : m.Registered) (names : Option (List String)) :
    (m.listFree names).Nodup :=
  (List.perm_insertionSort _ _).nodup_iff.mpr (h.nodup_sessions.filter _)

/-- They are sorted by the time since when they have been free. -/
theorem Memory.pairwise_listFree (m : Memory) (names : Option (List String)) :
    (m.listFree names).Pairwise fun s s' => m.freeSince s ≤ m.freeSince s' := by
  have htotal : Std.Total fun s s' => m.freeSince s ≤ m.freeSince s' :=
    ⟨fun s s' => le_total _ _⟩
  have htrans : IsTrans SessionId fun s s' => m.freeSince s ≤ m.freeSince s' :=
    ⟨fun _ _ _ => le_trans⟩
  exact List.pairwise_insertionSort _ _

variable (cfg : Nat → Settings) (x : Tid) {w : World}

/-- **What `_find_free_machines` returns** when nobody disturbs it. The three lists
are read one after the other, so it is exact only for a world that stands still. -/
theorem exec_findFreeMachines (h : w.Regular) (engine : Engine) :
    ∃ tr, (undisturbed cfg x).exec (findFreeMachines engine) w =
      some (.ok (freePairs (runningTasks w.db.taskRows) (w.db.enabledRows (w.nextConn x))
        ((w.procs x.proc).listFree (some engine.platforms))), tr, w.connected 1) := by
  have hread : (undisturbed cfg x).exec (do
      let running ← Tasks.listRunning (w.db.lastConn + 1)
      let enabled ← Nodes.listEnabled (w.db.lastConn + 1)
      return (running, enabled)) (w.connected 1) = some (.ok (runningTasks w.db.taskRows,
        w.db.enabledRows (w.nextConn x)), _, w.connected 1) :=
    Solo.exec_bind (Solo.exec_bind (exec_sql le_rfl (h.exec_listRunning x)) rfl)
      (Solo.exec_bind (exec_sql le_rfl (h.exec_listEnabled x)) rfl)
  exact ⟨_, Solo.exec_bind (exec_within h hread) (Solo.exec_bind (exec_ask rfl) rfl)⟩

/-- Where the engine declares platforms, the selection is exact. -/
theorem selects_freePairs (h : w.Regular) (p : Nat) (c : Conn)
    (hexact : ∀ s node, w.Available p s node →
      (engine.Accepts ((w.procs p).platforms s) ↔
        ∃ name ∈ (w.procs p).platforms s, name ∈ engine.platforms)) :
    w.Selects p engine (freePairs (runningTasks w.db.taskRows)
      (w.db.enabledRows c) ((w.procs p).listFree (some engine.platforms))) where
  exact s node := by
    rw [mem_freePairs fun a ha b hb => Database.nodeRows_unique (Database.mem_enabledRows.mp ha).1
      (Database.mem_enabledRows.mp hb).1, Memory.mem_listFree, Database.mem_enabledRows, mem_busy]
    constructor
    · rintro ⟨⟨hreg, hfree, hnames⟩, ⟨⟨hrow, henabled⟩, hs⟩, hidle⟩
      have havail : w.Available p s node :=
        ⟨hreg, hfree, hrow, hs, henabled, fun t row hmem hruns => hidle ⟨t, row, hmem, hruns⟩⟩
      exact ⟨havail, (hexact s node havail).mpr hnames⟩
    · rintro ⟨havail, haccepts⟩
      exact ⟨⟨havail.registered, havail.free, (hexact s node havail).mp haccepts⟩,
        ⟨⟨havail.row, havail.enabled⟩, havail.session⟩,
        fun ⟨t, row, hmem, hruns⟩ => havail.idle t row hmem hruns⟩
  once := (freePairs_sublist _ _ _).nodup (Memory.nodup_listFree (h.registered p) _)
  order := (Memory.pairwise_listFree _ _).sublist (freePairs_sublist _ _ _)

/-- The selection of an undisturbed `_find_free_machines` is exact. -/
def SelectsFree (cfg : Nat → Settings) (x : Tid) (w : World) (engine : Engine) : Prop :=
  ∃ pairs tr w', (undisturbed cfg x).exec (findFreeMachines engine) w =
    some (.ok pairs, tr, w') ∧ w.Selects x.proc engine pairs

/-- **The selection is exact** if and only if the engine declares a platform, or
there is nothing to select. The list of platforms is passed on as it is, and an
empty one is not taken for `None`. -/
theorem selectsFree_iff (cfg : Nat → Settings) (x : Tid) (w : World) (engine : Engine)
    (h : w.Regular) : SelectsFree cfg x w engine ↔
      engine.platforms ≠ [] ∨ ∀ s node, ¬ w.Available x.proc s node := by
  obtain ⟨tr, hexec⟩ := exec_findFreeMachines cfg x h engine
  constructor
  · rintro ⟨pairs, tr', w', hexec', hsel⟩
    rw [hexec] at hexec'
    cases hexec'
    refine Classical.or_iff_not_imp_left.mpr fun hnone s node havail => ?_
    have hnone : engine.platforms = [] := not_not.mp hnone
    -- the session is to be offered, but without a platform it is filtered out
    have hmem := (hsel.exact s node).mpr ⟨havail, .inl hnone⟩
    have hlist := (freePairs_sublist _ _ _).subset (List.mem_map_of_mem (f := Prod.fst) hmem)
    obtain ⟨-, -, name, -, hname⟩ := Memory.mem_listFree.mp hlist
    rw [hnone] at hname
    cases hname
  · intro hcond
    refine ⟨_, _, _, hexec, selects_freePairs h x.proc _ fun s node havail => ?_⟩
    rcases hcond with hne | hnone
    · exact or_iff_right hne
    · exact absurd havail (hnone s node)

namespace FreeMachines

/-- One machine, connected and idle. -/
def world : World where
  db := .ofLists [] [{ hostname := "10.0.0.1", ncpus := some 4 }]
  procs _ := .ofSessions [(⟨1, 0⟩, { machine := { nodeId := 1, platforms := ["debian"] } })]

theorem world_regular : world.Regular where
  taskLocks _ _ _ _ h := nomatch h
  nodeLocks _ _ _ _ h := nomatch h
  registered _ := .ofSessions (List.nodup_cons.mpr ⟨List.not_mem_nil, List.nodup_nil⟩)

theorem world_available :
    world.Available 0 ⟨1, 0⟩ { hostname := "10.0.0.1", ncpus := some 4, nodeId := 1 } where
  registered := by decide
  free := rfl
  row := Database.mem_nodeRows.mpr ⟨le_rfl, rfl⟩
  session := rfl
  enabled := rfl
  idle t row h := nomatch h

end FreeMachines

/-- An engine for one platform is offered the machine that has it. -/
theorem selectsFree_debian : SelectsFree (fun _ => {}) ⟨0, 1⟩ FreeMachines.world
    { name := "pcrystal", platforms := ["debian"] } :=
  (selectsFree_iff _ _ _ _ FreeMachines.world_regular).mpr (.inl (by decide))

/-- **An engine without platforms is offered nothing**, although a machine is free
that could run it. -/
theorem selectsFree_none : ¬ ∀ (cfg : Nat → Settings) (x : Tid) (w : World) (engine : Engine),
    w.Regular → SelectsFree cfg x w engine := by
  intro h
  obtain ⟨pairs, tr, w', hexec, hsel⟩ :=
    h (fun _ => {}) ⟨0, 1⟩ _ { name := "pcrystal" } FreeMachines.world_regular
  obtain ⟨tr', hexec'⟩ := exec_findFreeMachines (fun _ => {}) ⟨0, 1⟩
    FreeMachines.world_regular { name := "pcrystal" }
  rw [hexec] at hexec'
  have hnothing : pairs = [] := by
    injection hexec' with h₁
    injection h₁ with h₂
    injection h₂
  have hmem := (hsel.exact _ _).mpr ⟨FreeMachines.world_available, .inl rfl⟩
  rw [hnothing] at hmem
  cases hmem

end Yascheduler
