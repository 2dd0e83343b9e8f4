import Yascheduler.Safety.ProducerCycles

/-!
# Which nodes are given up

A cycle of the deallocator disables the cloud nodes that have been idle for
longer than their provider tolerates, one transaction after the other, and
then queues every disabled node that no task needs for its teardown. Which
machines are idle it asks the memory of the daemon, which nodes are needed the
database, and both only once, at the beginning.

Undisturbed, a cycle gives up exactly the nodes that are overdue: no row of
another node changes, none that should go is missed, and what is queued are
the disabled nodes without a task, those of earlier cycles included.

## Why the cycle is undisturbed

In a run with others a node may be given up that was idle when it was looked at
and has a task by now, and the recheck before the teardown is there for that. It
is not what this module is about. Here the question is whether the cycle itself
chooses rightly, and that can only be said of a cycle that sees one state of
things from its beginning to its end.
-/

namespace Yascheduler

open Store Async

/-! ## Idle machines

When a machine became idle is known to the session that is registered for it,
and to nobody else. A machine without a session, or one whose session has no
such time, is not idle for the deallocator, however long nothing has run on it.
-/

/-- **A machine is idle** since a time: it is registered, FREE, and this is when
it became so. -/
def Memory.IdleSince (m : Memory) (n : NodeId) (since : Nat) : Prop :=
  ∃ s y, s ∈ m.registry.map Prod.snd ∧ s.node = n ∧ m.heap s = some y ∧
    y.machine.state = .free ∧ y.machine.freeSince = some since

/-- What a machine adds to the idle ones. -/
def idleEntry (m : SessionId × ConnectedMachine) : Option (NodeId × Nat) :=
  match m.2.state, m.2.freeSince with
  | .free, some since => some (m.1.node, since)
  | _, _ => none

theorem idleMachines_eq (machines : List (SessionId × ConnectedMachine)) :
    idleMachines machines = Dict.update [] (machines.filterMap idleEntry) := by
  have hfold : ∀ d : Dict NodeId Nat, machines.foldl (fun idle m =>
      match m.2.state, m.2.freeSince with
      | .free, some since => idle.set m.1.node since
      | _, _ => idle) d = d.update (machines.filterMap idleEntry) := by
    induction machines with
    | nil => exact fun _ => rfl
    | cons m machines ih =>
      intro d
      rw [List.foldl_cons, ih, List.filterMap_cons]
      unfold idleEntry
      cases m.2.state <;> cases m.2.freeSince <;> rfl
  exact hfold []

theorem mem_idleEntries {m : Memory} {n : NodeId} {since : Nat} :
    (n, since) ∈ m.listConnected.filterMap idleEntry ↔ m.IdleSince n since := by
  unfold Memory.listConnected Memory.IdleSince
  simp only [List.mem_filterMap, List.mem_map]
  constructor
  · rintro ⟨⟨s, machine⟩, ⟨e, he, hs⟩, hentry⟩
    obtain ⟨y, hy, heq⟩ := Option.map_eq_some_iff.mp hs
    cases heq
    unfold idleEntry at hentry
    split at hentry
    · rename_i since' hfree hsince
      cases hentry
      exact ⟨e.2, y, ⟨e, he, rfl⟩, rfl, hy, hfree, hsince⟩
    · cases hentry
  · rintro ⟨s, y, ⟨e, he, rfl⟩, rfl, hy, hfree, hsince⟩
    refine ⟨(e.2, y.machine), ⟨e, he, by rw [hy]; rfl⟩, ?_⟩
    simp [idleEntry, hfree, hsince]

/-- A machine has one session, and so became idle once. -/
theorem Memory.IdleSince.eq_freeSince {m : Memory} (h : m.Registered) {n : NodeId}
    {since : Nat} (hidle : m.IdleSince n since) :
    since = ((m.registry.get n).map m.freeSince).getD 0 := by
  obtain ⟨s, y, hreg, rfl, hy, -, hsince⟩ := hidle
  obtain ⟨e, he, rfl⟩ := List.mem_map.mp hreg
  have hget : m.registry.get e.1 = some e.2 := Dict.get_of_mem h.nodup he
  rw [h.node e he, hget]
  simp [Memory.freeSince, hy, hsince]

/-- **What the producer collects**: since when each idle machine is idle. The
sessions are gone through in some order, which makes no difference since each node
has one. -/
theorem get_idleMachines {m : Memory} (h : m.Registered) {n : NodeId} {since : Nat} :
    (idleMachines m.listConnected).get n = some since ↔ m.IdleSince n since := by
  rw [idleMachines_eq, Dict.get_update
    (f := fun n => ((m.registry.get n).map m.freeSince).getD 0)
    fun e he => (mem_idleEntries.mp he).eq_freeSince h]
  constructor
  · intro hget
    split at hget
    · rename_i hkey
      obtain ⟨e, he, rfl⟩ := List.mem_map.mp hkey
      have hidle := mem_idleEntries.mp he
      have hsince : e.2 = since := (hidle.eq_freeSince h).trans (Option.some.inj hget)
      rw [← hsince]
      exact hidle
    · cases hget
  · intro hidle
    rw [if_pos (List.mem_map_of_mem (f := Prod.fst) (mem_idleEntries.mpr hidle)),
      hidle.eq_freeSince h]

/-! ## Disabling nodes

Each node is disabled in a transaction of its own, so the database goes through
as many states as there are nodes. Undisturbed they are only in the way. The
lemmas say that the effect of all of them is one change of the rows, which does
not depend on the order. -/

/-- A row after these nodes were disabled. -/
def disabledRow (ns : List NodeId) (n : NodeId) (row : NewNode) : NewNode :=
  if n ∈ ns then { row with enabled := false } else row

/-- Rows can be disabled one after the other. -/
theorem disabledRow_cons (a : NodeId) (ns : List NodeId) (n : NodeId) (row : NewNode) :
    disabledRow ns n (disabledRow [a] n row) = disabledRow (a :: ns) n row := by
  unfold disabledRow
  by_cases ha : n = a <;> by_cases hn : n ∈ ns <;> simp [ha, hn]

/-- The world after nodes were disabled, each in a transaction of its own. Nothing
else than the rows and the number of connections has changed. -/
def World.disabled (w : World) (ns : List NodeId) : World :=
  { w with db := { w.db with
      nodes := .ofRows fun n => (w.db.nodes.rows n).map (disabledRow ns n)
      lastConn := w.db.lastConn + ns.length } }

/-- Nodes can be disabled one after the other. -/
theorem World.disabled_cons (w : World) (a : NodeId) (ns : List NodeId) :
    (w.disabled [a]).disabled ns = w.disabled (a :: ns) := by
  have hrows : (fun n => ((w.disabled [a]).db.nodes.rows n).map (disabledRow ns n)) =
      fun n => (w.db.nodes.rows n).map (disabledRow (a :: ns) n) := by
    funext n
    show ((w.db.nodes.rows n).map (disabledRow [a] n)).map (disabledRow ns n) = _
    rw [Option.map_map]
    exact congrArg (fun f => (w.db.nodes.rows n).map f) (funext (disabledRow_cons a ns n))
  have hlast : (w.disabled [a]).db.lastConn + ns.length =
      w.db.lastConn + (a :: ns).length := by
    show w.db.lastConn + 1 + ns.length = _
    rw [List.length_cons]
    omega
  unfold World.disabled at hrows hlast ⊢
  rw [hrows, hlast]

namespace World.Calm

variable {w : World} {p : Nat}

/-- It is as calm as before. -/
theorem disabled (h : w.Calm p) (ns : List NodeId) : (w.disabled ns).Calm p where
  tasks := h.tasks
  nodes _ := rfl
  registered := h.registered
  saved c hc := h.saved c (lt_of_le_of_lt (Nat.le_add_right _ _) hc)

/-- Disabling no node changes nothing. -/
theorem disabled_nil (h : w.Calm p) : w.disabled [] = w := by
  have hrows : (fun n => (w.db.nodes.rows n).map (disabledRow [] n)) = w.db.nodes.rows := by
    funext n
    have hid : disabledRow [] n = id := funext fun row => if_neg List.not_mem_nil
    rw [hid, Option.map_id, id]
  unfold World.disabled
  rw [hrows, w.db.nodes.ofRows_rows h.nodes]
  rfl

end World.Calm

variable (cfg : Nat → Settings) (x : Tid) {w : World}

/-- **Disabling a node** that exists. It takes one connection, and nothing but the
row is different afterwards. -/
theorem exec_disableNode (cfg' : Settings) (h : w.Calm x.proc) {n : NodeId} {row : NewNode}
    (hrow : w.db.nodes.rows n = some row) :
    ∃ tr, (undisturbed cfg x).exec (disableNode cfg' n) w =
      some (.ok (), tr, w.disabled [n]) := by
  have hworld : w.withNode n (some { row with enabled := false }) = w.disabled [n] := by
    have hrows : Function.update w.db.nodes.rows n (some { row with enabled := false }) =
        fun k => (w.db.nodes.rows k).map (disabledRow [n] k) := by
      funext k
      by_cases hk : k = n
      · subst hk
        rw [Function.update_self, hrow]
        simp [disabledRow]
      · rw [Function.update_of_ne hk]
        unfold disabledRow
        simp [hk]
    unfold World.withNode World.disabled
    rw [hrows]
    rfl
  have hupdate : (undisturbed cfg x).exec (await (.sql (w.db.lastConn + 1) (.nodeDisable n)))
      (w.connected 1) =
      some (.ok true, _, w.writing x n (some { row with enabled := false })) :=
    exec_stmt (c := w.db.lastConn + 1) le_rfl
      (writeNode_calm h hrow fun row => { row with enabled := false })
  obtain ⟨tr, hcommit⟩ : ∃ tr, (undisturbed cfg x).exec (Uow.commit cfg' (w.db.lastConn + 1))
      (w.writing x n (some { row with enabled := false })) = some (.ok (), tr,
        (w.writing x n (some { row with enabled := false })).committed x (w.db.lastConn + 1)) :=
    exec_commit cfg' le_rfl
  rw [h.committed_writing, hworld] at hcommit
  exact ⟨_, exec_unitOfWork (Solo.exec_bind (Solo.exec_bind hupdate rfl) hcommit)
    le_rfl ((h.disabled [n]).rollback _)⟩

/-- A row is there after a node was disabled. -/
theorem isSome_disabled {w : World} {ns : List NodeId} {n : NodeId} :
    ((w.disabled ns).db.nodes.rows n).isSome = (w.db.nodes.rows n).isSome :=
  Option.isSome_map

/-- Nodes are disabled one after the other. -/
theorem exec_disableAll (cfg' : Settings) (nodes : List Node) {w : World} (h : w.Calm x.proc)
    (hrows : ∀ node ∈ nodes, (w.db.nodes.rows node.nodeId).isSome = true) :
    ∃ tr, (undisturbed cfg x).exec (disableAll cfg' nodes) w =
      some (.ok (), tr, w.disabled (nodes.map (·.nodeId))) := by
  induction nodes generalizing w with
  | nil => exact ⟨[], by rw [List.map_nil, h.disabled_nil]; rfl⟩
  | cons node nodes ih =>
    obtain ⟨row, hrow⟩ := Option.isSome_iff_exists.mp (hrows node List.mem_cons_self)
    obtain ⟨tr, hone⟩ := exec_disableNode cfg x cfg' h hrow
    obtain ⟨tr', hrest⟩ := ih (h.disabled [node.nodeId]) fun n hn =>
      isSome_disabled.trans (hrows n (List.mem_cons_of_mem node hn))
    rw [World.disabled_cons] at hrest
    exact ⟨_, Solo.exec_bind hone hrest⟩

/-- Nodes can be disabled in two lots. -/
theorem disabled_append {w : World} {p : Nat} (h : w.Calm p) (ns ns' : List NodeId) :
    (w.disabled ns).disabled ns' = w.disabled (ns ++ ns') := by
  induction ns generalizing w with
  | nil => rw [h.disabled_nil, List.nil_append]
  | cons n ns ih =>
    rw [← World.disabled_cons w n ns, ih (h.disabled [n]), World.disabled_cons, List.cons_append]

/-- The nodes that are to be disabled, provider after provider. -/
def idleNodes (idle : Dict NodeId Nat) (now : Nat) (enabled : List Node)
    (clouds : List CloudConfig) : List Node :=
  clouds.flatMap fun ccfg => nodesToDisable ccfg idle now enabled

/-- The nodes of one provider after those of another are disabled. -/
theorem exec_disableIdle (cfg' : Settings) (idle : Dict NodeId Nat) (now : Nat)
    (enabled : List Node) (clouds : List CloudConfig) {w : World} (h : w.Calm x.proc)
    (hrows : ∀ node ∈ enabled, (w.db.nodes.rows node.nodeId).isSome = true) :
    ∃ tr, (undisturbed cfg x).exec (disableIdle cfg' idle now enabled clouds) w =
      some (.ok (), tr, w.disabled ((idleNodes idle now enabled clouds).map (·.nodeId))) := by
  induction clouds generalizing w with
  | nil => exact ⟨[], by rw [idleNodes, List.flatMap_nil, List.map_nil, h.disabled_nil]; rfl⟩
  | cons ccfg clouds ih =>
    obtain ⟨tr, hone⟩ := exec_disableAll cfg x cfg' (nodesToDisable ccfg idle now enabled) h
      fun node hnode => hrows node (List.mem_of_mem_filter hnode)
    obtain ⟨tr', hrest⟩ := ih (h.disabled _) fun node hnode =>
      isSome_disabled.trans (hrows node hnode)
    rw [disabled_append h, ← List.map_append] at hrest
    exact ⟨_, Solo.exec_bind hone hrest⟩

/-! ## One cycle

The cycle reads which nodes are busy before it disables any and which are
disabled after it. A node that it has just disabled is therefore among those it
queues, and it was looked at before, so it is not busy. That these lists fit
together although they are read at different times is a matter of the world
staying as it is. -/

/-- **A node that is overdue**: it is enabled, no task runs on it, and its machine
has been idle for as long as its provider tolerates, or longer. A node that does not
belong to a configured provider never is. -/
structure World.Overdue (w : World) (cfg : Settings) (p : Nat) (node : Node) : Prop where
  row : node ∈ w.db.nodeRows
  enabled : node.enabled = true
  unused : ¬ w.Busy node.nodeId
  idle : ∃ ccfg ∈ cfg.clouds, node.cloud = some ccfg.name ∧
    ∃ since, (w.procs p).IdleSince node.nodeId since ∧ ccfg.idleTolerance ≤ w.now - since

/-- The nodes a cycle may disable, as a connection lists them. -/
def unusedNodes (db : Database) (c : Conn) : List Node :=
  (db.enabledRows c).filter fun n =>
    n.nodeId ∉ (runningTasks db.taskRows).map (·.state.allocatedNodeId)

/-- These are the enabled nodes on which nothing runs. -/
theorem mem_unusedNodes {c : Conn} {node : Node} : node ∈ unusedNodes w.db c ↔
    node ∈ w.db.nodeRows ∧ node.enabled = true ∧ ¬ w.Busy node.nodeId := by
  unfold unusedNodes World.Busy
  rw [List.mem_filter, Database.mem_enabledRows, decide_eq_true_eq, mem_busy, and_assoc]

/-- **A cycle chooses the overdue nodes.** The code asks for them provider by
provider; a node has one provider, so none is chosen twice. -/
theorem mem_idleNodes (h : w.Calm x.proc) {cfg' : Settings} {c : Conn} {node : Node} :
    node ∈ idleNodes (idleMachines (w.procs x.proc).listConnected) w.now (unusedNodes w.db c)
      cfg'.clouds ↔ w.Overdue cfg' x.proc node := by
  unfold idleNodes nodesToDisable
  simp only [List.mem_flatMap, List.mem_filter, Bool.and_eq_true, decide_eq_true_eq,
    mem_unusedNodes]
  constructor
  · rintro ⟨ccfg, hccfg, ⟨hrow, henabled, hunused⟩, hcloud, hidle⟩
    refine ⟨hrow, henabled, hunused, ccfg, hccfg, hcloud, ?_⟩
    split at hidle
    · rename_i since hget
      exact ⟨since, (get_idleMachines (h.registered x.proc)).mp hget, of_decide_eq_true hidle⟩
    · cases hidle
  · rintro ⟨hrow, henabled, hunused, ccfg, hccfg, hcloud, since, hidle, hlong⟩
    refine ⟨ccfg, hccfg, ⟨hrow, henabled, hunused⟩, hcloud, ?_⟩
    rw [(get_idleMachines (h.registered x.proc)).mpr hidle]
    exact decide_eq_true hlong

/-- **A node that is to be torn down**: it is disabled, there is a machine behind
it, and no task runs on it. Whether it was disabled by the deallocator or by a user
does not matter. -/
structure World.Disposable (w : World) (node : Node) : Prop where
  row : node ∈ w.db.nodeRows
  disabled : node.enabled = false
  machine : node.hostname ≠ ""
  unused : ¬ w.Busy node.nodeId

/-- It is a matter of the rows. -/
theorem World.Disposable.of_eq {w' : World} {node : Node} (hn : w'.db.nodeRows = w.db.nodeRows)
    (ht : w'.db.taskRows = w.db.taskRows) (h : w.Disposable node) : w'.Disposable node where
  row := hn ▸ h.row
  disabled := h.disabled
  machine := h.machine
  unused := fun ⟨t, row, hmem, hruns⟩ => h.unused ⟨t, row, ht ▸ hmem, hruns⟩

/-- The identifiers of the nodes on which tasks run. -/
def busyIds (db : Database) : List NodeId :=
  (runningTasks db.taskRows).map (·.state.allocatedNodeId)

/-- The nodes a cycle yields, given the busy nodes at its beginning. -/
def disposableNodes (db : Database) (c : Conn) (busy : List NodeId) : List Node :=
  (db.disabledRows c).filter fun n => n.nodeId ∉ busy

/-- They are the nodes that a cycle yields, if no task was started in between. -/
theorem mem_disposableNodes {c : Conn} {node : Node} :
    node ∈ disposableNodes w.db c (busyIds w.db) ↔ w.Disposable node := by
  unfold disposableNodes busyIds
  rw [List.mem_filter, Database.mem_disabledRows, decide_eq_true_eq, mem_busy]
  constructor
  · rintro ⟨⟨hrow, hdisabled, hmachine⟩, hunused⟩
    exact ⟨hrow, hdisabled, hmachine, hunused⟩
  · rintro ⟨hrow, hdisabled, hmachine, hunused⟩
    exact ⟨⟨hrow, hdisabled, hmachine⟩, hunused⟩

/-- The identifiers of the nodes that a cycle disables. -/
def overdueIds (cfg' : Settings) (x : Tid) (w : World) : List NodeId :=
  (idleNodes (idleMachines (w.procs x.proc).listConnected) w.now
    (unusedNodes w.db (w.nextConn x)) cfg'.clouds).map (·.nodeId)

/-- The world after the overdue nodes were disabled. -/
def World.givenUp (w : World) (cfg' : Settings) (x : Tid) : World :=
  (w.connected 1).disabled (overdueIds cfg' x w)

/-- What a cycle reads first: which nodes are busy, and which are not used. -/
theorem exec_readNodes (h : w.Regular) : ∃ tr,
    (undisturbed cfg x).exec (Uow.within fun c => do
      let running ← Tasks.listRunning c
      let busy := running.map (·.state.allocatedNodeId)
      let enabled ← Nodes.listEnabled c
      return (busy, enabled.filter fun n => n.nodeId ∉ busy)) w =
    some (.ok (busyIds w.db, unusedNodes w.db (w.nextConn x)), tr, w.connected 1) :=
  ⟨_, exec_within h (Solo.exec_bind
    (Solo.exec_bind (exec_sql le_rfl (h.exec_listRunning x)) rfl)
    (Solo.exec_bind (exec_sql le_rfl (h.exec_listEnabled x)) rfl))⟩

/-- What a cycle reads last: the disabled nodes that were not busy. -/
theorem exec_readDisabled (h : w.Regular) (busy : List NodeId) : ∃ tr,
    (undisturbed cfg x).exec (Uow.within fun c => do
      let disabled ← Nodes.listDisabled c
      return disabled.filter fun n => n.nodeId ∉ busy) w =
    some (.ok (disposableNodes w.db (w.nextConn x) busy), tr, w.connected 1) :=
  ⟨_, exec_within h (Solo.exec_bind (exec_sql le_rfl (h.exec_listDisabled x)) rfl)⟩

/-- **What a cycle of the deallocator does** before it puts its messages. The
messages are what it returns. -/
theorem exec_deallocateNodes (cfg' : Settings) (h : w.Calm x.proc) :
    ∃ tr, (undisturbed cfg x).exec
        (deallocateNodes cfg' (idleMachines (w.procs x.proc).listConnected)) w =
      some (.ok (disposableNodes (w.givenUp cfg' x).db ((w.givenUp cfg' x).nextConn x)
        (busyIds w.db)), tr, (w.givenUp cfg' x).connected 1) := by
  have h₁ := h.connected 1
  have h₂ : (w.givenUp cfg' x).Calm x.proc := h₁.disabled _
  obtain ⟨tr₁, hread⟩ := exec_readNodes cfg x h.regular
  obtain ⟨tr₂, hdisable⟩ := exec_disableIdle cfg x cfg'
    (idleMachines (w.procs x.proc).listConnected) w.now (unusedNodes w.db (w.nextConn x))
    cfg'.clouds h₁ fun node hnode => Option.isSome_iff_exists.mpr
      ⟨_, (Database.mem_nodeRows.mp (mem_unusedNodes.mp hnode).1).2⟩
  obtain ⟨tr₃, hcollect⟩ := exec_readDisabled cfg x h₂.regular (busyIds w.db)
  exact ⟨_, Solo.exec_bind hread
    (Solo.exec_bind (exec_ask rfl) (Solo.exec_bind hdisable hcollect))⟩

/-- A node is disabled by the cycle if it is overdue. -/
theorem mem_overdueIds (h : w.Calm x.proc) {cfg' : Settings} {n : NodeId} {row : NewNode}
    (hrow : w.db.nodes.rows n = some row) :
    n ∈ overdueIds cfg' x w ↔ w.Overdue cfg' x.proc { row with nodeId := n } := by
  unfold overdueIds
  rw [List.mem_map]
  constructor
  · rintro ⟨node, hnode, rfl⟩
    have hover := (mem_idleNodes x h).mp hnode
    have hsame : node.toNewNode = row :=
      Option.some.inj ((Database.mem_nodeRows.mp hover.row).2.symm.trans hrow)
    rw [← hsame]
    exact hover
  · intro hover
    exact ⟨_, (mem_idleNodes x h).mpr hover, rfl⟩

/-- **The overdue nodes are given up**: their rows are disabled, and no other row
changes. They are not removed here, which is for the worker that deletes the VM. -/
structure World.GivesUp (w : World) (cfg : Settings) (p : Nat) (w' : World) : Prop where
  tasks : w'.db.tasks = w.db.tasks
  nodes : ∀ n row, w'.db.nodes.rows n = some row ↔ ∃ row₀, w.db.nodes.rows n = some row₀ ∧
    (w.Overdue cfg p { row₀ with nodeId := n } ∧ row = { row₀ with enabled := false } ∨
      ¬ w.Overdue cfg p { row₀ with nodeId := n } ∧ row = row₀)

/-- **A node that a cycle yields**: it was disabled before, and is to be torn down;
or it is overdue, has a machine, and is disabled now. -/
def World.Yielded (w : World) (cfg : Settings) (p : Nat) (node : Node) : Prop :=
  w.Disposable node ∨ ∃ overdue, w.Overdue cfg p overdue ∧ overdue.hostname ≠ "" ∧
    node = { overdue with enabled := false }

/-- This is what a cycle has done to the rows. -/
theorem givenUp_givesUp (h : w.Calm x.proc) (cfg' : Settings) :
    w.GivesUp cfg' x.proc (w.givenUp cfg' x) := by
  refine ⟨rfl, fun n row => ?_⟩
  show (w.db.nodes.rows n).map (disabledRow (overdueIds cfg' x w) n) = some row ↔ _
  rw [Option.map_eq_some_iff]
  refine exists_congr fun row₀ => and_congr_right fun hrow => ?_
  rw [← mem_overdueIds x h hrow]
  unfold disabledRow
  by_cases hmem : n ∈ overdueIds cfg' x w
  · simp [hmem, eq_comm]
  · simp [hmem, eq_comm]

/-- The nodes after the overdue ones were disabled. -/
theorem mem_nodeRows_givenUp (h : w.Calm x.proc) {cfg' : Settings} {node : Node} :
    node ∈ (w.givenUp cfg' x).db.nodeRows ↔ ∃ before ∈ w.db.nodeRows,
      w.Overdue cfg' x.proc before ∧ node = { before with enabled := false } ∨
        ¬ w.Overdue cfg' x.proc before ∧ node = before := by
  rw [Database.mem_nodeRows, (givenUp_givesUp x h cfg').nodes]
  constructor
  · rintro ⟨hn, row, hrow, hnode⟩
    refine ⟨{ row with nodeId := node.nodeId }, Database.mem_nodeRows.mpr ⟨hn, hrow⟩, ?_⟩
    refine hnode.imp (And.imp_right fun he => ?_) (And.imp_right fun he => ?_)
    · exact congrArg (fun row : NewNode => { row with nodeId := node.nodeId : Node }) he
    · exact congrArg (fun row : NewNode => { row with nodeId := node.nodeId : Node }) he
  · rintro ⟨before, hbefore, ⟨hover, rfl⟩ | ⟨hover, rfl⟩⟩
    · obtain ⟨hn, hrow⟩ := Database.mem_nodeRows.mp hbefore
      exact ⟨hn, _, hrow, .inl ⟨hover, rfl⟩⟩
    · obtain ⟨hn, hrow⟩ := Database.mem_nodeRows.mp hbefore
      exact ⟨hn, _, hrow, .inr ⟨hover, rfl⟩⟩

/-- What is to be torn down after the cycle has disabled the overdue nodes. -/
theorem disposable_givenUp (h : w.Calm x.proc) {cfg' : Settings} {node : Node} :
    (w.givenUp cfg' x).Disposable node ↔ w.Yielded cfg' x.proc node := by
  constructor
  · rintro ⟨hrow, hdisabled, hmachine, hunused⟩
    obtain ⟨before, hbefore, ⟨hover, rfl⟩ | ⟨hover, rfl⟩⟩ := (mem_nodeRows_givenUp x h).mp hrow
    · exact .inr ⟨before, hover, hmachine, rfl⟩
    · exact .inl ⟨hbefore, hdisabled, hmachine, hunused⟩
  · rintro (⟨hrow, hdisabled, hmachine, hunused⟩ | ⟨before, hover, hmachine, rfl⟩)
    · refine ⟨(mem_nodeRows_givenUp x h).mpr ⟨node, hrow, .inr ⟨fun hover => ?_, rfl⟩⟩,
        hdisabled, hmachine, hunused⟩
      exact absurd (hover.enabled.symm.trans hdisabled) (by decide)
    · exact ⟨(mem_nodeRows_givenUp x h).mpr ⟨before, hover.row, .inl ⟨hover, rfl⟩⟩, rfl,
        hmachine, hover.unused⟩

/-- **Exactly the overdue nodes are given up.** In a cycle of the deallocator that
nobody disturbs, no task changes; the rows of the overdue nodes are disabled,
and no other row changes; and what is put into the queue are the disabled nodes
– those of this cycle and of earlier ones – that no task needs and nobody is
tearing down yet. -/
theorem givesUpOverdue (cfg : Nat → Settings) (x : Tid) (w : World) (h : w.Calm x.proc) :
    ∃ due, Cycle cfg x .deallocate (deallocatorProducer (cfg x.proc)) w
      (w.Yielded (cfg x.proc) x.proc) (w.GivesUp (cfg x.proc) x.proc) due := by
  obtain ⟨tr, hexec⟩ := exec_deallocateNodes cfg x (cfg x.proc) h
  have hplain : (scope ∅).Inside ∅ (ask .listConnected) := inside_plainAsk rfl
  have hask : (alone cfg x).outcome (ask .listConnected) w =
      some (.ok (w.procs x.proc).listConnected, w) :=
    outcome_alone hplain (Set.notMem_empty _) (exec_ask rfl)
  have hinside : (scope {.disableNode}).Inside ∅
      (deallocateNodes (cfg x.proc) (idleMachines (w.procs x.proc).listConnected)) :=
    inside_deallocateNodes _ _ rfl
  have hread := outcome_alone hinside (by simp) hexec
  let v := w.givenUp (cfg x.proc) x
  have hnodup : (disposableNodes v.db (v.nextConn x) (busyIds w.db)).Nodup :=
    Database.nodup_disabledRows.filter _
  have hids := nodup_msgIds (w := v) hnodup fun node hnode =>
    (Database.mem_disabledRows.mp (List.mem_of_mem_filter hnode)).1
  have hputs : PutsDue cfg x .deallocate (deallocatorProducer (cfg x.proc)) w
      (v.connected 1) _ := .after hask (.after hread (puts_putAll .deallocate _ _ hids))
  refine ⟨_, hputs.cycle rfl hnodup (fun node => ?_) fun _ => ?_⟩
  · exact (mem_disposableNodes (w := v)).trans (disposable_givenUp x h)
  · have hgives := givenUp_givesUp x h (cfg x.proc)
    exact ⟨hgives.tasks, hgives.nodes⟩

namespace IdleNodes

/-- A cloud that tolerates a minute of idleness. -/
def settings : Nat → Settings := fun _ => {
  clouds := [{ name := "hetzner", maxNodes := 1, idleTolerance := 60 }] }

/-- Its machine has been idle for longer. -/
def world : World where
  db := .ofLists [] [{ hostname := "10.0.0.1", cloud := some "hetzner" }]
  now := 100
  procs _ := .ofSessions [(⟨1, 0⟩,
    { machine := { nodeId := 1, platforms := ["debian"], freeSince := some 10 } })]

/-- Nothing is going on there. -/
theorem world_calm : world.Calm 0 where
  tasks _ := rfl
  nodes _ := rfl
  registered _ := .ofSessions (List.nodup_singleton _)
  saved _ _ := rfl

/-- Its machine is overdue. -/
theorem world_overdue : world.Overdue (settings 0) 0
    { hostname := "10.0.0.1", cloud := some "hetzner", nodeId := 1 } where
  row := Database.mem_nodeRows.mpr ⟨le_rfl, rfl⟩
  enabled := rfl
  unused := fun ⟨_, _, hmem, _⟩ => nomatch hmem
  idle := ⟨_, List.mem_singleton_self _, rfl, 10,
    ⟨⟨1, 0⟩, _, List.mem_singleton_self _, rfl, rfl, rfl, rfl⟩, by decide⟩

end IdleNodes

/-- The idle machine is given up, and queued for its teardown at once: the disabled
nodes are read after it was disabled. -/
theorem givesUpOverdue_idle : ∃ w',
    (alone IdleNodes.settings ⟨0, 1⟩).outcome
      (deallocatorProducer (IdleNodes.settings 0)) IdleNodes.world = some (.ok (), w') ∧
      w'.db.nodes.rows 1 =
        some { hostname := "10.0.0.1", cloud := some "hetzner", enabled := false } ∧
      1 ∈ ((w'.procs 0).queues .deallocate).queue.map Prod.fst := by
  obtain ⟨due, hcycle⟩ := givesUpOverdue IdleNodes.settings ⟨0, 1⟩ _ IdleNodes.world_calm
  have hnode : { hostname := "10.0.0.1", cloud := some "hetzner", enabled := false, nodeId := 1 } ∈
      due :=
    (hcycle.exact _).mpr ⟨.inr ⟨_, IdleNodes.world_overdue, by decide, rfl⟩,
      List.not_mem_nil, List.not_mem_nil⟩
  -- the only node there is
  have hrows : ∀ node ∈ due, node ∈
      IdleNodes.world.db.nodeRows.map fun node => { node with enabled := false } := by
    intro node hmem
    obtain ⟨hrow, hdisabled, -⟩ | ⟨before, hover, -, rfl⟩ := ((hcycle.exact node).mp hmem).1
    · exact List.mem_map.mpr ⟨node, hrow, by rw [← hdisabled]⟩
    · exact List.mem_map_of_mem hover.row
  have hlength : due.length ≤ 1 := (hcycle.once.subperm hrows).length_le
  obtain ⟨w', hends, hgives, hqueue⟩ := hcycle.ends
    (.inr (.inr (show 0 + due.length ≤ 1 by omega)))
  refine ⟨w', hends, (hgives.nodes 1 _).mpr ⟨_, rfl, .inl ⟨IdleNodes.world_overdue, rfl⟩⟩, ?_⟩
  rw [show ((w'.procs 0).queues .deallocate).queue = _ from hqueue]
  exact List.mem_map_of_mem (List.mem_append_right _ (List.mem_map_of_mem hnode))

end Yascheduler
