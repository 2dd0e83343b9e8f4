import Yascheduler.Application.ConnectionLoss
import Yascheduler.Application.DataFlow
import Yascheduler.Application.NodeChanges
import Yascheduler.Async.Started

/-!
# What is kept

The world's side of the contract: what is in the tables, in the transactions
and in the memories of the processes belongs where it is, and every operation
keeps it so and returns only what is there. The one thing the world cannot
promise on its own is what a provider returns for a new VM; that such a VM is
known is assumed of the entries of a run.

The queues and the saved tasks are where data rest while nobody is running. A
task that was read an hour ago may still wait in a queue, and what is said of it
has to be true of it then: so it is compared with what was submitted and not with
its row, which may have moved on. That is also why the folder is kept only until
the task is finished. Finishing it writes the folder as the daemon spells it.
-/

namespace Yascheduler

open Store Async Contract

/-- **The row is still the one of its task**: it has the submission and the
creation time it had at the beginning, and the folder until the task is
finished. -/
def TaskRow.Of (S : TaskId → Option TaskRow) (t : TaskId) (row : TaskRow) : Prop :=
  ∃ row₀, S t = some row₀ ∧ row.submission = row₀.submission ∧
    row.createdAt = row₀.createdAt ∧ (row.status ≠ .done → row.localFolder = row₀.localFolder)

/-- The tasks and nodes in the memory of a process. They are copies, made when
something was read, and may be older than the rows. -/
structure Memory.Holds (S : TaskId → Option TaskRow) (V : Endpoint → Prop)
    (m : Memory) : Prop where
  saved : ∀ c, ∀ task ∈ m.savedTasks c, AnyTask.Of S task
  queued : ∀ q, ∀ msg ∈ (m.queues q).queue, (dataContract S V).op (.queuePut q msg.2)

/-- **The tasks and nodes in the world**: committed or not, in the transactions and
queues of every process. It has to be said of all of these at once, because a step
moves data from one to another. -/
structure World.Holds (S : TaskId → Option TaskRow) (V : Endpoint → Prop)
    (w : World) : Prop where
  tasks : w.db.tasks.All fun t row => row.Of S t
  nodes : w.db.nodes.All fun _ row => row.Valid V
  memory : ∀ p, (w.procs p).Holds S V

/-- What is assumed of an entry: a VM that a provider has returned is known. -/
def ReturnsKnown (V : Endpoint → Prop) (e : Entry sig Tid World.Env) : Prop :=
  ∀ x provider ch dto, e = .thread x (.performed (.createNode provider) ch (.ok dto)) →
    V (CloudCreateNodeDTO.endpoint dto provider)

variable {S : TaskId → Option TaskRow} {V : Endpoint → Prop}

/-! ## The memory

Saved instances and messages are all that a process remembers of tasks and
nodes. They come from the tables or from other messages, and go back there. A
call that moves them adds nothing to them. -/

namespace Memory.Holds

variable {m m' : Memory}

/-- Only the saved tasks and the queues matter. -/
theorem of_eq (h : m.Holds S V) (hs : m'.savedTasks = m.savedTasks)
    (hq : m'.queues = m.queues) : m'.Holds S V where
  saved := by rw [hs]; exact h.saved
  queued := by rw [hq]; exact h.queued

/-- Another list of saved tasks, all of which are still of their tasks. -/
theorem modifySaved (h : m.Holds S V) {c : Nat} {f : List AnyTask → List AnyTask}
    (hf : ∀ task ∈ f (m.savedTasks c), AnyTask.Of S task) : (m.modifySaved c f).Holds S V where
  saved c' task htask := by
    by_cases hc : c' = c
    · subst hc
      refine hf task ?_
      simpa only [Memory.modifySaved, Function.update_self] using htask
    · refine h.saved c' task ?_
      simpa only [Memory.modifySaved, Function.update_of_ne hc] using htask
  queued := h.queued

/-- A list that is emptied holds nothing. -/
theorem cleared (h : m.Holds S V) (c : Nat) : (m.modifySaved c fun _ => []).Holds S V :=
  h.modifySaved fun _ htask => absurd htask List.not_mem_nil

/-- Another queue, with old messages and such as may be put. -/
theorem modifyQueue (h : m.Holds S V) {q : QueueName}
    {f : UniqueQueue q.Payload → UniqueQueue q.Payload}
    (hf : ∀ msg ∈ (f (m.queues q)).queue, msg ∈ (m.queues q).queue ∨
      (dataContract S V).op (.queuePut q msg.2)) : (m.modifyQueue q f).Holds S V where
  saved := h.saved
  queued q' msg hmsg := by
    by_cases hq : q' = q
    · subst hq
      simp only [Memory.modifyQueue, Function.update_self] at hmsg
      exact (hf msg hmsg).elim (h.queued q' msg) id
    · simp only [Memory.modifyQueue, Function.update_of_ne hq] at hmsg
      exact h.queued q' msg hmsg

/-- **Every call keeps what is in the memory**, and answers with it. Saved tasks and
messages go in as the contract allows, and come out as they went in. -/
theorem call (h : m.Holds S V) (now : Nat) {c : Call} (hc : (dataContract S V).call c) :
    (dataContract S V).ans c (m.call now c).1 ∧ (m.call now c).2.Holds S V := by
  cases c with
  | savedAppend c task =>
    refine ⟨trivial, ?_⟩
    show (m.modifySaved c (· ++ [task])).Holds S V
    refine h.modifySaved fun task' htask => ?_
    rcases List.mem_append.mp htask with htask | htask
    · exact h.saved c task' htask
    · rw [List.mem_singleton.mp htask]
      exact hc
  | savedTake c => exact ⟨h.saved c, h.cleared c⟩
  | savedClear c => exact ⟨trivial, h.cleared c⟩
  | itemDone q id =>
    refine ⟨trivial, ?_⟩
    show (m.modifyQueue q (·.itemDone id)).Holds S V
    exact h.modifyQueue fun msg hmsg => .inl hmsg
  | occupy s =>
    refine ⟨trivial, ?_⟩
    simp only [Memory.call]
    split <;> exact h.of_eq rfl rfl
  | trackerAdd t | trackerSetNode t n | failureSetdefault n =>
    refine ⟨trivial, ?_⟩
    simp only [Memory.call]
    split <;> exact h.of_eq rfl rfl
  | _ => exact ⟨trivial, h.of_eq rfl rfl⟩

/-- No operation brings anything else into the memory. -/
theorem change (h : m.Holds S V) {now : Nat} {o : Op} (ho : (dataContract S V).op o)
    (hq : ∀ q, o ≠ .queueGet q) (hm : MemoryChange now m o m') : m'.Holds S V := by
  cases hm with
  | same => exact h
  | connected platforms ncpus => exact h.of_eq rfl rfl
  | locked => exact h.of_eq rfl rfl
  | slotTaken => exact h.of_eq rfl rfl
  | got msgs => exact absurd rfl (hq _)
  | @put q msg =>
    refine h.modifyQueue fun msg' hmsg => ?_
    unfold UniqueQueue.put at hmsg
    split at hmsg
    · exact .inl hmsg
    · rcases List.mem_append.mp hmsg with hmsg | hmsg
      · exact .inl hmsg
      · rw [List.mem_singleton.mp hmsg]
        exact .inr ho

end Memory.Holds

/-- The message that a queue returns was in it, and the others still are. -/
theorem UniqueQueue.mem_of_get {α : Type} {q q' : UniqueQueue α} {m : α}
    (h : q.get = some (m, q')) : (∃ msg ∈ q.queue, msg.2 = m) ∧
      ∀ msg ∈ q'.queue, msg ∈ q.queue := by
  unfold UniqueQueue.get at h
  split at h
  · cases h
  · rename_i msg msgs hqueue
    cases h
    rw [hqueue]
    exact ⟨⟨msg, List.mem_cons_self, rfl⟩, fun _ hmem => List.mem_cons_of_mem msg hmem⟩

/-! ## The rows

What is in the tables is of two kinds, committed rows and those of open
transactions, and `RowStore.All` speaks of both. A row is checked where it is
written, and reading one gives a row that was checked. -/

/-- A row is read as the task it is the row of. -/
theorem toTask_of {t : TaskId} {row : TaskRow} (h : row.Of S t) : (row.toTask t).Of S where
  submission := by
    obtain ⟨row₀, hrow, hsub, -, hfolder⟩ := h
    refine ⟨row₀, hrow, hsub, fun hne => hfolder ?_⟩
    rwa [← row.state_status]
  events _ he := absurd he List.not_mem_nil

/-- A row that is written for a task. -/
theorem ofTask_of {task : AnyTask} {createdAt : String} (h : task.Of S) {row : TaskRow}
    (hrow : row.Of S task.taskId) (hc : createdAt = row.createdAt) :
    (TaskRow.ofTask task createdAt).Of S task.taskId := by
  obtain ⟨row₀, hrow₀, hsub, hfolder⟩ := h.submission
  obtain ⟨row₁, hrow₁, -, hcreated, -⟩ := hrow
  obtain rfl : row₀ = row₁ := Option.some.inj (hrow₀.symm.trans hrow₁)
  exact ⟨row₀, hrow₀, hsub, hc.trans hcreated, hfolder⟩

/-- A row keeps what was submitted when its node is deleted. -/
theorem TaskRow.Of.clearNode {t : TaskId} {row : TaskRow} (h : row.Of S t)
    (hr : row.status ≠ .running) : (row.clearNode hr).Of S t := h

/-- The nodes a connection sees. -/
theorem Database.mem_visibleNodes {db : Database} {c : Conn} {node : Node}
    (h : node ∈ db.visibleNodes c) : db.nodes.read c node.nodeId = some node.toNewNode := by
  obtain ⟨n, -, hn⟩ := List.mem_filterMap.mp h
  obtain ⟨row, hrow, rfl⟩ := Option.map_eq_some_iff.mp hn
  exact hrow

namespace World.Holds

variable {cfg : Nat → Settings} {w w' : World} {x : Tid}

/-- Another memory of one process. -/
theorem modifyProc (h : w.Holds S V) {p : Nat} {m : Memory} (hm : m.Holds S V) :
    (w.modifyProc p fun _ => m).Holds S V where
  tasks := h.tasks
  nodes := h.nodes
  memory p' := by
    by_cases hp : p' = p
    · subst hp
      rw [World.modifyProc_self]
      exact hm
    · rw [World.modifyProc_ne _ _ hp]
      exact h.memory p'

/-- Every call keeps what is in the world, and answers with it. -/
theorem call (h : w.Holds S V) {c : Call} (hc : (dataContract S V).call c) :
    (dataContract S V).ans c (w.call x c).1 ∧ (w.call x c).2.Holds S V := by
  obtain ⟨hans, hmem⟩ := (h.memory x.proc).call w.now hc
  exact ⟨hans, h.modifyProc hmem⟩

/-- **Every operation keeps the tasks of the table.** A task that is written is one
that the contract lets its program save. -/
theorem taskTable (h : w.Holds S V) {o : Op} {ch : Choice} {r : Except Exc o.Res}
    {tasks : RowStore TaskId TaskRow Conn} (ho : (dataContract S V).op o)
    (hchange : TaskChange x w.db o ch r tasks) : tasks.All fun t row => row.Of S t := by
  cases hchange with
  | @saved c task expected _ _ row hch hread hexp hlock =>
    refine h.tasks.write fun row' hrow => ?_
    cases hrow
    exact ofTask_of ho (h.tasks.read hread) rfl
  | removed =>
    refine h.tasks.writeAll fun t row' hf => ?_
    obtain ⟨row, hr, hread, -, hv⟩ := Database.clearReferences_eq_some _ _ hf
    cases hv
    exact (h.tasks.read hread).clearNode hr
  | committed hch => exact h.tasks.commit
  | rolledBack hch => exact h.tasks.rollback
  | closed hch => exact h.tasks.rollback
  | _ => exact h.tasks

/-- **Every operation keeps the machines of the table.** Disabling a node and
deleting one are harmless; what is inserted or updated is known. -/
theorem nodeTable (h : w.Holds S V) {o : Op} {ch : Choice} {r : Except Exc o.Res}
    {nodes : RowStore NodeId NewNode Conn} {last : Nat} (ho : (dataContract S V).op o)
    (hchange : NodeChange x w.db o ch r nodes last) :
    nodes.All fun _ row => row.Valid V := by
  have hwrite : ∀ {c : Conn} {n : NodeId} {row : NewNode}, row.Valid V →
      (w.db.nodes.write c n (some row)).All fun _ row => row.Valid V := fun hV =>
    h.nodes.write fun row' hrow => Option.some.inj hrow ▸ hV
  cases hchange with
  | inserted hr => exact hwrite ho
  | updated row hread hlock => exact hwrite (.inl ho)
  | disabled row hread hlock => exact hwrite (h.nodes.read hread).disable
  | removed row hread hlock => exact h.nodes.write (by rintro _ ⟨⟩)
  | committed hch => exact h.nodes.commit
  | rolledBack hch => exact h.nodes.rollback
  | closed hch => exact h.nodes.rollback
  | _ => exact h.nodes

/-- **What a statement returns** is in the tables. It is what its connection sees,
committed or its own. -/
theorem exec_res (h : w.Holds S V) {c : Nat} {st : Stmt} {a : st.Res} {db' : Database}
    (hexec : w.db.exec ⟨x, c⟩ st = some (.ok a, db')) :
    (dataContract S V).res (.sql c st) a := by
  cases st with
  | taskGet t status =>
    cases hexec
    intro task htask
    obtain ⟨row, hrow, rfl⟩ := Option.map_eq_some_iff.mp htask
    exact toTask_of (h.tasks.read (Option.filter_eq_some_iff.mp hrow).1)
  | taskList status limit =>
    cases hexec
    intro task htask
    obtain ⟨r, hr, rfl⟩ := List.mem_map.mp htask
    have hmem : r ∈ w.db.visibleTasks ⟨x, c⟩ := by
      cases limit with
      | none => exact List.mem_of_mem_filter hr
      | some n => exact List.mem_of_mem_filter (List.mem_of_mem_take hr)
    obtain ⟨t, -, ht⟩ := List.mem_filterMap.mp hmem
    obtain ⟨row, hrow, rfl⟩ := Option.map_eq_some_iff.mp ht
    exact toTask_of (h.tasks.read hrow)
  | nodeListEnabled =>
    cases hexec
    intro node hnode
    obtain ⟨hmem, he⟩ := List.mem_filter.mp (RowOrder.mem_arrange.mp hnode)
    exact (h.nodes.read (Database.mem_visibleNodes hmem)).of_enabled he
  | nodeListDisabled =>
    cases hexec
    intro node hnode
    obtain ⟨hmem, he⟩ := List.mem_filter.mp (RowOrder.mem_arrange.mp hnode)
    exact (h.nodes.read (Database.mem_visibleNodes hmem)).of_hostname (of_decide_eq_true he).2
  | nodeInsert row =>
    cases hexec
    rfl
  | _ => trivial

/-- What an operation that takes effect returns. -/
theorem effect_res (h : w.Holds S V) {o : Op} {rep : Reply} {a : o.Res}
    (ho : ∀ provider, o ≠ .createNode provider)
    (heff : w.effect cfg x o rep = some (.ok a, w')) : (dataContract S V).res o a := by
  cases o with
  | sql c st =>
    obtain ⟨⟨r, db'⟩, hexec, ha⟩ := Option.map_eq_some_iff.mp heff
    cases ha
    exact h.exec_res hexec
  | queueGet q =>
    obtain ⟨⟨m, msgs⟩, hget, ha⟩ := Option.map_eq_some_iff.mp heff
    cases ha
    obtain ⟨⟨msg, hmem, rfl⟩, -⟩ := UniqueQueue.mem_of_get hget
    have hmsg := (h.memory x.proc).queued q msg hmem
    cases q <;> exact hmsg
  | createNode provider => exact absurd rfl (ho provider)
  | _ => trivial

/-- The effect of an operation keeps what is in the memory of every process. -/
theorem effect_memory (h : w.Holds S V) {o : Op} {rep : Reply} {r : Except Exc o.Res}
    (ho : (dataContract S V).op o) (heff : w.effect cfg x o rep = some (r, w')) (p : Nat) :
    (w'.procs p).Holds S V := by
  by_cases hq : ∃ q, o = .queueGet q
  · obtain ⟨q, rfl⟩ := hq
    obtain ⟨⟨m, msgs⟩, hget, ha⟩ := Option.map_eq_some_iff.mp heff
    cases ha
    exact (h.modifyProc ((h.memory x.proc).modifyQueue (q := q) (f := fun _ => msgs)
      fun msg hmsg => .inl ((UniqueQueue.mem_of_get hget).2 msg hmsg))).memory p
  · obtain ⟨hchange, hother⟩ := World.effect_memory heff
    by_cases hp : p = x.proc
    · subst hp
      exact (h.memory x.proc).change ho (fun q hq' => hq ⟨q, hq'⟩) hchange
    · rw [hother p hp]
      exact h.memory p

/-- **Every operation keeps what is in the world**, and returns only that – or a
VM that is known. -/
theorem perform (h : w.Holds S V) {o : Op} {ch : Choice} {r : Except Exc o.Res}
    (hA : ReturnsKnown V (.thread x (.performed o ch r))) (ho : (dataContract S V).op o)
    (hperf : w.perform cfg x o ch = some (r, w')) :
    (∀ a, r = .ok a → (dataContract S V).res o a) ∧ w'.Holds S V := by
  have htasks := h.taskTable ho (World.perform_taskChange hperf)
  have hnodes := h.nodeTable ho (World.perform_nodeChange hperf)
  rcases World.perform_cases hperf with ⟨-, rep, r₀, heff, hr⟩ | ⟨-, rfl, e, rfl, -⟩
  · refine ⟨?_, htasks, hnodes, h.effect_memory ho heff⟩
    rintro a rfl
    by_cases hc : ∃ provider, o = .createNode provider
    · obtain ⟨provider, rfl⟩ := hc
      exact hA _ _ _ _ rfl
    · rcases hr with rfl | ⟨e, he, -⟩
      · exact h.effect_res (fun provider hp => hc ⟨provider, hp⟩) heff
      · cases he
  · exact ⟨by rintro a ⟨⟩, h⟩

/-- A transaction that is rolled back takes away data and adds none. -/
theorem rollback (h : w.Holds S V) (c : Conn) (lost : List Conn) :
    World.Holds S V { w with db := w.db.rollback c, lost } where
  tasks := h.tasks.rollback
  nodes := h.nodes.rollback
  memory := h.memory

/-- Neither does the environment add any, connections that are lost included. -/
theorem env (h : w.Holds S V) {e : World.Env} (he : w.envLossy e = some w') :
    w'.Holds S V := by
  have hset : ∀ p s y, (w.setSession p s y).Holds S V := fun p s y =>
    h.modifyProc ((h.memory p).of_eq rfl rfl)
  cases e with
  | tick d =>
    cases he
    exact ⟨h.tasks, h.nodes, h.memory⟩
  | check p s engine pgrep code =>
    obtain ⟨y, -, rfl⟩ := Option.map_eq_some_iff.mp he
    exact hset p s y
  | react p s =>
    obtain ⟨y, -, rfl⟩ := Option.map_eq_some_iff.mp he
    exact hset p s y
  | lose c =>
    cases he
    exact h.rollback c _

end World.Holds

/-- **Programs and world keep to the contract**, if the hosts of the command lines
are known. The programs are only checked against the contract, one by one, and what
holds of the world in every run then follows. -/
theorem dataContract_honoured (cfg : Nat → Settings) (S : TaskId → Option TaskRow)
    {V : Endpoint → Prop} (jobs : List (Tid × Job))
    (hh : ∀ x spec skipSetup, (x, .addNode spec skipSetup) ∈ jobs →
      V (tmpNodeOf (cfg x.proc) spec).endpoint) :
    Honoured ((lossySystem cfg).only jobs) (dataContract S V) (World.Holds S V)
      (ReturnsKnown V) where
  program := Host.only_program
    (fun x j hj => DataFlow.plain_program (cfg x.proc) j fun spec skipSetup he =>
      hh x spec skipSetup (he ▸ hj))
    fun _ => trivial
  call _ _ _ h hc := h.call hc
  perform _ _ _ _ _ _ hA h ho hperf := h.perform hA ho (World.perform_of_lossy hperf)
  reap w t ch w' h hreap := by
    cases ch with
    | collect c => cases hreap; exact h.rollback _ _
    | _ => cases hreap
  env _ _ _ h he := h.env he

/-- The world before the daemons are started: no transaction is open, and no
running task or node is in the memory of a process. -/
structure World.Fresh (w : World) : Prop where
  tasks : ∀ t, w.db.tasks.locks t = none
  nodes : ∀ n, w.db.nodes.locks n = none
  saved : ∀ p c, (w.procs p).savedTasks c = []
  queued : ∀ p q, q ≠ .allocate → ((w.procs p).queues q).queue = []

/-- Such a world holds only what is in its tables. -/
theorem World.Fresh.holds {w : World} (h : w.Fresh)
    (hV : ∀ n row, w.db.nodes.rows n = some row → V row.endpoint) :
    w.Holds w.db.tasks.rows V where
  tasks := .of_unlocked (fun t row hrow => ⟨row, hrow, rfl, rfl, fun _ => rfl⟩) h.tasks
  nodes := .of_unlocked (fun n row hrow => .inl (hV n row hrow)) h.nodes
  memory p := by
    refine ⟨fun c task htask => ?_, fun q msg hmsg => ?_⟩
    · rw [h.saved p c] at htask
      cases htask
    · by_cases hq : q = .allocate
      · subst hq
        trivial
      · rw [h.queued p q hq] at hmsg
        cases hmsg

end Yascheduler
