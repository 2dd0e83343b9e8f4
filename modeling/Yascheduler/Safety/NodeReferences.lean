import Yascheduler.Application.NodeChanges
import Yascheduler.Application.Snapshot
import Yascheduler.Store.References
import Yascheduler.Safety.Execution

/-!
# A running task always has its node

The foreign key from a task to its node, and the CHECK that a running task has
a node, are enforced statement by statement: an update that sets the reference
waits for a pending deletion of the node and fails when the node is gone, and
a deletion waits for whoever holds a task row of the node, fails while a task
runs on it, and clears the reference of the others. Any number of daemons and
command line tools do this at the same time, each in transactions of its own
that end in any order, or are lost.

In every state of every run, every transaction sees a node row behind every
node that a task row it sees refers to. In particular the node of a RUNNING
task is there, whoever looks.
-/

namespace Yascheduler

open Store Async

/-- **The references of a database are kept**, and only identifiers that were handed
out have rows. The first is said of what each transaction could see, committed or
not. -/
structure Database.Consistent (db : Database) : Prop where
  linked : db.tasks.Linked TaskRow.allocatedNodeId db.nodes
  tasks : ∀ t, db.lastTask < t.value → db.tasks.rows t = none ∧ db.tasks.locks t = none
  nodes : ∀ n, db.lastNode < n.value → db.nodes.rows n = none ∧ db.nodes.locks n = none

namespace Database

variable {db db' : Database} {c : Conn}

namespace Consistent

/-- A task row that is locked has an identifier that was handed out. -/
theorem mem_of_locked (h : db.Consistent) {t : TaskId} {l : Conn × Option TaskRow}
    (hl : db.tasks.locks t = some l) : t ∈ db.taskIds := by
  rw [mem_taskIds]
  by_contra hlt
  rw [(h.tasks t (Nat.not_le.mp hlt)).2] at hl
  cases hl

/-- So has a task row that is read. -/
theorem mem_of_read (h : db.Consistent) {t : TaskId} {row : TaskRow}
    (hread : db.tasks.read c t = some row) : t ∈ db.taskIds := by
  rw [mem_taskIds]
  by_contra hlt
  obtain ⟨hrows, hlocks⟩ := h.tasks t (Nat.not_le.mp hlt)
  rw [RowStore.read_of_unlocked _ hlocks, hrows] at hread
  cases hread

/-- A database given by its rows, whose references are to nodes in the list. -/
theorem ofLists {tasks : List TaskRow} {nodes : List NewNode}
    (h : ∀ row ∈ tasks, ∀ n, row.allocatedNodeId = some n → n.value ≤ nodes.length) :
    (Database.ofLists tasks nodes).Consistent where
  linked := by
    refine .of_unlocked (fun t row n hrow hn => ?_) (fun _ => rfl) fun _ => rfl
    have hle := h row (List.mem_of_getElem? hrow) n hn
    show nodes[n.value - 1]? ≠ none
    rw [List.getElem?_eq_getElem (Nat.sub_one_lt_of_le n.pos hle)]
    exact Option.some_ne_none _
  tasks t ht := ⟨List.getElem?_eq_none (Nat.le_sub_one_of_lt ht), rfl⟩
  nodes n hn := ⟨List.getElem?_eq_none (Nat.le_sub_one_of_lt hn), rfl⟩

/-- The next node is not locked by anybody, since its identifier was not handed out.
-/
theorem nextNode_unlocked (h : db.Consistent) : db.nodes.locks db.nextNode = none :=
  (h.nodes db.nextNode (Nat.lt_succ_self _)).2

/-- A node that is not being deleted by others, and that the transaction sees. The
row lock of a reference keeps the node from being deleted until the transaction
ends. -/
theorem not_deleted {n : NodeId} (hdel : db.nodeDeleting c n = false)
    (hsome : (db.nodes.read c n).isSome = true) (o : Conn) :
    db.nodes.locks n ≠ some (o, none) := by
  intro hl
  unfold nodeDeleting at hdel
  rw [hl] at hdel
  obtain rfl : o = c := by simpa using hdel
  rw [RowStore.read_of_locked _ hl] at hsome
  cases hsome

/-- **Saving a task** keeps the references: a reference that the row has
already is kept, and a new one is to a node that is there. -/
theorem updateTask (h : db.Consistent) {task : AnyTask} {row : TaskRow}
    {r : Except Exc Bool} (hread : db.tasks.read c task.taskId = some row)
    (hlock : db.tasks.lockedByOther c task.taskId = false)
    (hup : db.updateTask c task row = some (r, db')) : db'.Consistent := by
  have hwritten : (∀ n, task.state.allocatedNodeId = some n →
      db.nodes.read c n ≠ none ∧ ∀ o, db.nodes.locks n ≠ some (o, none)) →
      Consistent { db with
        tasks := db.tasks.write c task.taskId
          (some (TaskRow.ofTask task row.createdAt)) } := by
    intro hr
    refine ⟨h.linked.write hlock hr, fun t ht => ⟨(h.tasks t ht).1, ?_⟩, h.nodes⟩
    have hne : t ≠ task.taskId := by
      rintro rfl
      exact absurd (mem_taskIds.mp (h.mem_of_read hread)) (Nat.not_le.mpr ht)
    exact (RowStore.write_locks_ne _ hne).trans (h.tasks t ht).2
  unfold Database.updateTask at hup
  split at hup
  · rename_i hnone
    cases hup
    exact hwritten fun n hn => by rw [hnone] at hn; cases hn
  · rename_i n hn
    split at hup
    · rename_i hsame
      cases hup
      refine hwritten fun n' hn' => ?_
      rw [hn] at hn'
      cases hn'
      exact ⟨h.linked.read hread hsame, h.linked.not_deleted hread hlock hsame⟩
    · split at hup
      · cases hup
      · rename_i hdel
        split at hup
        · rename_i hsome
          cases hup
          refine hwritten fun n' hn' => ?_
          rw [hn] at hn'
          cases hn'
          exact ⟨Option.isSome_iff_ne_none.mp hsome,
            not_deleted (Bool.eq_false_iff.mpr hdel) hsome⟩
        · cases hup
          exact h

/-- Writing a node row that is there. -/
theorem writeNode (h : db.Consistent) {n : NodeId} {f : NewNode → NewNode}
    {r : Except Exc Bool} (hw : db.writeNode c n f = some (r, db')) :
    db'.Consistent := by
  rcases Database.writeNode_cases hw with rfl | ⟨row, hread, hlock, rfl⟩
  · exact h
  · refine ⟨h.linked.writeParent hlock, h.tasks, fun n' hn' => ⟨(h.nodes n' hn').1, ?_⟩⟩
    have hne : n' ≠ n := by
      rintro rfl
      obtain ⟨hrows, hlocks⟩ := h.nodes n' hn'
      rw [RowStore.read_of_unlocked _ hlocks, hrows] at hread
      cases hread
    exact (RowStore.write_locks_ne _ hne).trans (h.nodes n' hn').2

/-- A new node. -/
theorem insertNode (h : db.Consistent) (row : NewNode) :
    Consistent { db with
      nodes := db.nodes.write c db.nextNode (some row)
      lastNode := db.lastNode + 1 } := by
  refine ⟨h.linked.writeParent ?_, h.tasks, fun n hn => ?_⟩
  · unfold RowStore.lockedByOther
    rw [h.nextNode_unlocked]
  · obtain ⟨hrows, hlocks⟩ := h.nodes n (Nat.lt_of_succ_lt hn)
    refine ⟨hrows, (RowStore.write_locks_ne _ ?_).trans hlocks⟩
    rintro rfl
    exact absurd hn (Nat.lt_irrefl _)

/-- **Deleting a node**: nobody else holds a task row that refers to it, no task
runs on it, and the references of the others are cleared. A deletion that cannot
have this waits, or fails at the CHECK. -/
theorem removeNode (h : db.Consistent) {n : NodeId} {node : NewNode}
    (hread : db.nodes.read c n = some node)
    (hlock : db.nodes.lockedByOther c n = false)
    (hrefs : db.nodeReferenced c n = false) (hrun : db.runningOn c n = false) :
    Consistent { db with
      nodes := db.nodes.write c n none
      tasks := db.tasks.writeAll c (db.clearReferences c n) } := by
  have hcleared : ∀ t row, db.tasks.read c t = some row → row.allocatedNodeId = some n →
      db.clearReferences c n t ≠ none := by
    intro t row hread hn
    have hnot : row.status ≠ .running := by
      intro hr
      have hany : db.runningOn c n = true := by
        unfold runningOn
        rw [List.any_eq_true]
        refine ⟨t, h.mem_of_read hread, ?_⟩
        rw [hread]
        exact decide_eq_true ⟨hr, hn⟩
      rw [hrun] at hany
      cases hany
    unfold clearReferences
    rw [hread]
    dsimp only
    rw [dif_pos hnot, if_pos hn]
    exact Option.some_ne_none _
  refine ⟨h.linked.delete hlock ?_ hcleared ?_, fun t ht => ?_, fun n' hn' => ?_⟩
  · intro t o row hl ho hn
    have hany : db.nodeReferenced c n = true := by
      unfold nodeReferenced
      rw [List.any_eq_true]
      refine ⟨t, h.mem_of_locked hl, ?_⟩
      rw [hl]
      simp [ho, hn]
    rw [hrefs] at hany
    cases hany
  · intro t v hv
    obtain ⟨row, hr, hread, hn, rfl⟩ := db.clearReferences_eq_some c hv
    exact ⟨row, row.clearNode hr, hread, hn, rfl, rfl⟩
  · refine ⟨(h.tasks t ht).1, ?_⟩
    rw [RowStore.writeAll_locks_of_none]
    · exact (h.tasks t ht).2
    · rw [Option.eq_none_iff_forall_ne_some]
      intro v hv
      obtain ⟨row, -, hread, -⟩ := db.clearReferences_eq_some c hv
      exact absurd (mem_taskIds.mp (h.mem_of_read hread)) (Nat.not_le.mpr ht)
  · obtain ⟨hrows, hlocks⟩ := h.nodes n' hn'
    refine ⟨hrows, (RowStore.write_locks_ne _ ?_).trans hlocks⟩
    rintro rfl
    rw [RowStore.read_of_unlocked _ hlocks, hrows] at hread
    cases hread

/-- **Every statement keeps the references**, whoever executes it. One case for each
statement; only the save of a task and the deletion of a node are about references.
-/
theorem exec (h : db.Consistent) {st : Stmt} {r : Except Exc st.Res}
    (hexec : db.exec c st = some (r, db')) : db'.Consistent := by
  cases st with
  | taskUpdate task expected =>
    simp only [Database.exec] at hexec
    split at hexec
    · cases hexec
      exact h
    · rename_i row hread
      split at hexec
      · split at hexec
        · cases hexec
        · rename_i hlock
          exact h.updateTask hread (Bool.eq_false_iff.mpr hlock) hexec
      · cases hexec
        exact h
  | nodeInsert row =>
    cases hexec
    exact h.insertNode row
  | nodeUpdate node => exact h.writeNode hexec
  | nodeDisable n => exact h.writeNode hexec
  | nodeRemove n =>
    simp only [Database.exec] at hexec
    split at hexec
    · cases hexec
      exact h
    · rename_i node hread
      split at hexec
      · cases hexec
      · rename_i hwait
        rw [Bool.or_eq_true, not_or] at hwait
        split at hexec
        · cases hexec
          exact h
        · rename_i hrun
          cases hexec
          exact h.removeNode hread (Bool.eq_false_iff.mpr hwait.1)
            (Bool.eq_false_iff.mpr hwait.2) (Bool.eq_false_iff.mpr hrun)
  | _ =>
    cases hexec
    exact h

/-- So does a COMMIT: every value that it chooses was looked at when it was written.
-/
theorem commit (h : db.Consistent) (c : Conn) : (db.commit c).Consistent where
  linked := h.linked.commit c
  tasks t ht := by
    obtain ⟨hrows, hlocks⟩ := h.tasks t ht
    exact ⟨(RowStore.read_of_unlocked _ hlocks).trans hrows,
      RowStore.unlock_of_unlocked _ hlocks⟩
  nodes n hn := by
    obtain ⟨hrows, hlocks⟩ := h.nodes n hn
    exact ⟨(RowStore.read_of_unlocked _ hlocks).trans hrows,
      RowStore.unlock_of_unlocked _ hlocks⟩

/-- And a ROLLBACK, which only gives up values. -/
theorem rollback (h : db.Consistent) (c : Conn) : (db.rollback c).Consistent where
  linked := h.linked.rollback c
  tasks t ht := ⟨(h.tasks t ht).1, RowStore.unlock_of_unlocked _ (h.tasks t ht).2⟩
  nodes n hn := ⟨(h.nodes n hn).1, RowStore.unlock_of_unlocked _ (h.nodes n hn).2⟩

end Consistent

/-! ## Invariants of the database

What every statement keeps, whoever executes it, every run keeps. No program is
looked at for this: the programs could be any, and it is the database that
refuses. So the result also holds of tools that are not modelled, as long as
they use these statements. -/

/-- **What statements, COMMIT and ROLLBACK keep, every run keeps**, whatever the
programs are. The database is changed in no other way. -/
theorem invariant_run {I : Database → Prop}
    (hexec : ∀ db c st r db', I db → Database.exec db c st = some (r, db') → I db')
    (hcommit : ∀ db c, I db → I (Database.commit db c))
    (hrollback : ∀ db c, I db → I (Database.rollback db c))
    (hconn : ∀ db k, I db → I { db with lastConn := k })
    {cfg : Nat → Settings} {C : StepCondition} {w : World} {q : State} (h : I w.db)
    (hrun : Run cfg C (State.initial w) q) : I q.world.db := by
  have heffect : ∀ {w w' : World} {x : Tid} {o : Op} {rep : Reply} {r : Except Exc o.Res},
      w.effect cfg x o rep = some (r, w') → I w.db → I w'.db := by
    intro w w' x o rep r heff hI
    cases ho : o.onTables with
    | false =>
      rcases World.effect_db heff ho with hdb | ⟨-, hdb⟩
      · rw [hdb]
        exact hI
      · rw [hdb]
        exact hconn _ _ hI
    | true =>
      cases o with
      | sql c st =>
        obtain ⟨⟨r₁, db'⟩, hst, ha⟩ := Option.map_eq_some_iff.mp heff
        cases ha
        exact hexec _ _ st r₁ db' hI hst
      | commit c => cases heff; exact hcommit _ _ hI
      | rollback c => cases heff; exact hrollback _ _ hI
      | close c => cases heff; exact hrollback _ _ hI
      | _ => cases ho
  let P : Protocol sig Unit := Protocol.watch () fun _ _ => ()
  have hstep : ∀ {w w' : World} {log : Log} {e : Entry sig Tid World.Env},
      Happens (system cfg) P w log e w' → I w.db → I w'.db := by
    intro w w' log e hap hI
    cases hap with
    | call x c hpre => exact hI
    | perform x o ch r w' hpre _ _ hperf =>
      rcases World.perform_cases hperf with ⟨-, rep, r₀, heff, -⟩ | ⟨-, rfl, -⟩
      · exact heffect heff hI
      · exact hI
    | interrupt x o => exact hI
    | reap x ch w' _ _ hreap =>
      cases ch with
      | collect c => cases hreap; exact hrollback _ _ hI
      | _ => cases hreap
    | env e w' _ henv =>
      rw [World.env_db henv]
      exact hI
  have hsound : Sound (system cfg) P C fun w _ => I w.db :=
    { jobs := fun t j => Protocol.watch_runs _ _
      step := fun _ log e _ hI hap _ => ⟨Protocol.watch_answers log e, hstep hap hI⟩ }
  exact (hsound.invariant hrun (Pool.obeys_start w) h).2

end Database

/-- **A running task always has its node.** From a database whose references are
kept, in every state of every run, every transaction sees a node row behind every
reference of a task row that it sees, and the node of a task that it sees RUNNING.
It is the foreign key and the CHECK of the schema that do this, so it also holds of
programs that are wrong. -/
theorem nodesReferenced {cfg : Nat → Settings} {w : World} {q : State}
    (hw : w.db.Consistent) (hrun : Run cfg AnyStep (State.initial w) q) (c : Conn)
    (t : TaskId) (row : TaskRow) (hrow : q.world.db.tasks.read c t = some row) :
    (∀ n, row.allocatedNodeId = some n → ∃ node, q.world.db.nodes.read c n = some node) ∧
      (row.status = .running → ∃ n node,
        row.allocatedNodeId = some n ∧ q.world.db.nodes.read c n = some node) := by
  have hq : q.world.db.Consistent := Database.invariant_run
    (fun _ _ _ _ _ h hexec => h.exec hexec) (fun _ c h => h.commit c)
    (fun _ c h => h.rollback c) (fun _ _ h => ⟨h.linked, h.tasks, h.nodes⟩) hw hrun
  have hsees : ∀ n, row.allocatedNodeId = some n →
      ∃ node, q.world.db.nodes.read c n = some node := fun n hn =>
    Option.ne_none_iff_exists'.mp (hq.linked.read hrow hn)
  refine ⟨hsees, fun hr => ?_⟩
  obtain ⟨n, hn⟩ := Option.isSome_iff_exists.mp (row.isSome_of_running hr).1
  obtain ⟨node, hnode⟩ := hsees n hn
  exact ⟨n, node, hn, hnode⟩

namespace NodeReferences

/-- The first task is running for whoever looks on a new connection. -/
def running (q : State) : Bool :=
  (q.world.db.tasks.read ⟨⟨1, 1⟩, 9⟩ 1).any (·.status = .running)

theorem script_runs : ((oneProcess.play (system Booking.settings)
    [.act (.spawn ⟨0, 1⟩ .allocateWorker), .drive ⟨0, 1⟩ 52]
    (State.initial Execution.world)).map running) = some true := by
  decide +kernel

theorem consistent_world : Execution.world.db.Consistent :=
  .ofLists fun row hrow n hn => by
    rw [List.mem_singleton.mp hrow] at hn
    cases hn

end NodeReferences

/-- A task that was started on one of two machines. -/
theorem nodesReferenced_start : ∃ q n node,
    Run Booking.settings AnyStep (State.initial Execution.world) q ∧
      NodeReferences.running q = true ∧
      q.world.db.nodes.read ⟨⟨1, 1⟩, 9⟩ n = some node := by
  obtain ⟨q, hrun, hq⟩ := Script.exists_of_play NodeReferences.script_runs
  obtain ⟨row, hrow, hstatus⟩ := (Option.any_eq_true _ _).mp hq
  have hrun' : Run Booking.settings AnyStep (State.initial Execution.world) q :=
    hrun.mono fun _ _ _ _ => trivial
  obtain ⟨n, node, -, hnode⟩ := (nodesReferenced NodeReferences.consistent_world hrun'
    ⟨⟨1, 1⟩, 9⟩ 1 row hrow).2 (of_decide_eq_true hstatus)
  exact ⟨q, n, node, hrun', hq, hnode⟩

end Yascheduler
