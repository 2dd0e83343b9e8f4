import Yascheduler.Application.Snapshot

/-!
# What a unit of work writes

A unit of work that a coroutine executes undisturbed, on tables that nobody
else has locked, does what it says: its writes become the committed rows when
it commits, the events of the tasks it has saved are handed to the webhooks,
and closing its connection changes nothing more.

This is used where a program is executed alone, and not in the invariants: there,
a transaction is a sequence of steps with others in between. Here it is one step
from a world without locks to another one, and the connection it was made on has
been closed by the time anybody looks.
-/

namespace Yascheduler

open Store Async

/-- **Nothing is going on**: no transaction is open, and no unit of work that is
yet to come has saved a task. -/
structure World.Calm (w : World) (p : Nat) : Prop where
  tasks : ∀ t, w.db.tasks.locks t = none
  nodes : ∀ n, w.db.nodes.locks n = none
  registered : ∀ p, (w.procs p).Registered
  saved : ∀ c, w.db.lastConn < c → (w.procs p).savedTasks c = []

namespace World.Calm

variable {w : World} {p : Nat}

theorem regular (h : w.Calm p) : w.Regular where
  taskLocks t x c v hl := by
    rw [h.tasks t] at hl
    cases hl
  nodeLocks n x c v hl := by
    rw [h.nodes n] at hl
    cases hl
  registered := h.registered

theorem connected (h : w.Calm p) (k : Nat) : (w.connected k).Calm p where
  tasks := h.tasks
  nodes := h.nodes
  registered := h.registered
  saved c hc := h.saved c (lt_of_le_of_lt (Nat.le_add_right _ k) hc)

theorem read_nodes (h : w.Calm p) (c : Conn) : w.db.nodes.read c = w.db.nodes.rows :=
  w.db.nodes.read_of_unused (by simp [h.nodes])

/-- Nothing is left to be rolled back. -/
theorem rollback (h : w.Calm p) (c : Conn) : w.db.rollback c = w.db := by
  unfold Database.rollback
  rw [w.db.tasks.rollback_of_unused (by simp [h.tasks]),
    w.db.nodes.rollback_of_unused (by simp [h.nodes])]

end World.Calm

theorem Memory.modifySaved_nil {m : Memory} {c : Nat} (h : m.savedTasks c = []) :
    (m.modifySaved c fun _ => []) = m := by
  unfold Memory.modifySaved
  rw [← h, Function.update_eq_self]

/-- The world after a connection has committed, and announced what it saved. -/
def World.committed (w : World) (x : Tid) (c : Nat) : World :=
  ({ w with db := w.db.commit ⟨x, c⟩ } : World).modifyProc x.proc
    (·.modifySaved c fun _ => [])

/-- The world after a new connection has written a node row. -/
def World.writing (w : World) (x : Tid) (n : NodeId) (v : Option NewNode) : World :=
  { w with db := { w.db with
      nodes := w.db.nodes.write ⟨x, w.db.lastConn + 1⟩ n v
      lastConn := w.db.lastConn + 1 } }

/-- The world after a node row was written by a transaction of its own. -/
def World.withNode (w : World) (n : NodeId) (v : Option NewNode) : World :=
  { w with db := { w.db with
      nodes := .ofRows (Function.update w.db.nodes.rows n v)
      lastConn := w.db.lastConn + 1 } }

theorem World.Calm.withNode {w : World} {p : Nat} (h : w.Calm p) (n : NodeId)
    (v : Option NewNode) : (w.withNode n v).Calm p where
  tasks := h.tasks
  nodes _ := rfl
  registered := h.registered
  saved c hc := h.saved c (lt_of_le_of_lt (Nat.le_succ _) hc)

/-- **A row that is written is committed**, and nothing else changes. -/
theorem World.Calm.committed_writing {w : World} {x : Tid} (h : w.Calm x.proc) (n : NodeId)
    (v : Option NewNode) :
    (w.writing x n v).committed x (w.db.lastConn + 1) = w.withNode n v := by
  have hmemory : Function.update w.procs x.proc
      ((w.procs x.proc).modifySaved (w.db.lastConn + 1) fun _ => []) = w.procs := by
    rw [Memory.modifySaved_nil (h.saved _ (Nat.lt_succ_self _)), Function.update_eq_self]
  have hdb : (w.writing x n v).db.commit ⟨x, w.db.lastConn + 1⟩ = (w.withNode n v).db := by
    have hnodes := w.db.nodes.commit_write (o := ⟨x, w.db.lastConn + 1⟩) (k := n) (v := v) h.nodes
    have htasks := w.db.tasks.commit_of_unused (o := ⟨x, w.db.lastConn + 1⟩) (by simp [h.tasks])
    show ({ (w.writing x n v).db with
      tasks := w.db.tasks.commit _
      nodes := (w.db.nodes.write _ n v).commit _ } : Database) = _
    rw [hnodes, htasks]
    rfl
  unfold World.committed
  rw [hdb]
  exact congrArg (World.mk (w.withNode n v).db w.now · w.lost) hmemory

section

variable {cfg : Nat → Settings} {x : Tid} {w : World} {α : Type}

/-- **A unit of work**, on a new connection that is closed at the end. Nothing is
left of it but what its body has committed. -/
theorem exec_unitOfWork {body : Nat → Prog α} {a : α} {tr : Trace sig} {w' : World}
    (hbody : (undisturbed cfg x).exec (body (w.db.lastConn + 1)) (w.connected 1) =
      some (.ok a, tr, w'))
    (hlast : w.db.lastConn + 1 ≤ w'.db.lastConn)
    (hclose : w'.db.rollback ⟨x, w.db.lastConn + 1⟩ = w'.db) :
    (undisturbed cfg x).exec (Uow.within body) w =
      some (.ok a, Uow.readTrace (w.db.lastConn + 1) tr, w') := by
  have hbegin : (w.connected 1).perform cfg x (.begin (w.db.lastConn + 1)) (.done .none) =
      some (.ok (), w.connected 1) :=
    perform_done (o := .begin _) (fun c hc => (Option.some.inj hc).ge) .none
  have hend : w'.perform cfg x (.close (w.db.lastConn + 1)) (.done .none) =
      some (.ok (), w') := by
    refine (perform_done (o := .close _) (fun c hc => ?_) .none).trans ?_
    · exact Option.some.inj hc ▸ hlast
    · show some (_, { w' with db := w'.db.rollback ⟨x, w.db.lastConn + 1⟩ }) = _
      rw [hclose]
  have henter : (undisturbed cfg x).exec Uow.enter w =
      some (.ok (w.db.lastConn + 1), [.op .connect (.ok (w.db.lastConn + 1)),
        .op (.begin (w.db.lastConn + 1)) (.ok ())], w.connected 1) :=
    Solo.exec_bind (Solo.exec_op rfl) <| Solo.exec_tryCatch <|
      Solo.exec_bind (Solo.exec_op hbegin) rfl
  have hexit : (undisturbed cfg x).exec (Uow.exit (w.db.lastConn + 1) none) w' =
      some (.ok (), [.op (.close (w.db.lastConn + 1)) (.ok ())], w') :=
    Solo.exec_tryCatch (Solo.exec_op hend)
  exact Solo.exec_asyncWith henter hbody hexit

/-- A call that changes the memory of the process. -/
theorem exec_call {c : Call} {f : Memory → Memory}
    (hc : ((w.procs x.proc).call w.now c).2 = f (w.procs x.proc)) :
    (undisturbed cfg x).exec (ask c) w =
      some (.ok ((w.procs x.proc).call w.now c).1,
        [.call c ((w.procs x.proc).call w.now c).1], w.modifyProc x.proc f) := by
  have hsame : (w.modifyProc x.proc fun _ => ((w.procs x.proc).call w.now c).2) =
      w.modifyProc x.proc f := by
    unfold World.modifyProc
    rw [hc]
  exact congrArg (fun w' => some (_, _, w')) hsame

/-- A call whose answer is known, and that changes nothing. -/
theorem exec_answer {c : Call} {a : c.Ans}
    (hc : (w.procs x.proc).call w.now c = (a, w.procs x.proc)) :
    (undisturbed cfg x).exec (ask c) w = some (.ok a, [.call c a], w) := by
  have h : (undisturbed cfg x).exec (ask c) w = some (.ok _, [.call c _], w) :=
    exec_ask (congrArg Prod.snd hc)
  rwa [hc] at h

/-- Handlers change nothing. -/
theorem exec_dispatch (cfg' : Settings) (es : List DomainEvent) (w : World) :
    ∃ tr, (undisturbed cfg x).exec (Uow.dispatch cfg' es) w = some (.ok (), tr, w) := by
  induction es with
  | nil => exact ⟨[], rfl⟩
  | cons e es ih =>
    obtain ⟨tr, htr⟩ := ih
    unfold Uow.dispatch
    split
    · exact ⟨_, Solo.exec_bind (Solo.exec_tryCatch (Solo.exec_op rfl)) htr⟩
    · exact ⟨tr, htr⟩

/-- **Committing** publishes the writes, and the events of the saved tasks. In this
order; the handlers are called when the writes are there. -/
theorem exec_commit (cfg' : Settings) {c : Nat} (hc : c ≤ w.db.lastConn) :
    ∃ tr, (undisturbed cfg x).exec (Uow.commit cfg' c) w =
      some (.ok (), tr, w.committed x c) := by
  have hcommit : w.perform cfg x (.commit c) (.done .none) =
      some (.ok (), { w with db := w.db.commit ⟨x, c⟩ }) :=
    perform_done (o := .commit c) (fun c' hc' => Option.some.inj hc' ▸ hc) .none
  have htake : (undisturbed cfg x).exec (ask (.savedTake c))
      { w with db := w.db.commit ⟨x, c⟩ } = some (.ok ((w.procs x.proc).savedTasks c), _,
        w.committed x c) := exec_call rfl
  obtain ⟨tr, hdispatch⟩ : ∃ tr, (undisturbed cfg x).exec (Uow.dispatch cfg'
      (((w.procs x.proc).savedTasks c).flatMap (·.events))) (w.committed x c) =
        some (.ok (), tr, w.committed x c) := exec_dispatch cfg' _ _
  have hnothing : ((w.committed x c).procs x.proc).savedTasks c = [] := by
    unfold World.committed
    rw [World.modifyProc_self]
    exact Function.update_self ..
  have hclear : (undisturbed cfg x).exec (ask (.savedClear c)) (w.committed x c) =
      some (.ok (), _, w.committed x c) :=
    exec_ask (Memory.modifySaved_nil hnothing)
  exact ⟨_, Solo.exec_bind (Solo.exec_op hcommit) (Solo.exec_tryCatch
    (Solo.exec_bind htake (Solo.exec_bind hdispatch hclear)))⟩

/-- A statement that is executed at once. -/
theorem exec_stmt {st : Stmt} {r : Except Exc st.Res} {db' : Database} {c : Nat}
    (hc : c ≤ w.db.lastConn) (hexec : w.db.exec ⟨x, c⟩ st = some (r, db')) :
    (undisturbed cfg x).exec (await (.sql c st)) w =
      some (r, [.op (.sql c st) r], { w with db := db' }) := by
  refine Solo.exec_op ((perform_done (fun c' hc' => ?_) .none).trans ?_)
  · exact Option.some.inj hc' ▸ hc
  · show (w.db.exec ⟨x, c⟩ st).map _ = _
    rw [hexec]
    rfl

/-- Writing a row that exists and that nobody has locked. -/
theorem writeNode_calm (h : w.Calm x.proc) {n : NodeId} {row : NewNode}
    (hrow : w.db.nodes.rows n = some row) (f : NewNode → NewNode) :
    (w.connected 1).db.writeNode ⟨x, w.db.lastConn + 1⟩ n f =
      some (.ok true, (w.writing x n (some (f row))).db) := by
  have hread : (w.connected 1).db.nodes.read ⟨x, w.db.lastConn + 1⟩ n = some row := by
    rw [(h.connected 1).read_nodes]
    exact hrow
  have hfree : (w.connected 1).db.nodes.lockedByOther ⟨x, w.db.lastConn + 1⟩ n = false := by
    unfold RowStore.lockedByOther
    rw [(h.connected 1).nodes n]
  unfold Database.writeNode
  simp only [hread, hfree]
  rfl

end

end Yascheduler
