import Yascheduler.Application.Changes

/-!
# What one step can change about the nodes

The node table is written by four statements and by the end of a transaction;
identifiers are handed out by the insertion and never again. The allocation
lock is memory of the daemon, taken by one operation and given back by one
call.

A row of the node table is looked at by its identifier, and identifiers are never
given out twice. So what one step can change is known as soon as it is known for
one row: it is inserted under a new identifier, updated, disabled or removed in a
transaction, or a transaction ends that has touched it.

The lock is here because the two belong together in every argument about
capacity: rows of a provider are added only by whoever holds it.
-/

namespace Yascheduler

open Store Async

/-! ## The node table -/

/-- The operations that can write to the node table. -/
def Op.writesNodes : Op → Bool
  | .sql _ (.nodeInsert _) | .sql _ (.nodeUpdate _) | .sql _ (.nodeDisable _)
  | .sql _ (.nodeRemove _) | .commit _ | .rollback _ | .close _ => true
  | _ => false

/-- The identifier of the next node. -/
def Database.nextNode (db : Database) : NodeId := ⟨db.lastNode + 1, db.succ_lastNode_pos⟩

namespace Database

variable {db : Database}

/-- No identifier is handed out twice. -/
theorem nodup_nodeIds (db : Database) : db.nodeIds.Nodup :=
  List.Nodup.map (fun _ _ h => Nat.succ.inj (congrArg NodeId.value h)) List.nodup_range

end Database

/-- **What an operation of a coroutine can do to the node table**, and to the number
of identifiers handed out. The number goes up even if the transaction of the
insertion is rolled back. -/
inductive NodeChange (x : Tid) (db : Database) :
    (o : Op) → Choice → Except Exc o.Res → RowStore NodeId NewNode Conn → Nat → Prop where
  /-- the operation does not write to it -/
  | other {o ch r} (h : o.writesNodes = false) : NodeChange x db o ch r db.nodes db.lastNode
  /-- the operation fails without an effect -/
  | failed {o ch r} (h : ch.effective = false) (hr : ∃ e, r = .error e) :
      NodeChange x db o ch r db.nodes db.lastNode
  | inserted {c row ch r} (hr : ∀ node, r = .ok node → node = { row with nodeId := db.nextNode }) :
      NodeChange x db (.sql c (.nodeInsert row)) ch r
        (db.nodes.write ⟨x, c⟩ db.nextNode (some row)) (db.lastNode + 1)
  /-- a statement that finds no row, or is refused -/
  | unmatched {c st ch r} : NodeChange x db (.sql c st) ch r db.nodes db.lastNode
  | updated {c node ch r} (row : NewNode)
      (hread : db.nodes.read ⟨x, c⟩ node.nodeId = some row)
      (hlock : db.nodes.lockedByOther ⟨x, c⟩ node.nodeId = false) :
      NodeChange x db (.sql c (.nodeUpdate node)) ch r
        (db.nodes.write ⟨x, c⟩ node.nodeId (some node.toNewNode)) db.lastNode
  | disabled {c n ch r} (row : NewNode) (hread : db.nodes.read ⟨x, c⟩ n = some row)
      (hlock : db.nodes.lockedByOther ⟨x, c⟩ n = false) :
      NodeChange x db (.sql c (.nodeDisable n)) ch r
        (db.nodes.write ⟨x, c⟩ n (some { row with enabled := false })) db.lastNode
  | removed {c n ch r} (row : NewNode) (hread : db.nodes.read ⟨x, c⟩ n = some row)
      (hlock : db.nodes.lockedByOther ⟨x, c⟩ n = false) :
      NodeChange x db (.sql c (.nodeRemove n)) ch r
        (db.nodes.write ⟨x, c⟩ n none) db.lastNode
  | committed {c ch r} (h : ch.effective = true) :
      NodeChange x db (.commit c) ch r (db.nodes.commit ⟨x, c⟩) db.lastNode
  | rolledBack {c ch r} (h : ch.effective = true) :
      NodeChange x db (.rollback c) ch r (db.nodes.rollback ⟨x, c⟩) db.lastNode
  | closed {c ch r} (h : ch.effective = true) :
      NodeChange x db (.close c) ch r (db.nodes.rollback ⟨x, c⟩) db.lastNode

/-- A row that is written exists, and nobody else has written it. -/
theorem Database.writeNode_cases {db db' : Database} {c : Conn} {n : NodeId}
    {f : NewNode → NewNode} {r : Except Exc Bool} (h : db.writeNode c n f = some (r, db')) :
    db' = db ∨ ∃ row, db.nodes.read c n = some row ∧
      db.nodes.lockedByOther c n = false ∧
      db' = { db with nodes := db.nodes.write c n (some (f row)) } := by
  unfold Database.writeNode at h
  split at h
  · cases h
    exact .inl rfl
  · rename_i row hread
    split at h
    · cases h
    · rename_i hlock
      cases h
      exact .inr ⟨row, hread, Bool.eq_false_iff.mpr hlock, rfl⟩

namespace World

variable {cfg : Nat → Settings} {w w' : World} {t : Tid}

/-- A statement makes one of these changes. -/
theorem exec_nodeChange {c : Nat} {st : Stmt} {ch : Choice} {r r₀ : Except Exc st.Res}
    {db db' : Database} (h : db.exec ⟨t, c⟩ st = some (r₀, db'))
    (hr : r = r₀ ∨ ∃ e, r = .error e) :
    NodeChange t db (.sql c st) ch r db'.nodes db'.lastNode := by
  cases st with
  | taskUpdate task expected =>
    rcases Database.exec_taskUpdate h with ⟨row, -, -, -, -, rfl⟩ | ⟨rfl, -⟩ <;>
      exact .unmatched
  | nodeInsert row =>
    cases h
    refine .inserted fun node hnode => ?_
    rcases hr with rfl | ⟨e, he⟩
    · exact (Except.ok.inj hnode).symm
    · rw [he] at hnode
      cases hnode
  | nodeUpdate node =>
    rcases Database.writeNode_cases h with rfl | ⟨row, hread, hlock, rfl⟩
    · exact .unmatched
    · exact .updated row hread hlock
  | nodeDisable n =>
    rcases Database.writeNode_cases h with rfl | ⟨row, hread, hlock, rfl⟩
    · exact .unmatched
    · exact .disabled row hread hlock
  | nodeRemove n =>
    simp only [Database.exec] at h
    split at h
    · cases h
      exact .unmatched
    · rename_i row hread
      split at h
      · cases h
      · rename_i hwait
        split at h
        · cases h
          exact .unmatched
        · cases h
          rw [Bool.or_eq_true, not_or] at hwait
          exact .removed row hread (Bool.eq_false_iff.mpr hwait.1)
  | _ =>
    cases h
    exact .unmatched

/-- **Every operation makes one of these changes.** By cases on how it is resolved,
as for the tasks. -/
theorem perform_nodeChange {o : Op} {ch : Choice} {r : Except Exc o.Res}
    (h : w.perform cfg t o ch = some (r, w')) :
    NodeChange t w.db o ch r w'.db.nodes w'.db.lastNode := by
  rcases perform_cases h with ⟨hch, rep, r₀, heff, hr⟩ | ⟨hch, rfl, e, hr, -⟩
  · cases ho : o.onTables with
    | true =>
      cases o with
      | sql c st =>
        obtain ⟨⟨r₁, db'⟩, hexec, ha⟩ := Option.map_eq_some_iff.mp heff
        cases ha
        exact exec_nodeChange hexec (hr.imp id fun ⟨e, he, _⟩ => ⟨e, he⟩)
      | commit c => cases heff; exact .committed hch
      | rollback c => cases heff; exact .rolledBack hch
      | close c => cases heff; exact .closed hch
      | _ => cases ho
    | false =>
      have hw : o.writesNodes = false := by
        cases o with
        | sql c st => cases ho
        | commit c => cases ho
        | rollback c => cases ho
        | close c => cases ho
        | _ => rfl
      have hsame : w'.db.nodes = w.db.nodes ∧ w'.db.lastNode = w.db.lastNode := by
        rcases effect_db heff ho with hdb | ⟨-, hdb⟩ <;> rw [hdb] <;> exact ⟨rfl, rfl⟩
      rw [hsame.1, hsame.2]
      exact .other hw
  · exact .failed hch ⟨e, hr⟩

/-- What an insertion returns: the row under the next identifier. -/
theorem perform_nodeInsert {c : Nat} {row : NewNode} {ch : Choice} {node : Node}
    (h : w.perform cfg t (.sql c (.nodeInsert row)) ch = some (.ok node, w')) :
    node = { row with nodeId := w.db.nextNode } ∧ w'.db.lastNode = w.db.lastNode + 1 := by
  rcases perform_cases h with ⟨-, rep, r₀, heff, rfl | ⟨e, he, -⟩⟩ | ⟨-, -, e, he, -⟩
  · cases heff
    exact ⟨rfl, rfl⟩
  · cases he
  · cases he

/-- What `list_all` returns: all that its connection sees. The capacity of a
provider is counted from this. -/
theorem perform_listAll {c : Nat} {ch : Choice} {nodes : List Node}
    (h : w.perform cfg t (.sql c .nodeListAll) ch = some (.ok nodes, w')) :
    nodes = w.db.visibleNodes ⟨t, c⟩ := by
  rcases perform_cases h with ⟨-, rep, r₀, heff, rfl | ⟨e, he, -⟩⟩ | ⟨-, -, e, he, -⟩
  · cases heff
    rfl
  · cases he
  · cases he

end World

/-! ## The allocation lock

The lock is memory of one process, so it says nothing about other daemons. Its
holder is not written down anywhere. What is known is who has taken it and not
given it back, and that is a matter of the log. -/

/-- Only releasing the lock changes it, among the calls. -/
theorem Memory.call_lock (m : Memory) (now : Nat) {c : Call} (h : c ≠ .lockRelease) :
    (m.call now c).2.allocationLock = m.allocationLock := by
  cases c with
  | lockRelease => exact absurd rfl h
  | occupy s => simp only [Memory.call]; split <;> rfl
  | trackerAdd t => simp only [Memory.call]; split <;> rfl
  | trackerSetNode t n => simp only [Memory.call]; split <;> rfl
  | failureSetdefault n => simp only [Memory.call]; split <;> rfl
  | _ => rfl

namespace World

variable {cfg : Nat → Settings} {w w' : World} {t : Tid}

/-- An operation that does not take the lock leaves it alone. -/
theorem perform_lock {o : Op} {ch : Choice} {r : Except Exc o.Res}
    (h : w.perform cfg t o ch = some (r, w')) (ho : o ≠ .lockAcquire) (p : Nat) :
    (w'.procs p).allocationLock = (w.procs p).allocationLock := by
  rcases perform_cases h with ⟨-, rep, r₀, heff, -⟩ | ⟨-, rfl, -⟩
  · obtain ⟨hchange, hother⟩ := effect_memory heff
    by_cases hp : p = t.proc
    · subst hp
      generalize w'.procs t.proc = m at hchange ⊢
      cases hchange with
      | locked => exact absurd rfl ho
      | _ => rfl
    · rw [hother p hp]
  · rfl

/-- Nobody takes the lock of another process. It is a lock of `asyncio`, so it says
nothing about two daemons on one database. -/
theorem perform_lock_ne {o : Op} {ch : Choice} {r : Except Exc o.Res}
    (h : w.perform cfg t o ch = some (r, w')) {p : Nat} (hp : p ≠ t.proc) :
    (w'.procs p).allocationLock = (w.procs p).allocationLock := by
  rcases perform_cases h with ⟨-, rep, r₀, heff, -⟩ | ⟨-, rfl, -⟩
  · rw [(effect_memory heff).2 p hp]
  · rfl

/-- The lock is taken only while it is free. -/
theorem perform_lockAcquire {ch : Choice} {r : Except Exc Unit}
    (h : w.perform cfg t .lockAcquire ch = some (r, w')) (hch : ch.effective = true) :
    (w.procs t.proc).allocationLock = false ∧
      (w'.procs t.proc).allocationLock = true := by
  rcases perform_cases h with ⟨-, rep, r₀, heff, -⟩ | ⟨hno, -⟩
  · have hchange := (effect_memory heff).1
    generalize w'.procs t.proc = m at hchange ⊢
    cases hchange with
    | same ho => exact absurd rfl ho
    | locked hfree => exact ⟨hfree, rfl⟩
  · rw [hch] at hno
    cases hno

/-- The environment does not take the lock. -/
theorem env_lock {e : Env} (h : w.env e = some w') (p : Nat) :
    (w'.procs p).allocationLock = (w.procs p).allocationLock := by
  have hset : ∀ p' s y, ((w.setSession p' s y).procs p).allocationLock =
      (w.procs p).allocationLock := by
    intro p' s y
    unfold setSession
    by_cases hp : p = p'
    · subst hp
      rw [modifyProc_self]
      rfl
    · rw [modifyProc_ne _ _ hp]
  cases e with
  | tick d => cases h; rfl
  | check p' s engine pgrep code =>
    obtain ⟨y, -, rfl⟩ := Option.map_eq_some_iff.mp h
    exact hset p' s y
  | react p' s =>
    obtain ⟨y, -, rfl⟩ := Option.map_eq_some_iff.mp h
    exact hset p' s y
  | lose c => cases h

end World

/-- **What one step can change about the lock** of a process. Nothing but the call
that releases it makes it free again, not even a cancellation. -/
inductive LockChange (p : Nat) (w w' : World) : Entry sig Tid World.Env → Prop where
  | same {e} (h : (w'.procs p).allocationLock = (w.procs p).allocationLock) :
      LockChange p w w' e
  | acquired {x ch r} (hx : x.proc = p) (hfree : (w.procs p).allocationLock = false) :
      LockChange p w w' (.thread x (.performed .lockAcquire ch r))
  | released {x r} (hx : x.proc = p) : LockChange p w w' (.thread x (.call .lockRelease r))

/-- **Every step makes one of these changes** to the lock. What does not touch the
lock is the first of them. -/
theorem lockChange {cfg : Nat → Settings} {L : Type} {P : Protocol sig L}
    {w w' : World} {log : Log} {e : Entry sig Tid World.Env}
    (hap : Happens (system cfg) P w log e w') (p : Nat) : LockChange p w w' e := by
  cases hap with
  | call x c hpre =>
    by_cases hp : p = x.proc
    · subst hp
      by_cases hc : c = .lockRelease
      · subst hc
        exact .released rfl
      · refine .same ?_
        show ((w.modifyProc x.proc fun _ => ((w.procs x.proc).call w.now c).2).procs
          x.proc).allocationLock = _
        rw [World.modifyProc_self, Memory.call_lock _ _ hc]
    · refine .same ?_
      show ((w.modifyProc x.proc fun _ => ((w.procs x.proc).call w.now c).2).procs
        p).allocationLock = _
      rw [World.modifyProc_ne _ _ hp]
  | perform x o ch r w' hpre _ _ hperf =>
    by_cases ho : o = .lockAcquire
    · subst ho
      have hperf' : w.perform cfg x .lockAcquire ch = some (r, w') := hperf
      rcases World.perform_cases hperf' with ⟨hch, -⟩ | ⟨-, rfl, -⟩
      · by_cases hp : x.proc = p
        · subst hp
          exact .acquired rfl (World.perform_lockAcquire hperf hch).1
        · exact .same (World.perform_lock_ne hperf' (Ne.symm hp))
      · exact .same rfl
    · exact .same (World.perform_lock hperf ho p)
  | interrupt x o => exact .same rfl
  | reap x ch w' _ _ hreap =>
    cases ch with
    | collect c => cases hreap; exact .same rfl
    | _ => cases hreap
  | env e w' _ henv => exact .same (World.env_lock henv p)

/-! ## One step of the system

A node row is looked at in two ways, as it is committed and as it is written by
somebody. One step changes the first only by a COMMIT and the second only by a
statement, and the invariants about nodes need no more than this. -/

/-- **A row that is written** on a connection, with its new value. Nobody else sees
it before the COMMIT. -/
inductive NodeWrite (x : Tid) (c : Nat) (db db' : Database) :
    Op → NodeId → Option NewNode → Prop where
  | inserted {row} (hlast : db'.lastNode = db.lastNode + 1) :
      NodeWrite x c db db' (.sql c (.nodeInsert row)) db.nextNode (some row)
  | updated {node} (row : NewNode) (hread : db.nodes.read ⟨x, c⟩ node.nodeId = some row) :
      NodeWrite x c db db' (.sql c (.nodeUpdate node)) node.nodeId (some node.toNewNode)
  | disabled {n} (row : NewNode) (hread : db.nodes.read ⟨x, c⟩ n = some row) :
      NodeWrite x c db db' (.sql c (.nodeDisable n)) n (some { row with enabled := false })
  | removed {n} (row : NewNode) (hread : db.nodes.read ⟨x, c⟩ n = some row) :
      NodeWrite x c db db' (.sql c (.nodeRemove n)) n none

/-- **What one step can change about the nodes.** Rows change with a COMMIT only,
and a lock that is new is that of a row just written. So whatever is said of a row
between two COMMITs of others stays true. -/
structure NodeStep (w w' : World) (e : Entry sig Tid World.Env) : Prop where
  rows : w'.db.nodes.rows = w.db.nodes.rows ∨
    ∃ x c ch r, e = .thread x (.performed (.commit c) ch r) ∧ ch.effective = true ∧
      w'.db.nodes.rows = w.db.nodes.read ⟨x, c⟩
  locks : ∀ n o v, w'.db.nodes.locks n = some (o, v) → w.db.nodes.locks n = some (o, v) ∨
    ∃ x c op ch r, e = .thread x (.performed op ch r) ∧ o = ⟨x, c⟩ ∧ c ≤ w.db.lastConn ∧
      NodeWrite x c w.db w'.db op n v
  lastNode : w.db.lastNode ≤ w'.db.lastNode
  lastConn : w.db.lastConn ≤ w'.db.lastConn

namespace NodeStep

variable {w w' : World} {e : Entry sig Tid World.Env}

/-- A step that does not touch the database. -/
theorem same (h : w'.db = w.db) : NodeStep w w' e where
  rows := .inl (by rw [h])
  locks _ _ _ hl := .inl (by rwa [h] at hl)
  lastNode := by rw [h]
  lastConn := by rw [h]

/-- A transaction that ends without its writes. -/
theorem unlocked {c : Conn} (hn : w'.db.nodes = w.db.nodes.rollback c)
    (hlast : w'.db.lastNode = w.db.lastNode) (hconn : w.db.lastConn ≤ w'.db.lastConn) :
    NodeStep w w' e where
  rows := .inl (by rw [hn, RowStore.rollback_rows])
  locks n o v hl := by
    rw [hn, RowStore.rollback_locks_eq_some] at hl
    exact .inl hl.1
  lastNode := hlast.ge
  lastConn := hconn

/-- A statement that writes one row. -/
theorem written {x : Tid} {c : Nat} {st : Stmt} {ch : Choice}
    {r : Except Exc (Op.Res (.sql c st))}
    {n : NodeId} {v : Option NewNode} (hn : w'.db.nodes = w.db.nodes.write ⟨x, c⟩ n v)
    (hw : NodeWrite x c w.db w'.db (.sql c st) n v) (hc : c ≤ w.db.lastConn)
    (hlast : w.db.lastNode ≤ w'.db.lastNode) (hconn : w.db.lastConn ≤ w'.db.lastConn) :
    NodeStep w w' (.thread x (.performed (.sql c st) ch r)) where
  rows := .inl (by rw [hn, RowStore.write_rows])
  locks n' o v' hl := by
    rw [hn] at hl
    by_cases h : n' = n
    · subst h
      rw [RowStore.write_locks_self] at hl
      cases hl
      exact .inr ⟨x, c, .sql c st, ch, r, rfl, rfl, hc, hw⟩
    · rw [RowStore.write_locks_ne _ h] at hl
      exact .inl hl
  lastNode := hlast
  lastConn := hconn

end NodeStep

/-- **Every step makes only these changes** to the nodes. It puts together what
operations do, and that nothing else reaches the database. -/
theorem nodeStep {cfg : Nat → Settings} {L : Type} {P : Protocol sig L}
    {w w' : World} {log : Log} {e : Entry sig Tid World.Env}
    (hap : Happens (system cfg) P w log e w') : NodeStep w w' e := by
  cases hap with
  | call x c => exact .same rfl
  | perform x o ch r w' _ _ _ hperf =>
    have hchange := World.perform_nodeChange hperf
    have hconn := World.perform_lastConn hperf
    have huse : ∀ c, o.conn = some c → c ≤ w.db.lastConn :=
      fun c hc => World.perform_conn hperf hc
    generalize hnodes : w'.db.nodes = nodes at hchange
    generalize hlast : w'.db.lastNode = last at hchange
    have hsame : nodes = w.db.nodes → last = w.db.lastNode →
        NodeStep w w' (.thread x (.performed o ch r)) := fun hn hl =>
      { rows := .inl (by rw [hnodes, hn])
        locks := fun n o v h => .inl (by rwa [hnodes, hn] at h)
        lastNode := (hlast.trans hl).ge
        lastConn := hconn }
    cases hchange with
    | other => exact hsame rfl rfl
    | failed => exact hsame rfl rfl
    | unmatched => exact hsame rfl rfl
    | inserted =>
      exact .written hnodes (.inserted hlast) (huse _ rfl)
        (hlast ▸ Nat.le_succ _) hconn
    | updated row hread =>
      exact .written hnodes (.updated row hread) (huse _ rfl) hlast.ge hconn
    | disabled row hread =>
      exact .written hnodes (.disabled row hread) (huse _ rfl) hlast.ge hconn
    | removed row hread =>
      exact .written hnodes (.removed row hread) (huse _ rfl) hlast.ge hconn
    | @committed c _ _ hch =>
      exact
        { rows := .inr ⟨x, c, ch, _, rfl, hch, by rw [hnodes]; rfl⟩
          locks := fun n o v h => by
            rw [hnodes, RowStore.commit_locks_eq_some] at h
            exact .inl h.1
          lastNode := hlast.ge
          lastConn := hconn }
    | rolledBack => exact .unlocked hnodes hlast hconn
    | closed => exact .unlocked hnodes hlast hconn
  | interrupt x o => exact .same rfl
  | reap x ch w' _ _ hreap =>
    cases ch with
    | collect c => cases hreap; exact .unlocked rfl rfl le_rfl
    | _ => cases hreap
  | env e w' _ henv => exact .same (World.env_db henv)

end Yascheduler
