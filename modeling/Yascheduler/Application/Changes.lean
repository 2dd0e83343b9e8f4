import Yascheduler.System

/-!
# What one step can change

Every operation, call and event of the environment, said once: what it can
do to the task table, and what it can do to the session objects. The
invariance proofs argue by cases on these, and never look into the
semantics again.

## Why the cases are collected here

An operation has many ways to end – with an effect, without one, with one that is
reported as a failure – and most of them are the same for whoever looks at one
table. So the changes are listed by what happens to the data and not by what was
asked for: a row is locked, a lock is given up or committed, a row is removed.
Where it matters a case also says which answer it comes with, because an
invariant that is to be kept by a commit has to know that it was one.

These lists are what has to be extended when an operation is added. A proof about
runs never sees the operation itself.
-/

namespace Yascheduler

open Store Async

/-! ## Operations -/

/-- The choice lets the operation take effect. -/
def Choice.effective : Choice → Bool
  | .done _ | .lateFail _ _ => true
  | _ => false

namespace World

variable {cfg : Nat → Settings} {w w' : World} {t : Tid} {o : Op} {ch : Choice}
  {r : Except Exc o.Res}

/-- An operation either takes effect – and then it may still fail – or it fails and
changes nothing. Everything that is said of operations below begins with this case
distinction. -/
theorem perform_cases (h : w.perform cfg t o ch = some (r, w')) :
    (ch.effective = true ∧ ∃ rep r₀, w.effect cfg t o rep = some (r₀, w') ∧
      (r = r₀ ∨ ∃ e, r = .error e ∧ e.isException = true)) ∨
    (ch.effective = false ∧ w' = w ∧ ∃ e, r = .error e ∧ e.isException = true) := by
  unfold perform at h
  split at h
  case isFalse => cases h
  cases ch with
  | done rep => exact .inl ⟨rfl, rep, r, h, .inl rfl⟩
  | fail e =>
    dsimp only at h
    split at h
    · rename_i he
      cases h
      exact .inr ⟨rfl, rfl, e, rfl, he⟩
    · cases h
  | lateFail rep e =>
    dsimp only at h
    split at h
    · rename_i he
      obtain ⟨⟨r₀, w₀⟩, ha, hr⟩ := Option.map_eq_some_iff.mp h
      cases hr
      exact .inl ⟨rfl, rep, r₀, ha, .inr ⟨e, rfl, he⟩⟩
    · cases h
  | collect c => cases h

/-- A connection that is used was opened before. -/
theorem perform_conn (h : w.perform cfg t o ch = some (r, w')) {c : Nat}
    (hc : o.conn = some c) : c ≤ w.db.lastConn := by
  unfold perform at h
  split at h
  · rename_i hall
    rw [hc] at hall
    simpa using hall
  · cases h

/-- An operation over SSH leaves the world alone, whether it fails or not. -/
theorem overSsh_world {α : Type} {s : SessionId} {x : Option α}
    {r : Except Exc α} (h : w.overSsh t s x = some (r, w')) : w' = w := by
  unfold overSsh at h
  split at h
  · cases h
    rfl
  · obtain ⟨a, -, ha⟩ := Option.map_eq_some_iff.mp h
    cases ha
    rfl

end World

/-- The operations on the tables. -/
def Op.onTables : Op → Bool
  | .sql _ _ | .commit _ | .rollback _ | .close _ => true
  | _ => false

/-- An operation on something else leaves the tables alone. -/
theorem World.effect_db {cfg : Nat → Settings} {w w' : World} {t : Tid} {o : Op}
    {rep : Reply} {r : Except Exc o.Res} (h : w.effect cfg t o rep = some (r, w'))
    (ho : o.onTables = false) :
    w'.db = w.db ∨ o = .connect ∧ w'.db = { w.db with lastConn := w.db.lastConn + 1 } := by
  have hssh : ∀ {α : Type} {s : SessionId} {x : Option α} {r : Except Exc α},
      w.overSsh t s x = some (r, w') →
      w'.db = w.db ∨ o = .connect ∧ w'.db = { w.db with lastConn := w.db.lastConn + 1 } := by
    intro α s x r h
    exact .inl (by rw [overSsh_world h])
  cases o with
  | sql c st => cases ho
  | commit c => cases ho
  | rollback c => cases ho
  | close c => cases ho
  | cpuCores s =>
    cases rep <;> simp only [effect] at h <;> try cases h
    split at h
    · cases h; exact .inl rfl
    · exact hssh h
  | connect => cases h; exact .inr ⟨rfl, rfl⟩
  | sftpRealpath s => cases rep <;> first | exact hssh h | cases h
  | cloudInit s => cases rep <;> first | exact hssh h | cases h
  | sftpOpen s | sftpMakedirs s path | sftpWrite s path data | sftpGet s t f d
  | sftpRmtree s t path | sftpClose s | runBg s t cmd | setupNode s => exact hssh h
  | connectMachine node => cases rep <;> cases h; exact .inl rfl
  | createNode provider => cases rep <;> cases h; exact .inl rfl
  | lockAcquire =>
    simp only [effect] at h
    split at h <;> cases h
    exact .inl rfl
  | slotAcquire provider =>
    simp only [effect] at h
    split at h <;> cases h
    exact .inl rfl
  | queueGet q =>
    obtain ⟨a, -, ha⟩ := Option.map_eq_some_iff.mp h
    cases ha
    exact .inl rfl
  | _ => cases h; exact .inl rfl

/-! ## The task table

Deleting a node writes task rows too, because the foreign key clears the
references to it. So the task table is not the business of the task statements
alone, and a proof that looked at saves only would miss a writer.

The cases say what becomes of locks and of uncommitted rows, not which row was
asked for. A save that matched no row and one that was refused are the same
case, since neither has changed the table. -/

/-- The operations that can write to the task table. Deleting a node is one of them,
since it clears the references to it. -/
def Op.writesTasks : Op → Bool
  | .sql _ (.taskUpdate _ _) | .sql _ (.nodeRemove _) | .commit _ | .rollback _
  | .close _ => true
  | _ => false

/-- **What an operation of a coroutine can do to the task table.** An invariant of
the rows only has to be checked against these cases, and not against the statements.
-/
inductive TaskChange (x : Tid) (db : Database) :
    (o : Op) → Choice → Except Exc o.Res → RowStore TaskId TaskRow Conn → Prop where
  /-- the operation does not write to it -/
  | other {o ch r} (h : o.writesTasks = false) : TaskChange x db o ch r db.tasks
  /-- the operation fails without an effect -/
  | failed {o ch r} (h : ch.effective = false) (hr : ∃ e, r = .error e) :
      TaskChange x db o ch r db.tasks
  /-- a save that finds no row, or is refused -/
  | unsaved {c task expected ch r} (hr : r ≠ .ok true) :
      TaskChange x db (.sql c (.taskUpdate task expected)) ch r db.tasks
  | saved {c task expected ch r} (row : TaskRow) (h : ch.effective = true)
      (hread : db.tasks.read ⟨x, c⟩ task.taskId = some row)
      (hexp : expected.all (· = row.status) = true)
      (hlock : db.tasks.lockedByOther ⟨x, c⟩ task.taskId = false) :
      TaskChange x db (.sql c (.taskUpdate task expected)) ch r
        (db.tasks.write ⟨x, c⟩ task.taskId (some (.ofTask task row.createdAt)))
  /-- a deletion of a node that finds no row, or is refused -/
  | unremoved {c n ch r} : TaskChange x db (.sql c (.nodeRemove n)) ch r db.tasks
  | removed {c n ch r} : TaskChange x db (.sql c (.nodeRemove n)) ch r
      (db.tasks.writeAll ⟨x, c⟩ (db.clearReferences ⟨x, c⟩ n))
  | committed {c ch r} (h : ch.effective = true) :
      TaskChange x db (.commit c) ch r (db.tasks.commit ⟨x, c⟩)
  | rolledBack {c ch r} (h : ch.effective = true) :
      TaskChange x db (.rollback c) ch r (db.tasks.rollback ⟨x, c⟩)
  | closed {c ch r} (h : ch.effective = true) :
      TaskChange x db (.close c) ch r (db.tasks.rollback ⟨x, c⟩)

namespace World

variable {cfg : Nat → Settings} {w w' : World} {t : Tid}

/-- Executing a statement that writes no task row. -/
theorem exec_tasks {c : Conn} {st : Stmt} {r : Except Exc st.Res} {db db' : Database}
    (h : db.exec c st = some (r, db'))
    (hu : ∀ task expected, st ≠ .taskUpdate task expected)
    (hr : ∀ n, st ≠ .nodeRemove n) : db'.tasks = db.tasks := by
  have hwrite : ∀ {n f} {r : Except Exc Bool}, db.writeNode c n f = some (r, db') →
      db'.tasks = db.tasks := by
    intro n f r h
    unfold Database.writeNode at h
    split at h
    · cases h
      rfl
    · split at h
      · cases h
      · cases h
        rfl
  cases st with
  | taskUpdate task expected => exact absurd rfl (hu task expected)
  | nodeRemove n => exact absurd rfl (hr n)
  | nodeUpdate node => exact hwrite h
  | nodeDisable n => exact hwrite h
  | _ => cases h; rfl

/-- The effect of an operation is one of these changes, whatever result is
delivered. -/
theorem effect_taskChange {o : Op} {ch : Choice} {rep : Reply} {r r₀ : Except Exc o.Res}
    (h : w.effect cfg t o rep = some (r₀, w')) (hch : ch.effective = true)
    (hr : r = r₀ ∨ ∃ e, r = .error e) :
    TaskChange t w.db o ch r w'.db.tasks := by
  cases o with
  | sql c st =>
    obtain ⟨⟨r₁, db'⟩, hexec, ha⟩ := Option.map_eq_some_iff.mp h
    cases ha
    cases st with
    | taskUpdate task expected =>
      have hne : r₁ ≠ .ok true → r ≠ .ok true := by
        rintro hr₁ rfl
        rcases hr with rfl | ⟨e, he⟩
        · exact hr₁ rfl
        · cases he
      rcases Database.exec_taskUpdate hexec with
        ⟨row, hread, hexp, hlock, -, rfl⟩ | ⟨rfl, rfl | rfl⟩
      · exact .saved row hch hread hexp hlock
      · exact .unsaved (hne (by rintro ⟨⟩))
      · exact .unsaved (hne (by rintro ⟨⟩))
    | nodeRemove n =>
      simp only [Database.exec] at hexec
      split at hexec
      · cases hexec
        exact .unremoved
      · split at hexec
        · cases hexec
        · split at hexec
          · cases hexec
            exact .unremoved
          · cases hexec
            exact .removed
    | _ =>
      rw [exec_tasks hexec (by rintro _ _ ⟨⟩) (by rintro _ ⟨⟩)]
      exact .other rfl
  | commit c =>
    cases h
    exact .committed hch
  | rollback c =>
    cases h
    exact .rolledBack hch
  | close c =>
    cases h
    exact .closed hch
  | _ =>
    have htasks : w'.db.tasks = w.db.tasks := by
      rcases effect_db h rfl with hdb | ⟨-, hdb⟩ <;> rw [hdb]
    rw [htasks]
    exact .other rfl

/-- **Every operation makes one of these changes.** By cases on how it is resolved,
and then on the statement. -/
theorem perform_taskChange {o : Op} {ch : Choice} {r : Except Exc o.Res}
    (h : w.perform cfg t o ch = some (r, w')) :
    TaskChange t w.db o ch r w'.db.tasks := by
  rcases perform_cases h with ⟨hch, rep, r₀, heff, hr⟩ | ⟨hch, rfl, e, hr, -⟩
  · exact effect_taskChange heff hch (hr.imp id fun ⟨e, he, _⟩ => ⟨e, he⟩)
  · exact .failed hch ⟨e, hr⟩

/-- A COMMIT that takes effect publishes what its transaction has written. -/
theorem perform_commit {c : Nat} {ch : Choice} {r : Except Exc Unit}
    (h : w.perform cfg t (.commit c) ch = some (r, w')) (hch : ch.effective = true) :
    w'.db.tasks = w.db.tasks.commit ⟨t, c⟩ := by
  have hchange := perform_taskChange h
  generalize w'.db.tasks = tasks at hchange ⊢
  cases hchange with
  | other ho => cases ho
  | failed hf => rw [hch] at hf; cases hf
  | committed => rfl

/-! ## Errors

An operation fails with ordinary exceptions, a cancellation comes from the
pool. Keeping the two apart matters for the handlers of the source: `except
Exception` stops the first and lets the second through, and a program that is
cancelled in the middle of a clean-up leaves it undone. -/

/-- A statement only fails with an ordinary exception, -/
theorem exec_error {c : Conn} {st : Stmt} {e : Exc} {db db' : Database}
    (h : db.exec c st = some (.error e, db')) : e.isException = true := by
  have hwrite : ∀ {n f}, db.writeNode c n f = some (.error e, db') →
      e.isException = true := by
    intro n f h
    unfold Database.writeNode at h
    split at h
    · cases h
    · split at h <;> cases h
  cases st with
  | taskUpdate task expected =>
    rcases Database.exec_taskUpdate h with ⟨-, -, -, -, hr, -⟩ | ⟨-, hr | hr⟩
    · cases hr
    · cases hr
    · cases hr
      rfl
  | nodeRemove n =>
    simp only [Database.exec] at h
    split at h
    · cases h
    · split at h
      · cases h
      · split at h <;> cases h
        rfl
  | nodeUpdate node => exact hwrite h
  | nodeDisable n => exact hwrite h
  | _ => cases h

/-- and so does the effect of any operation. -/
theorem effect_error {o : Op} {rep : Reply} {e : Exc}
    (h : w.effect cfg t o rep = some (.error e, w')) : e.isException = true := by
  have hssh : ∀ {α : Type} {s : SessionId} {x : Option α},
      w.overSsh t s x = some (.error e, w') → e.isException = true := by
    intro α s x h
    unfold overSsh at h
    split at h
    · cases h
      rfl
    · obtain ⟨a, -, ha⟩ := Option.map_eq_some_iff.mp h
      cases ha
  cases o with
  | sql c st =>
    obtain ⟨⟨r₁, db'⟩, hexec, ha⟩ := Option.map_eq_some_iff.mp h
    cases ha
    exact exec_error hexec
  | cpuCores s =>
    cases rep <;> simp only [effect] at h <;> try cases h
    split at h
    · cases h
    · exact hssh h
  | sftpRealpath s => cases rep <;> first | exact hssh h | cases h
  | cloudInit s => cases rep <;> first | exact hssh h | cases h
  | sftpOpen s | sftpMakedirs s path | sftpWrite s path data | sftpGet s t f d
  | sftpRmtree s t path | sftpClose s | runBg s t cmd | setupNode s => exact hssh h
  | connectMachine node => cases rep <;> cases h
  | createNode provider => cases rep <;> cases h
  | lockAcquire =>
    simp only [effect] at h
    split at h <;> cases h
  | slotAcquire provider =>
    simp only [effect] at h
    split at h <;> cases h
  | queueGet q =>
    obtain ⟨a, -, ha⟩ := Option.map_eq_some_iff.mp h
    cases ha
  | _ => cases h

/-- **An operation never fails with a cancellation.** A cancellation is thrown in by
the pool, which is why the protocols see the two as different events. -/
theorem perform_error {o : Op} {ch : Choice} {e : Exc}
    (h : w.perform cfg t o ch = some (.error e, w')) : e.isException = true := by
  rcases perform_cases h with ⟨-, rep, r₀, heff, rfl | ⟨e', he', hexc⟩⟩ |
    ⟨-, -, e', he', hexc⟩
  · exact effect_error heff
  · cases he'
    exact hexc
  · cases he'
    exact hexc

/-! ## Connections

Connections are numbered in the order in which they are opened, and a number is
never given out again. This is all that is needed of them: a connection that
somebody opens now cannot be one that a claim was recorded for before. -/

/-- A statement opens no connection. -/
theorem exec_lastConn {c : Conn} {st : Stmt} {r : Except Exc st.Res} {db db' : Database}
    (h : db.exec c st = some (r, db')) : db'.lastConn = db.lastConn := by
  have hwrite : ∀ {n f} {r : Except Exc Bool}, db.writeNode c n f = some (r, db') →
      db'.lastConn = db.lastConn := by
    intro n f r h
    unfold Database.writeNode at h
    split at h
    · cases h
      rfl
    · split at h <;> cases h
      rfl
  cases st with
  | taskUpdate task expected =>
    rcases Database.exec_taskUpdate h with ⟨_, -, -, -, -, rfl⟩ | ⟨rfl, -⟩ <;> rfl
  | nodeRemove n =>
    simp only [Database.exec] at h
    split at h
    · cases h
      rfl
    · split at h
      · cases h
      · split at h <;> cases h <;> rfl
  | nodeUpdate node => exact hwrite h
  | nodeDisable n => exact hwrite h
  | _ => cases h; rfl

/-- Connections are numbered upwards. -/
theorem perform_lastConn {o : Op} {ch : Choice} {r : Except Exc o.Res}
    (h : w.perform cfg t o ch = some (r, w')) : w.db.lastConn ≤ w'.db.lastConn := by
  rcases perform_cases h with ⟨-, rep, r₀, heff, -⟩ | ⟨-, rfl, -⟩
  · cases ho : o.onTables with
    | false =>
      rcases effect_db heff ho with hdb | ⟨-, hdb⟩ <;> rw [hdb]
      exact Nat.le_succ _
    | true =>
      cases o with
      | sql c st =>
        obtain ⟨⟨r₁, db'⟩, hexec, ha⟩ := Option.map_eq_some_iff.mp heff
        cases ha
        exact (exec_lastConn hexec).ge
      | commit c => cases heff; exact le_rfl
      | rollback c => cases heff; exact le_rfl
      | close c => cases heff; exact le_rfl
      | _ => cases ho
  · exact le_rfl

/-- A new connection has a new number, so it is nobody's yet. -/
theorem perform_connect {ch : Choice} {c : Nat}
    (h : w.perform cfg t .connect ch = some (.ok c, w')) : w.db.lastConn < c := by
  rcases perform_cases h with ⟨-, rep, r₀, heff, hr | ⟨e, he, -⟩⟩ | ⟨-, -, e, he, -⟩
  · subst hr
    cases heff
    exact Nat.lt_succ_self _
  · cases he
  · cases he

/-! ## The environment -/

/-- The environment has no access to the database. The loss of a connection is added
to the system elsewhere. -/
theorem env_db {e : Env} (h : w.env e = some w') : w'.db = w.db := by
  cases e with
  | tick d => cases h; rfl
  | check p s engine pgrep code =>
    obtain ⟨y, -, rfl⟩ := Option.map_eq_some_iff.mp h
    rfl
  | react p s =>
    obtain ⟨y, -, rfl⟩ := Option.map_eq_some_iff.mp h
    rfl
  | lose c => cases h

end World

/-! ## Session objects

A session object is found in the memory of one process, and other processes
have no access to it. Within the process it is shared by all coroutines, and a
call changes it at once, without an await in between. So what is said of a
session is said call by call, and an await is only a place where the calls of
others may come.

The monitor of a session runs beside the coroutines, which is why its answers
and reactions are listed as changes of their own. -/

/-- The session a call changes. There is at most one, which is what makes the
invariants of sessions local. -/
def Call.session : Call → Option SessionId
  | .occupy s | .release s | .startOccupancyCheck s _ | .markClosed s | .closeConn s =>
    some s
  | _ => none

/-- What a call does to the session it changes. -/
def Call.onSession (now : Nat) : Call → Session → Session
  | .occupy _, y =>
    match y.occupy with
    | .ok y' => y'
    | .error _ => y
  | .release _, y => y.release now
  | .startOccupancyCheck _ engine, y => y.startOccupancyCheck engine
  | .markClosed _, y => y.markClosed.2
  | .closeConn _, y => y.closeConn.2
  | _, y => y

/-- Occupying a BUSY machine leaves it as it is, since it is refused. -/
theorem Call.onSession_occupy_busy {now : Nat} {s : SessionId} {y : Session}
    (h : y.machine.state = .busy) : (Call.occupy s).onSession now y = y := by
  show (match y.occupy with
    | .ok y' => y'
    | .error _ => y) = y
  rw [Session.occupy_busy h]

/-- The other objects stay as they are. -/
theorem Memory.modifySession_heap (m : Memory) (s s' : SessionId)
    (f : Session → Session) : (m.modifySession s f).heap s' =
      if s' = s then (m.heap s').map f else m.heap s' := by
  unfold Memory.modifySession
  by_cases h : s' = s
  · subst h
    rw [if_pos rfl]
    exact Function.update_self ..
  · rw [if_neg h]
    exact Function.update_of_ne h ..

/-- **What a call does to the session objects.** It changes the object that it names,
and no other. -/
theorem Memory.call_heap (m : Memory) (now : Nat) (c : Call) (s : SessionId) :
    (m.call now c).2.heap s =
      if c.session = some s then (m.heap s).map (c.onSession now) else m.heap s := by
  have hother : ∀ {s'} (f : Session → Session), (m.modifySession s' f).heap s =
      if some s' = some s then (m.heap s).map f else m.heap s := by
    intro s' f
    rw [Memory.modifySession_heap]
    by_cases h : s = s'
    · rw [if_pos h, if_pos (congrArg some h.symm)]
    · rw [if_neg h, if_neg fun he => h (Option.some.inj he).symm]
  cases c with
  | occupy s' =>
    show _ = if some s' = some s then (m.heap s).map (Call.onSession now (.occupy s'))
      else m.heap s
    simp only [Memory.call]
    by_cases h : s' = s
    · subst h
      rw [if_pos rfl]
      cases hy : m.heap s' with
      | none => exact hy
      | some y =>
        rw [Option.map_some]
        unfold Call.onSession
        cases ho : y.occupy with
        | ok y' =>
          show (m.modifySession s' fun _ => y').heap s' = _
          rw [hother, if_pos rfl, hy]
          simp [ho]
        | error e => simp [ho, hy]
    · rw [if_neg fun he => h (Option.some.inj he)]
      split
      · rw [hother, if_neg fun he => h (Option.some.inj he)]
      · rfl
      · rfl
  | release s' => exact hother _
  | startOccupancyCheck s' engine => exact hother _
  | markClosed s' => exact hother _
  | closeConn s' => exact hother _
  | trackerAdd t => simp only [Memory.call, Call.session]; split <;> rfl
  | trackerSetNode t n => simp only [Memory.call, Call.session]; split <;> rfl
  | failureSetdefault n => simp only [Memory.call, Call.session]; split <;> rfl
  | _ => rfl

/-- A FREE machine can be occupied. -/
theorem Memory.call_occupy_free {m : Memory} {now : Nat} {s : SessionId} {y : Session}
    (hy : m.heap s = some y) (hfree : y.machine.state = .free) :
    (m.call now (.occupy s)).1 = .ok () := by
  simp only [Memory.call, hy, Option.map_some, Session.occupy_free hfree]

namespace World

variable {cfg : Nat → Settings} {w w' : World} {t : Tid}

/-- The memory that was changed, -/
@[simp] theorem modifyProc_self (w : World) (p : Nat) (f : Memory → Memory) :
    (w.modifyProc p f).procs p = f (w.procs p) :=
  Function.update_self ..

/-- and that of another process, which was not. -/
@[simp] theorem modifyProc_ne (w : World) {p p' : Nat} (f : Memory → Memory)
    (h : p' ≠ p) : (w.modifyProc p f).procs p' = w.procs p' :=
  Function.update_of_ne h ..

end World

/-- The object of a machine that was just connected. -/
def Session.fresh (n : NodeId) (platforms : List String) (ncpus now : Nat) : Session where
  machine := { nodeId := n, platforms := platforms, state := .free, freeSince := some now }
  cachedNcpus := some ncpus

/-- The memory after a machine is connected. -/
def Memory.connect (m : Memory) (node : Node) (platforms : List String)
    (ncpus now : Nat) : Memory :=
  let s : SessionId := ⟨node.nodeId, m.nextSession⟩
  { m with
    heap := Function.update m.heap s (some (.fresh node.nodeId platforms ncpus now))
    nextSession := m.nextSession + 1
    registry := m.registry.set node.nodeId s }

/-- **What an operation can do to the memory of its process.** The sessions only
change when a machine is connected; the rest are locks, slots and queues. -/
inductive MemoryChange (now : Nat) (m : Memory) : Op → Memory → Prop where
  | same {o} (h : o ≠ .lockAcquire) : MemoryChange now m o m
  /-- a machine is connected -/
  | connected {node} (platforms : List String) (ncpus : Nat) :
      MemoryChange now m (.connectMachine node) (m.connect node platforms ncpus now)
  | locked (h : m.allocationLock = false) :
      MemoryChange now m .lockAcquire { m with allocationLock := true }
  | slotTaken {provider} :
      MemoryChange now m (.slotAcquire provider) (m.modifySlots provider (· + 1))
  | got {q} (msgs : UniqueQueue q.Payload) :
      MemoryChange now m (.queueGet q) (m.modifyQueue q fun _ => msgs)
  | put {q msg} :
      MemoryChange now m (.queuePut q msg) (m.modifyQueue q (·.put (q.msgId msg) msg))

namespace World

variable {cfg : Nat → Settings} {w w' : World} {t : Tid}

/-- **Every operation makes one of these changes** to the memory of its own
process, and none to the others. -/
theorem effect_memory {o : Op} {rep : Reply} {r : Except Exc o.Res}
    (h : w.effect cfg t o rep = some (r, w')) :
    MemoryChange w.now (w.procs t.proc) o (w'.procs t.proc) ∧
      ∀ p, p ≠ t.proc → w'.procs p = w.procs p := by
  have hsame : o ≠ .lockAcquire → w'.procs = w.procs →
      MemoryChange w.now (w.procs t.proc) o (w'.procs t.proc) ∧
        ∀ p, p ≠ t.proc → w'.procs p = w.procs p := by
    intro ho hw
    rw [hw]
    exact ⟨.same ho, fun _ _ => rfl⟩
  have hssh : ∀ {α : Type} {s : SessionId} {x : Option α} {r : Except Exc α},
      w.overSsh t s x = some (r, w') → w'.procs = w.procs := by
    intro α s x r h
    rw [overSsh_world h]
  have hmodify : ∀ {f : Memory → Memory}, MemoryChange w.now (w.procs t.proc) o
      (f (w.procs t.proc)) → w' = w.modifyProc t.proc f →
      MemoryChange w.now (w.procs t.proc) o (w'.procs t.proc) ∧
        ∀ p, p ≠ t.proc → w'.procs p = w.procs p := by
    rintro f hf rfl
    rw [modifyProc_self]
    exact ⟨hf, fun p hp => modifyProc_ne _ _ hp⟩
  cases o with
  | sql c st =>
    obtain ⟨a, -, ha⟩ := Option.map_eq_some_iff.mp h
    cases ha
    exact hsame (fun h => nomatch h) rfl
  | cpuCores s =>
    refine hsame (fun h => nomatch h) ?_
    cases rep <;> simp only [effect] at h <;> try cases h
    split at h
    · cases h; rfl
    · exact hssh h
  | sftpRealpath s =>
    refine hsame (fun h => nomatch h) ?_
    cases rep <;> first | exact hssh h | cases h
  | cloudInit s =>
    refine hsame (fun h => nomatch h) ?_
    cases rep <;> first | exact hssh h | cases h
  | sftpOpen s | sftpMakedirs s path | sftpWrite s path data | sftpGet s t f d
  | sftpRmtree s t path | sftpClose s | runBg s t cmd | setupNode s =>
    exact hsame (fun h => nomatch h) (hssh h)
  | connectMachine node =>
    cases rep with
    | machine platforms ncpus =>
      cases h
      exact hmodify (f := fun m => m.connect node platforms ncpus w.now)
        (.connected platforms ncpus) rfl
    | _ => cases h
  | createNode provider =>
    refine hsame (fun h => nomatch h) ?_
    cases rep <;> cases h
    rfl
  | lockAcquire =>
    simp only [effect] at h
    split at h
    · cases h
    · rename_i hfree
      cases h
      exact hmodify (.locked (Bool.eq_false_iff.mpr hfree)) rfl
  | slotAcquire provider =>
    simp only [effect] at h
    split at h <;> cases h
    exact hmodify .slotTaken rfl
  | queueGet q =>
    obtain ⟨a, -, ha⟩ := Option.map_eq_some_iff.mp h
    cases ha
    exact hmodify (.got a.2) rfl
  | queuePut q m =>
    cases h
    exact hmodify .put rfl
  | _ =>
    cases h
    exact hsame (fun h => nomatch h) rfl

/-- **The only operation that changes session objects** connects a machine. It makes
a new one; the one that was registered before is left as it is. -/
theorem effect_heap {o : Op} {rep : Reply} {r : Except Exc o.Res}
    (h : w.effect cfg t o rep = some (r, w')) (ho : ∀ node, o ≠ .connectMachine node)
    (p : Nat) : (w'.procs p).heap = (w.procs p).heap := by
  obtain ⟨hchange, hother⟩ := effect_memory h
  by_cases hp : p = t.proc
  · subst hp
    generalize w'.procs t.proc = m at hchange ⊢
    cases hchange with
    | connected => exact absurd rfl (ho _)
    | _ => rfl
  · rw [hother p hp]

end World

/-- **What an entry can do to a session object** of a process. A coroutine changes
those of its own process only, by calls and by connecting a machine; the rest is the
work of the monitors. -/
inductive SessionChange (w : World) (p : Nat) (s : SessionId) :
    Entry sig Tid World.Env → Option Session → Prop where
  | same {e} (h : ∀ x c r, e = .thread x (.call c r) → x.proc = p → c.session ≠ some s) :
      SessionChange w p s e ((w.procs p).heap s)
  /-- a coroutine of the process makes a call on the session -/
  | call {x c r} (hx : x.proc = p) (hs : c.session = some s) :
      SessionChange w p s (.thread x (.call c r))
        (((w.procs p).heap s).map (c.onSession w.now))
  /-- a machine is connected -/
  | connected {x node ch r} (platforms : List String) (ncpus : Nat) (hx : x.proc = p)
      (hs : s = ⟨node.nodeId, (w.procs p).nextSession⟩) :
      SessionChange w p s (.thread x (.performed (.connectMachine node) ch r))
        (some (.fresh node.nodeId platforms ncpus w.now))
  /-- the check of the monitor is answered -/
  | checked {engine pgrep code} (y y' : Session) (hy : (w.procs p).heap s = some y)
      (hy' : y.monitorAnswer engine (occupancyCheck engine pgrep code) = some y') :
      SessionChange w p s (.env (.check p s engine pgrep code)) (some y')
  /-- the monitor reacts -/
  | reacted (y y' : Session) (hy : (w.procs p).heap s = some y)
      (hy' : y.monitorReact w.now = some y') :
      SessionChange w p s (.env (.react p s)) (some y')

/-- One object of one process is replaced. -/
theorem setSession_heap (w : World) (p p' : Nat) (s s' : SessionId) (y y' : Session)
    (hy : (w.procs p).heap s = some y) :
    ((w.setSession p s y').procs p').heap s' =
      if p' = p ∧ s' = s then some y' else (w.procs p').heap s' := by
  unfold World.setSession
  by_cases hp : p' = p
  · subst hp
    rw [World.modifyProc_self, Memory.modifySession_heap]
    by_cases hs : s' = s
    · rw [if_pos hs, if_pos ⟨rfl, hs⟩, hs, hy]
      rfl
    · rw [if_neg hs, if_neg fun h => hs h.2]
  · rw [World.modifyProc_ne _ _ hp, if_neg fun h => hp h.1]

/-- **Every step makes one of these changes** to every session object. The
invariants of BUSY machines are proved from this and look at no program. -/
theorem sessionChange {cfg : Nat → Settings} {L : Type} {P : Protocol sig L}
    {w w' : World} {log : Log} {e : Entry sig Tid World.Env}
    (hap : Happens (system cfg) P w log e w') (p : Nat) (s : SessionId) :
    SessionChange w p s e ((w'.procs p).heap s) := by
  cases hap with
  | call x c hpre =>
    show SessionChange w p s (.thread x (.call c (w.call x c).1))
      (((w.modifyProc x.proc fun _ => ((w.procs x.proc).call w.now c).2).procs p).heap s)
    by_cases hp : p = x.proc
    · subst hp
      rw [World.modifyProc_self, Memory.call_heap]
      split
      · rename_i hs
        exact .call rfl hs
      · rename_i hs
        refine .same fun x' c' r' he _ => ?_
        cases he
        exact hs
    · rw [World.modifyProc_ne _ _ hp]
      refine .same fun x' c' r' he hx => ?_
      cases he
      exact absurd hx.symm hp
  | perform x o ch r w' hpre _ _ hperf =>
    rcases World.perform_cases hperf with ⟨hch, rep, r₀, heff, -⟩ | ⟨-, rfl, -⟩
    · by_cases hnode : ∃ node, o = .connectMachine node
      · obtain ⟨node, rfl⟩ := hnode
        cases rep with
        | machine platforms ncpus =>
          cases heff
          show SessionChange w p s _ (((w.register x node platforms ncpus).2.procs p).heap s)
          unfold World.register
          by_cases hp : p = x.proc
          · subst hp
            rw [World.modifyProc_self]
            dsimp only
            by_cases hs : s = ⟨node.nodeId, (w.procs x.proc).nextSession⟩
            · subst hs
              rw [Function.update_self]
              exact .connected platforms ncpus rfl rfl
            · rw [Function.update_of_ne hs]
              exact .same fun _ _ _ h => nomatch h
          · rw [World.modifyProc_ne _ _ hp]
            exact .same fun _ _ _ h => nomatch h
        | _ => cases heff
      · rw [World.effect_heap heff (fun node he => hnode ⟨node, he⟩) p]
        exact .same fun _ _ _ h => nomatch h
    · exact .same fun _ _ _ h => nomatch h
  | interrupt x o => exact .same fun _ _ _ h => nomatch h
  | reap x ch w' _ _ hreap =>
    cases ch with
    | collect c => cases hreap; exact .same fun _ _ _ h => nomatch h
    | _ => cases hreap
  | env e w' _ henv =>
    cases e with
    | tick d => cases henv; exact .same fun _ _ _ h => nomatch h
    | check p' s' engine pgrep code =>
      obtain ⟨y', hy', rfl⟩ := Option.map_eq_some_iff.mp henv
      obtain ⟨y, hy, hans⟩ := Option.bind_eq_some_iff.mp hy'
      rw [setSession_heap w p' p s' s y y' hy]
      split
      · rename_i h
        obtain ⟨rfl, rfl⟩ := h
        exact .checked y y' hy hans
      · exact .same fun _ _ _ h => nomatch h
    | react p' s' =>
      obtain ⟨y', hy', rfl⟩ := Option.map_eq_some_iff.mp henv
      obtain ⟨y, hy, hans⟩ := Option.bind_eq_some_iff.mp hy'
      rw [setSession_heap w p' p s' s y y' hy]
      split
      · rename_i h
        obtain ⟨rfl, rfl⟩ := h
        exact .reacted y y' hy hans
      · exact .same fun _ _ _ h => nomatch h
    | lose c => cases henv

end Yascheduler
