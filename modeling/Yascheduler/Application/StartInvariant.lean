import Yascheduler.Application.StartSteps

/-!
# Claims and row locks

What the protocol of a start says about a coroutine, and what the database
says about the transactions, fit together: an uncommitted RUNNING row always
belongs to a claim of the coroutine that holds its lock, and a start whose
claim is open does hold the lock of a task that is still TO_DO for everybody
else.

## Both directions

From the claim to the lock is what a start relies on: as long as it has not ended
its transaction, the row is its own, and everybody else sees a task that is
TO_DO and finds it locked. From the lock to the claim is what makes the first
direction inductive. Without it there might be an uncommitted RUNNING row that
belongs to nobody's claim, and when it was committed, an open claim would lose
its task.

Both are stated about the local states of the coroutines, and not about their
programs, so it does not matter here how a start is written.
-/

namespace Yascheduler

open Store Async StartState

/-- How far the start of a coroutine has come. -/
abbrev starts (log : Log) (x : Tid) : StartState := startProtocol.localState log x

/-- The state of a start after its own event, -/
theorem starts_self (log : Log) (x : Tid) (ev : Event sig) :
    starts (.thread x ev :: log) x = step ev (starts log x) :=
  startProtocol.localState_self log ev x

/-- and after that of another coroutine. -/
theorem starts_ne (log : Log) {x y : Tid} (ev : Event sig) (h : x ≠ y) :
    starts (.thread x ev :: log) y = starts log y :=
  startProtocol.localState_ne log ev h

/-- The committed row of the task is TO_DO. -/
def Database.ToDo (db : Database) (t : TaskId) : Prop :=
  ∃ row, db.tasks.rows t = some row ∧ row.status = .toDo

/-- **Claims and row locks fit together.** The fields are the two directions, and
what is needed to keep them. -/
structure ClaimsHold (w : World) (log : Log) : Prop where
  /-- the connection of a claim has been opened -/
  known : ∀ x c t n, (starts log x).claims c = some (t, n) → c ≤ w.db.lastConn
  /-- an uncommitted row is not TO_DO -/
  written : ∀ t o row, w.db.tasks.locks t = some (o, some row) → row.status ≠ .toDo
  /-- an uncommitted RUNNING row belongs to a claim -/
  pending : ∀ t x c row, w.db.tasks.locks t = some (⟨x, c⟩, some row) →
    row.status = .running →
    ∃ n, (starts log x).claims c = some (t, n) ∧ row.allocatedNodeId = some n
  /-- an open claim is one of the claims -/
  open' : ∀ x c t n, (starts log x).phase.claim = some (c, t, n) →
    (starts log x).claims c = some (t, n)
  /-- an open claim holds the lock of its row, which is TO_DO otherwise -/
  held : ∀ x c t n, (starts log x).phase.claim = some (c, t, n) →
    (∃ row, w.db.tasks.locks t = some (⟨x, c⟩, some row) ∧ row.RunsOn n) ∧
      ∃ row, w.db.tasks.rows t = some row ∧ row.status = .toDo

/-! ## Preservation

The lemmas follow the events of the pool. A call does not reach the database
and a cancellation ends no transaction, so both are short. An operation is
taken apart twice, by what it does to the task table and by what the protocol
makes of it. The two must agree: a save that found its row and one that found
none are different events for both.

The end of a transaction is the case to watch. Its lock and its uncommitted row
are gone at once, and the local state must forget the claim in the same step.
-/

/-- **Committed rows change by commits only.** A statement changes what its own
transaction sees, and nothing else. -/
theorem rows_step {cfg : Nat → Settings} {L : Type} {P : Protocol sig L} {w w' : World}
    {log : Log} {e : Entry sig Tid World.Env}
    (hap : Happens (system cfg) P w log e w') :
    w'.db.tasks.rows = w.db.tasks.rows ∨
      ∃ x c ch r, e = .thread x (.performed (.commit c) ch r) ∧ ch.effective = true ∧
        P.awaitPre (.commit c) (P.localState log x) ∧
        w'.db.tasks = w.db.tasks.commit ⟨x, c⟩ := by
  cases hap with
  | call x c hpre => exact .inl rfl
  | perform x o ch r w' hpre _ _ hperf =>
    generalize htasks : w'.db.tasks = tasks
    have hchange := World.perform_taskChange hperf
    rw [htasks] at hchange
    cases hchange with
    | committed hch => exact .inr ⟨x, _, ch, _, rfl, hch, hpre, rfl⟩
    | _ => exact .inl rfl
  | interrupt x o => exact .inl rfl
  | reap x ch w' _ _ hreap =>
    cases ch with
    | collect c => cases hreap; exact .inl rfl
    | _ => cases hreap
  | env e w' _ henv =>
    rw [World.env_db henv]
    exact .inl rfl

namespace ClaimsHold

variable {cfg : Nat → Settings} {w w' : World} {log : Log} {x : Tid}

/-- Nothing changed that the claims are about. -/
theorem frame (h : ClaimsHold w log) {log' : Log} (htasks : w'.db.tasks = w.db.tasks)
    (hconn : w.db.lastConn ≤ w'.db.lastConn)
    (hst : ∀ y, (starts log' y).claims = (starts log y).claims ∧
      (starts log' y).phase.claim = (starts log y).phase.claim) :
    ClaimsHold w' log' where
  known y c t n hc := (h.known y c t n ((hst y).1 ▸ hc)).trans hconn
  written t o row hl := h.written t o row (htasks ▸ hl)
  pending t y c row hl hrow := by
    rw [(hst y).1]
    exact h.pending t y c row (htasks ▸ hl) hrow
  open' y c t n hcl := by
    rw [(hst y).1]
    exact h.open' y c t n ((hst y).2 ▸ hcl)
  held y c t n hcl := by
    rw [htasks]
    exact h.held y c t n ((hst y).2 ▸ hcl)

/-- An event of one coroutine that leaves its claims alone. -/
theorem starts_frame {ev : Event sig}
    (hst : (step ev (starts log x)).claims = (starts log x).claims ∧
      (step ev (starts log x)).phase.claim = (starts log x).phase.claim) (y : Tid) :
    (starts (.thread x ev :: log) y).claims = (starts log y).claims ∧
      (starts (.thread x ev :: log) y).phase.claim = (starts log y).phase.claim := by
  by_cases hxy : x = y
  · subst hxy
    rw [starts_self]
    exact hst
  · rw [starts_ne _ _ hxy]
    exact ⟨rfl, rfl⟩

/-- In the beginning nobody has claimed anything. -/
theorem start (w : World) (hlocks : ∀ t, w.db.tasks.locks t = none) :
    ClaimsHold w [] where
  known _ _ _ _ h := nomatch h
  written t o row h := by rw [hlocks t] at h; cases h
  pending t x c row h := by rw [hlocks t] at h; cases h
  open' _ _ _ _ h := nomatch h
  held _ _ _ _ h := nomatch h

/-- A call keeps the claims, because it does not reach the database. -/
theorem call (h : ClaimsHold w log) {c : Call} (hpre : (starts log x).callPre c) :
    ClaimsHold (w.call x c).2 (.thread x (.call c (w.call x c).1) :: log) :=
  h.frame rfl le_rfl (starts_frame (call_claim hpre))

/-- So does a cancellation: the lock is held until the transaction ends. -/
theorem interrupt (h : ClaimsHold w log) (o : Op) :
    ClaimsHold w (.thread x (.interrupted o) :: log) :=
  h.frame rfl le_rfl (starts_frame interrupted_claim)

/-- The rules for the operations. -/
theorem env (h : ClaimsHold w log) {e : World.Env} (he : w.env e = some w') :
    ClaimsHold w' (.env e :: log) := by
  have hdb := World.env_db he
  exact h.frame (by rw [hdb]) (by rw [hdb]) fun y => ⟨rfl, rfl⟩

/-- The locks of a connection are dropped, which has no open claim any more. -/
theorem unlocked (h : ClaimsHold w log) {log' : Log} {o : Conn}
    (htasks : w'.db.tasks = w.db.tasks.rollback o)
    (hconn : w.db.lastConn ≤ w'.db.lastConn)
    (hclaims : ∀ y, (starts log' y).claims = (starts log y).claims)
    (hopen : ∀ y c t n, (starts log' y).phase.claim = some (c, t, n) →
      (starts log y).phase.claim = some (c, t, n) ∧ (⟨y, c⟩ : Conn) ≠ o) :
    ClaimsHold w' log' := by
  refine ⟨fun y c' t n hc => ?_, fun t o row hl => ?_, fun t y c' row hl hrow => ?_,
    fun y c' t n hcl => ?_, fun y c' t n hcl => ?_⟩
  · rw [hclaims] at hc
    exact (h.known y c' t n hc).trans hconn
  · rw [htasks, RowStore.rollback_locks_eq_some] at hl
    exact h.written t o row hl.1
  · rw [htasks, RowStore.rollback_locks_eq_some] at hl
    rw [hclaims]
    exact h.pending t y c' row hl.1 hrow
  · rw [hclaims]
    exact h.open' y c' t n (hopen y c' t n hcl).1
  · obtain ⟨hcl', hne⟩ := hopen y c' t n hcl
    obtain ⟨⟨row, hl, hrow⟩, hrows⟩ := h.held y c' t n hcl'
    rw [htasks]
    exact ⟨⟨row, RowStore.rollback_locks_eq_some _ |>.mpr ⟨hl, hne⟩, hrow⟩, hrows⟩

/-- The end of a transaction that keeps nothing. -/
theorem ended (h : ClaimsHold w log) {c : Nat} {ev : Event sig}
    (htasks : w'.db.tasks = w.db.tasks.rollback ⟨x, c⟩)
    (hconn : w.db.lastConn ≤ w'.db.lastConn)
    (hev : step ev (starts log x) = (starts log x).ended c) :
    ClaimsHold w' (.thread x ev :: log) := by
  refine h.unlocked htasks hconn (fun y => ?_) fun y c' t n hcl => ?_
  · by_cases hxy : x = y
    · subst hxy
      rw [starts_self]
      rw [hev, ended_claims]
    · rw [starts_ne _ _ hxy]
  · by_cases hxy : x = y
    · subst hxy
      rw [starts_self] at hcl
      obtain ⟨hcl', hne⟩ := ended_claim (hev ▸ hcl)
      exact ⟨hcl', fun he => hne (Conn.mk.inj he).2⟩
    · rw [starts_ne _ _ hxy] at hcl
      exact ⟨hcl, fun he => hxy (Conn.mk.inj he).1.symm⟩

/-- When the connection of a coroutine that has ended is reclaimed, its claim goes
with its lock. -/
theorem reap (h : ClaimsHold w log) {ch : Choice} (hre : w.reap x ch = some w') :
    ClaimsHold w' (.thread x (.reaped ch) :: log) := by
  cases ch with
  | collect c =>
    cases hre
    exact h.ended rfl le_rfl rfl
  | _ => cases hre

/-- A claim that was recorded, whether or not it succeeded. -/
theorem recorded {ev : Event sig} {c : Nat} {t : TaskId}
    {n : NodeId} {b : Bool} (hc : (starts log x).claims c = none)
    (hev : step ev (starts log x) = (starts log x).claim c t n b) {y : Tid} {c' : Nat}
    {t' : TaskId} {n' : NodeId} (hold : (starts log y).claims c' = some (t', n')) :
    (starts (.thread x ev :: log) y).claims c' = some (t', n') := by
  by_cases hxy : x = y
  · subst hxy
    rw [starts_self, hev, claim_ne]
    · exact hold
    · rintro rfl
      rw [hc] at hold
      cases hold
  · rw [starts_ne _ _ hxy]
    exact hold

/-- A claim is recorded for a connection that was opened. -/
theorem known_recorded (h : ClaimsHold w log) {ev : Event sig} {c : Nat} {t : TaskId}
    {n : NodeId} {b : Bool} (hle : c ≤ w.db.lastConn)
    (hev : step ev (starts log x) = (starts log x).claim c t n b) (y : Tid) (c' : Nat)
    (t' : TaskId) (n' : NodeId)
    (hnew : (starts (.thread x ev :: log) y).claims c' = some (t', n')) :
    c' ≤ w.db.lastConn := by
  by_cases hxy : x = y
  · subst hxy
    by_cases hcc : c' = c
    · rw [hcc]
      exact hle
    · rw [starts_self, hev, claim_ne _ _ _ _ hcc] at hnew
      exact h.known _ _ _ _ hnew
  · rw [starts_ne _ _ hxy] at hnew
    exact h.known _ _ _ _ hnew

/-- A claim that changed nothing in the database. -/
theorem attempted (h : ClaimsHold w log) {ev : Event sig} {c : Nat} {t : TaskId}
    {n : NodeId} (hc : (starts log x).claims c = none) (hle : c ≤ w.db.lastConn)
    (hev : step ev (starts log x) = (starts log x).claim c t n false)
    (htasks : w'.db.tasks = w.db.tasks) (hconn : w.db.lastConn ≤ w'.db.lastConn) :
    ClaimsHold w' (.thread x ev :: log) := by
  have hopen : ∀ y c' t' n', (starts (.thread x ev :: log) y).phase.claim =
      some (c', t', n') → (starts log y).phase.claim = some (c', t', n') := by
    intro y c' t' n' hcl
    by_cases hxy : x = y
    · subst hxy
      rw [starts_self, hev] at hcl
      exact unclaimed_claim hcl
    · rw [starts_ne _ _ hxy] at hcl
      exact hcl
  refine ⟨fun y c' t' n' hnew => ?_, fun t' o row hl => ?_, fun t' y c' row hl hrow => ?_,
    fun y c' t' n' hcl => ?_, fun y c' t' n' hcl => ?_⟩
  · exact (h.known_recorded hle hev y c' t' n' hnew).trans hconn
  · exact h.written t' o row (htasks ▸ hl)
  · obtain ⟨n', hold, hn'⟩ := h.pending t' y c' row (htasks ▸ hl) hrow
    exact ⟨n', recorded hc hev hold, hn'⟩
  · exact recorded hc hev (h.open' y c' t' n' (hopen y c' t' n' hcl))
  · rw [htasks]
    exact h.held y c' t' n' (hopen y c' t' n' hcl)

/-- Whoever saves a row has not got it from another claim. -/
theorem held_ne (h : ClaimsHold w log) {c : Nat} {t : TaskId}
    (hc : (starts log x).claims c = none)
    (hlock : w.db.tasks.lockedByOther ⟨x, c⟩ t = false) {y : Tid} {c' : Nat}
    {t' : TaskId} {n : NodeId} (hcl : (starts log y).phase.claim = some (c', t', n)) :
    t' ≠ t := by
  rintro rfl
  obtain ⟨⟨row, hl, -⟩, -⟩ := h.held y c' t' n hcl
  have hown := RowStore.not_locked_of_not_lockedByOther _ hlock hl
  cases hown
  rw [h.open' _ _ _ _ hcl] at hc
  cases hc

/-- A claimed row in the task table. -/
theorem read_toDo (h : ClaimsHold w log) {o : Conn} {t : TaskId} {row : TaskRow}
    (hread : w.db.tasks.read o t = some row) (hrow : row.status = .toDo) :
    w.db.tasks.rows t = some row := by
  by_contra hne
  have hlock := RowStore.locked_of_read_ne _ fun he => hne (he ▸ hread)
  rw [hread] at hlock
  exact h.written t o row hlock hrow

/-- A claim that found its row. -/
theorem claimed (h : ClaimsHold w log) {ev : Event sig} {c : Nat} {task : AnyTask}
    {st : Running} {row : TaskRow} {b : Bool} (hst : task.state = .running st)
    (hc : (starts log x).claims c = none) (hle : c ≤ w.db.lastConn)
    (hev : step ev (starts log x) =
      (starts log x).claim c task.taskId st.allocatedNodeId b)
    (hread : w.db.tasks.read ⟨x, c⟩ task.taskId = some row) (hrow : row.status = .toDo)
    (hlock : w.db.tasks.lockedByOther ⟨x, c⟩ task.taskId = false)
    (htasks : w'.db.tasks = w.db.tasks.write ⟨x, c⟩ task.taskId
      (some (.ofTask task row.createdAt)))
    (hconn : w.db.lastConn ≤ w'.db.lastConn) :
    ClaimsHold w' (.thread x ev :: log) := by
  have hself : (starts (.thread x ev :: log) x).claims c =
      some (task.taskId, st.allocatedNodeId) := by
    rw [starts_self, hev, claim_self]
  have hstatus : (TaskRow.ofTask task row.createdAt).RunsOn st.allocatedNodeId := by
    simp only [TaskRow.RunsOn, TaskRow.ofTask_status, TaskRow.ofTask_allocatedNodeId, hst,
      TaskState.status, TaskState.allocatedNodeId, and_self]
  -- an open claim is the one just made, or one that was there before
  have hopen : ∀ y c' t n, (starts (.thread x ev :: log) y).phase.claim = some (c', t, n) →
      (y = x ∧ c' = c ∧ t = task.taskId ∧ n = st.allocatedNodeId) ∨
      (starts log y).phase.claim = some (c', t, n) := by
    intro y c' t n hcl
    by_cases hxy : x = y
    · subst hxy
      rw [starts_self, hev] at hcl
      cases b with
      | true => cases hcl; exact .inl ⟨rfl, rfl, rfl, rfl⟩
      | false => exact .inr (unclaimed_claim hcl)
    · rw [starts_ne _ _ hxy] at hcl
      exact .inr hcl
  refine ⟨fun y c' t' n' hnew => ?_, fun t' o row' hl => ?_,
    fun t' y c' row' hl hrow' => ?_, fun y c' t' n' hcl => ?_, fun y c' t' n' hcl => ?_⟩
  · exact (h.known_recorded hle hev y c' t' n' hnew).trans hconn
  · rw [htasks] at hl
    by_cases ht : t' = task.taskId
    · subst ht
      rw [RowStore.write_locks_self] at hl
      cases hl
      rw [hstatus.1]
      rintro ⟨⟩
    · rw [RowStore.write_locks_ne _ ht] at hl
      exact h.written t' o row' hl
  · rw [htasks] at hl
    by_cases ht : t' = task.taskId
    · subst ht
      rw [RowStore.write_locks_self] at hl
      cases hl
      exact ⟨_, hself, hstatus.2⟩
    · rw [RowStore.write_locks_ne _ ht] at hl
      obtain ⟨n', hold, hn'⟩ := h.pending t' y c' row' hl hrow'
      exact ⟨n', recorded hc hev hold, hn'⟩
  · rcases hopen y c' t' n' hcl with ⟨rfl, rfl, rfl, rfl⟩ | hcl'
    · exact hself
    · exact recorded hc hev (h.open' y c' t' n' hcl')
  · rw [htasks]
    rcases hopen y c' t' n' hcl with ⟨rfl, rfl, rfl, rfl⟩ | hcl'
    · exact ⟨⟨_, RowStore.write_locks_self _, hstatus⟩, row, h.read_toDo hread hrow, hrow⟩
    · rw [RowStore.write_locks_ne _ (h.held_ne hc hlock hcl')]
      exact h.held y c' t' n' hcl'

/-- A save that is no claim. -/
theorem finished (h : ClaimsHold w log) {ev : Event sig} {c : Nat} {task : AnyTask}
    {st : Done} {row : TaskRow} (hst : task.state = .done st)
    (hc : (starts log x).claims c = none) (hev : step ev (starts log x) = starts log x)
    (hlock : w.db.tasks.lockedByOther ⟨x, c⟩ task.taskId = false)
    (htasks : w'.db.tasks = w.db.tasks.write ⟨x, c⟩ task.taskId
      (some (.ofTask task row.createdAt)))
    (hconn : w.db.lastConn ≤ w'.db.lastConn) :
    ClaimsHold w' (.thread x ev :: log) := by
  have hsame : ∀ y, starts (.thread x ev :: log) y = starts log y := by
    intro y
    by_cases hxy : x = y
    · subst hxy
      rw [starts_self, hev]
    · rw [starts_ne _ _ hxy]
  have hstatus : (TaskRow.ofTask task row.createdAt).status = .done := by
    rw [TaskRow.ofTask_status, hst]
    rfl
  refine ⟨fun y c' t' n' hnew => ?_, fun t' o row' hl => ?_,
    fun t' y c' row' hl hrow' => ?_, fun y c' t' n' hcl => ?_, fun y c' t' n' hcl => ?_⟩
  · rw [hsame] at hnew
    exact (h.known _ _ _ _ hnew).trans hconn
  · rw [htasks] at hl
    by_cases ht : t' = task.taskId
    · subst ht
      rw [RowStore.write_locks_self] at hl
      cases hl
      rw [hstatus]
      exact fun h => nomatch h
    · rw [RowStore.write_locks_ne _ ht] at hl
      exact h.written t' o row' hl
  · rw [htasks] at hl
    rw [hsame]
    by_cases ht : t' = task.taskId
    · subst ht
      rw [RowStore.write_locks_self] at hl
      cases hl
      rw [hstatus] at hrow'
      cases hrow'
    · rw [RowStore.write_locks_ne _ ht] at hl
      exact h.pending t' y c' row' hl hrow'
  · rw [hsame] at hcl ⊢
    exact h.open' y c' t' n' hcl
  · rw [hsame] at hcl
    rw [htasks, RowStore.write_locks_ne _ (h.held_ne hc hlock hcl)]
    exact h.held y c' t' n' hcl

/-- Clearing the references to a node touches no running row, and no row that
is claimed. -/
theorem cleared (h : ClaimsHold w log) {ev : Event sig} {c : Conn} {n : NodeId}
    (hev : step ev (starts log x) = starts log x)
    (htasks : w'.db.tasks = w.db.tasks.writeAll c (w.db.clearReferences c n))
    (hconn : w.db.lastConn ≤ w'.db.lastConn) :
    ClaimsHold w' (.thread x ev :: log) := by
  have hsame : ∀ y, starts (.thread x ev :: log) y = starts log y := by
    intro y
    by_cases hxy : x = y
    · subst hxy
      rw [starts_self, hev]
    · rw [starts_ne _ _ hxy]
  -- a cleared row was finished before and is finished after
  have hnew : ∀ t v, w.db.clearReferences c n t = some v →
      ∃ row, v = some row ∧ row.status = .done := by
    intro t v hv
    obtain ⟨row, hr, -, hn, rfl⟩ := Database.clearReferences_eq_some _ _ hv
    refine ⟨_, rfl, ?_⟩
    cases hs : row.status with
    | toDo => rw [row.isNone_of_toDo hs] at hn; cases hn
    | running => exact absurd hs hr
    | done => exact hs
  refine ⟨fun y c' t' n' hnew => ?_, fun t' o row' hl => ?_,
    fun t' y c' row' hl hrow' => ?_, fun y c' t' n' hcl => ?_, fun y c' t' n' hcl => ?_⟩
  · rw [hsame] at hnew
    exact (h.known _ _ _ _ hnew).trans hconn
  · rw [htasks] at hl
    rcases RowStore.writeAll_locks_eq_some _ hl with ⟨hf, -⟩ | ⟨-, hl⟩
    · obtain ⟨row, hv, hs⟩ := hnew _ _ hf
      cases hv
      rw [hs]
      exact fun h => nomatch h
    · exact h.written t' o row' hl
  · rw [htasks] at hl
    rw [hsame]
    rcases RowStore.writeAll_locks_eq_some _ hl with ⟨hf, -⟩ | ⟨-, hl⟩
    · obtain ⟨row, hv, hs⟩ := hnew _ _ hf
      cases hv
      rw [hs] at hrow'
      cases hrow'
    · exact h.pending t' y c' row' hl hrow'
  · rw [hsame] at hcl ⊢
    exact h.open' y c' t' n' hcl
  · rw [hsame] at hcl
    obtain ⟨⟨row', hl, hrun⟩, row, hrow, htodo⟩ := h.held y c' t' n' hcl
    -- its reader sees a running row, everybody else one without a node
    have hnone : w.db.clearReferences c n t' = none := by
      cases hv : w.db.clearReferences c n t' with
      | none => rfl
      | some v =>
        obtain ⟨row₀, hr, hread, hn, -⟩ := Database.clearReferences_eq_some _ _ hv
        by_cases ho : (⟨y, c'⟩ : Conn) = c
        · rw [ho] at hl
          rw [RowStore.read_of_locked _ hl] at hread
          cases hread
          exact absurd hrun.1 hr
        · rw [RowStore.read_of_other _ hl ho, hrow] at hread
          cases hread
          rw [row.isNone_of_toDo htodo] at hn
          cases hn
    rw [htasks]
    refine ⟨⟨row', ?_, hrun⟩, row, hrow, htodo⟩
    rw [RowStore.writeAll_locks_of_none _ hnone]
    exact hl

/-- A commit. -/
theorem committed (h : ClaimsHold w log) {ev : Event sig} {c : Nat} {failed : Bool}
    (hpre : (starts log x).Owns c → ∃ t s, (starts log x).phase = .spawned c t s)
    (hev : step ev (starts log x) = (starts log x).committed c true failed)
    (htasks : w'.db.tasks = w.db.tasks.commit ⟨x, c⟩)
    (hconn : w.db.lastConn ≤ w'.db.lastConn) :
    ClaimsHold w' (.thread x ev :: log) := by
  have hclaims : ∀ y, (starts (.thread x ev :: log) y).claims = (starts log y).claims := by
    intro y
    by_cases hxy : x = y
    · subst hxy
      rw [starts_self, hev, committed_claims]
    · rw [starts_ne _ _ hxy]
  have hopen : ∀ y c' t n, (starts (.thread x ev :: log) y).phase.claim = some (c', t, n) →
      (starts log y).phase.claim = some (c', t, n) ∧ (⟨y, c'⟩ : Conn) ≠ ⟨x, c⟩ := by
    intro y c' t n hcl
    by_cases hxy : x = y
    · subst hxy
      rw [starts_self, hev] at hcl
      by_cases hown : (starts log x).Owns c
      · obtain ⟨t', s', hph⟩ := hpre hown
        unfold StartState.committed at hcl
        rw [hph] at hcl
        dsimp only at hcl
        rw [if_pos rfl] at hcl
        cases hcl
      · rw [committed_eq hown] at hcl
        refine ⟨hcl, fun he => hown ?_⟩
        cases he
        exact owns_of_claim hcl
    · rw [starts_ne _ _ hxy] at hcl
      exact ⟨hcl, fun he => hxy (Conn.mk.inj he).1.symm⟩
  refine ⟨fun y c' t n hc => ?_, fun t o row hl => ?_, fun t y c' row hl hrow => ?_,
    fun y c' t n hcl => ?_, fun y c' t n hcl => ?_⟩
  · rw [hclaims] at hc
    exact (h.known y c' t n hc).trans hconn
  · rw [htasks, RowStore.commit_locks_eq_some] at hl
    exact h.written t o row hl.1
  · rw [htasks, RowStore.commit_locks_eq_some] at hl
    rw [hclaims]
    exact h.pending t y c' row hl.1 hrow
  · rw [hclaims]
    exact h.open' y c' t n (hopen y c' t n hcl).1
  · obtain ⟨hcl', hne⟩ := hopen y c' t n hcl
    obtain ⟨⟨row, hl, hrow⟩, hrows⟩ := h.held y c' t n hcl'
    rw [htasks, RowStore.commit_rows, RowStore.read_of_other _ hl hne]
    exact ⟨⟨row, RowStore.commit_locks_eq_some _ |>.mpr ⟨hl, hne⟩, hrow⟩, hrows⟩

/-- A save that changed nothing in the database. -/
theorem unsaved (h : ClaimsHold w log) {c : Nat} {task : AnyTask}
    {expected : Option TaskStatus} {ch : Choice} {r : Except Exc Bool}
    (hpre : (starts log x).MaySave c task expected) (hle : c ≤ w.db.lastConn)
    (hr : found r = false) (htasks : w'.db.tasks = w.db.tasks)
    (hconn : w.db.lastConn ≤ w'.db.lastConn) :
    ClaimsHold w'
      (.thread x (.performed (.sql c (.taskUpdate task expected)) ch r) :: log) := by
  by_cases heff : saveEffect task expected = .claim
  · obtain ⟨st, -, -, hev⟩ := step_claim heff ch r
    rw [hr] at hev
    exact h.attempted hpre.1 hle hev htasks hconn
  · have hev := step_save (c := c) (l := starts log x) heff ch r
    exact h.frame htasks hconn (starts_frame (by rw [hev]; exact ⟨rfl, rfl⟩))

/-- A save that wrote its row. -/
theorem saved (h : ClaimsHold w log) {c : Nat} {task : AnyTask}
    {expected : Option TaskStatus} {ch : Choice} {r : Except Exc Bool} {row : TaskRow}
    (hpre : (starts log x).MaySave c task expected) (hle : c ≤ w.db.lastConn)
    (hread : w.db.tasks.read ⟨x, c⟩ task.taskId = some row)
    (hexp : expected.all (· = row.status) = true)
    (hlock : w.db.tasks.lockedByOther ⟨x, c⟩ task.taskId = false)
    (htasks : w'.db.tasks = w.db.tasks.write ⟨x, c⟩ task.taskId
      (some (.ofTask task row.createdAt)))
    (hconn : w.db.lastConn ≤ w'.db.lastConn) :
    ClaimsHold w'
      (.thread x (.performed (.sql c (.taskUpdate task expected)) ch r) :: log) := by
  by_cases heff : saveEffect task expected = .claim
  · obtain ⟨st, hst, rfl, hev⟩ := step_claim heff ch r
    have hrow : row.status = .toDo := (by simpa using hexp : TaskStatus.toDo = row.status).symm
    exact h.claimed hst hpre.1 hle hev hread hrow hlock htasks hconn
  · have hraw : saveEffect task expected ≠ .rawSave := by
      intro he
      have hmay := hpre.2
      rw [he] at hmay
      exact hmay
    obtain ⟨st, hst⟩ := saveEffect_done heff hraw
    exact h.finished hst hpre.1 (step_save heff ch r) hlock htasks hconn

/-- **Every operation keeps claims and row locks together**, and what comes
back is what the protocol says. -/
theorem perform (h : ClaimsHold w log) {o : Op} {ch : Choice} {r : Except Exc o.Res}
    (hpre : (starts log x).awaitPre o) (hperf : w.perform cfg x o ch = some (r, w')) :
    (starts log x).opRes o ch r ∧
      ClaimsHold w' (.thread x (.performed o ch r) :: log) := by
  have hconn := World.perform_lastConn hperf
  have herr : ∀ e, r = .error e → e.isException = true := by
    rintro e rfl
    exact World.perform_error hperf
  refine ⟨?_, ?_⟩
  · cases o with
    | connect =>
      refine ⟨herr, ?_⟩
      rintro c rfl
      -- a connection that is owned has been opened, so it is not the new one
      have hlt := World.perform_connect hperf
      rintro (hne | ⟨t, n, hcl⟩)
      · obtain ⟨⟨t, n⟩, htn⟩ := Option.ne_none_iff_exists'.mp hne
        exact absurd (h.known x c t n htn) (Nat.not_le.mpr hlt)
      · exact absurd (h.known x c t n (h.open' x c t n hcl)) (Nat.not_le.mpr hlt)
    | commit c =>
      refine ⟨herr, fun hch => ?_⟩
      rcases World.perform_cases hperf with ⟨heff, -⟩ | ⟨-, -, e, rfl, -⟩
      · rw [hch] at heff
        cases heff
      · rfl
    | _ => exact herr
  · have hle : ∀ c, o.conn = some c → c ≤ w.db.lastConn :=
      fun c hc => World.perform_conn hperf hc
    generalize htasks : w'.db.tasks = tasks
    have hchange := World.perform_taskChange hperf
    rw [htasks] at hchange
    cases hchange with
    | other ho => exact h.frame htasks hconn (starts_frame (performed_claim ho))
    | failed hch hr =>
      obtain ⟨e, rfl⟩ := hr
      cases ho : o.writesTasks with
      | false => exact h.frame htasks hconn (starts_frame (performed_claim ho))
      | true =>
        cases o with
        | sql c st =>
          cases st with
          | taskUpdate task expected =>
            exact h.unsaved hpre (hle c rfl) rfl htasks hconn
          | nodeRemove n => exact h.frame htasks hconn (starts_frame ⟨rfl, rfl⟩)
          | _ => cases ho
        | commit c =>
          refine h.frame htasks hconn (starts_frame ?_)
          rw [step_commit, hch]
          exact uncommitted_claim c true
        | rollback c =>
          refine h.frame htasks hconn (starts_frame ?_)
          rw [step_rollback, hch]
          exact ⟨rfl, rfl⟩
        | close c =>
          refine h.frame htasks hconn (starts_frame ?_)
          rw [step_close, hch]
          exact ⟨rfl, rfl⟩
        | _ => cases ho
    | unsaved hr => exact h.unsaved hpre (hle _ rfl) (found_of_ne hr) htasks hconn
    | saved row hch hread hexp hlock =>
      exact h.saved hpre (hle _ rfl) hread hexp hlock htasks hconn
    | unremoved => exact h.frame htasks hconn (starts_frame ⟨rfl, rfl⟩)
    | removed => exact h.cleared rfl htasks hconn
    | committed hch => exact h.committed hpre (by rw [← hch]; rfl) htasks hconn
    | rolledBack hch =>
      exact h.ended htasks hconn (if_pos hch)
    | closed hch => exact h.ended htasks hconn (if_pos hch)

/-- **Whatever can happen keeps claims and row locks together.** By cases on what
happens; the lemmas above have one for each. -/
theorem step (h : ClaimsHold w log) {e : Entry sig Tid World.Env}
    (hap : Happens (system cfg) startProtocol w log e w') :
    startProtocol.Answers log e ∧ ClaimsHold w' (e :: log) := by
  cases hap with
  | call x c hpre => exact ⟨trivial, h.call hpre⟩
  | perform x o ch r w' hpre _ _ hperf => exact h.perform hpre hperf
  | interrupt x o => exact ⟨trivial, h.interrupt o⟩
  | reap x ch w' _ _ hreap => exact ⟨trivial, h.reap hreap⟩
  | env e w' _ henv => exact ⟨trivial, h.env henv⟩

/-- **A commit makes at most one task RUNNING**, the one whose process was
spawned under it. -/
theorem running_of_commit (h : ClaimsHold w log) {c : Nat}
    (hpre : (starts log x).Owns c → ∃ t s, (starts log x).phase = .spawned c t s)
    {t : TaskId} {n : NodeId} {row : TaskRow}
    (hrow : (w.db.tasks.commit ⟨x, c⟩).rows t = some row) (hrun : row.RunsOn n) :
    w.db.tasks.rows t = some row ∨
      ∃ s, (starts log x).phase = .spawned c t s ∧ s.node = n := by
  by_cases hold : w.db.tasks.rows t = some row
  · exact .inl hold
  · rw [RowStore.commit_rows] at hrow
    have hlock := RowStore.locked_of_read_ne _ fun he => hold (he ▸ hrow)
    rw [hrow] at hlock
    obtain ⟨n', hclaim, hn'⟩ := h.pending t x c row hlock hrun.1
    obtain ⟨t₀, s, hph⟩ := hpre (.inl (by rw [hclaim]; exact Option.some_ne_none _))
    have hopen := h.open' x c t₀ s.node (by rw [hph]; rfl)
    rw [hclaim] at hopen
    cases hopen
    refine .inr ⟨s, hph, ?_⟩
    rw [hrun.2] at hn'
    exact (Option.some.inj hn').symm

/-- An open claim holds the lock that a second claim of the same task would
need, so a coroutine whose claim is open claims nothing else. -/
theorem claims_once (h : ClaimsHold w log) {c₀ c : Nat} {t₀ : TaskId} {n₀ : NodeId}
    {task : AnyTask} {st : Running} {ch : Choice}
    (hopen : (starts log x).phase.claim = some (c₀, t₀, n₀))
    (hst : task.state = .running st)
    (hap : Happens (system cfg) startProtocol w log
      (.thread x (.performed (.sql c (.taskUpdate task (some .toDo))) ch (.ok true))) w') :
    False := by
  obtain ⟨hpre, hperf, -⟩ := hap.of_performed
  obtain ⟨hnone, hsave⟩ : (starts log x).MaySave c task (some .toDo) := hpre
  have hclaim := h.open' x c₀ t₀ n₀ hopen
  have heff : saveEffect task (some .toDo) = .claim := by
    unfold saveEffect
    rw [hst]
  rw [heff] at hsave
  -- both claims are for the same task
  obtain rfl : t₀ = task.taskId := hsave.2 c₀ t₀ n₀ hclaim
  obtain ⟨⟨row, hlock, -⟩, -⟩ := h.held x c₀ _ n₀ hopen
  have hchange := World.perform_taskChange hperf
  generalize w'.db.tasks = tasks at hchange
  cases hchange with
  | other ho => cases ho
  | failed _ hr => obtain ⟨e, he⟩ := hr; cases he
  | unsaved hr => exact hr rfl
  | saved row' _ _ _ hother =>
    have hown := RowStore.not_locked_of_not_lockedByOther _ hother hlock
    cases hown
    rw [hnone] at hclaim
    cases hclaim

/-- A committed row never becomes TO_DO again. -/
theorem toDo_step (h : ClaimsHold w log) {e : Entry sig Tid World.Env} {L : Type}
    {P : Protocol sig L} (hap : Happens (system cfg) P w log e w') {t : TaskId}
    (hnew : w'.db.ToDo t) : w.db.ToDo t := by
  obtain ⟨row, hrow, htodo⟩ := hnew
  rcases rows_step hap with hrows | ⟨y, c, ch, r, -, -, -, htasks⟩
  · rw [hrows] at hrow
    exact ⟨row, hrow, htodo⟩
  · rw [htasks, RowStore.commit_rows] at hrow
    exact ⟨row, h.read_toDo hrow htodo, htodo⟩

end ClaimsHold

/-! ## Databases with few tasks

No job inserts a task row, so no task appears that was not there at the
beginning. With few tasks in it, a result about every task becomes one about
those few, and this is how the tasks that a run can start are counted. -/

/-- No task exists outside the set, committed or not. -/
def Database.TasksIn (db : Database) (A : Set TaskId) : Prop :=
  ∀ t, t ∉ A → db.tasks.rows t = none ∧ db.tasks.locks t = none

theorem tasksIn_read {db : Database} {A : Set TaskId} (h : db.TasksIn A) {o : Conn}
    {t : TaskId} (ht : t ∉ A) : db.tasks.read o t = none := by
  rw [RowStore.read_of_unlocked _ (h t ht).2]
  exact (h t ht).1

/-- **The scheduler creates no task.** Saving one that is not there finds no row. -/
theorem tasksIn_step {cfg : Nat → Settings} {L : Type} {P : Protocol sig L}
    {w w' : World} {log : Log} {e : Entry sig Tid World.Env} {A : Set TaskId}
    (h : w.db.TasksIn A) (hap : Happens (system cfg) P w log e w') :
    w'.db.TasksIn A := by
  have hunlock : ∀ o t, t ∉ A → w.db.tasks.unlock o t = none := by
    intro o t ht
    cases hu : w.db.tasks.unlock o t with
    | none => rfl
    | some v =>
      rw [RowStore.unlock_eq_some, (h t ht).2] at hu
      cases hu.1
  cases hap with
  | call x c hpre => exact h
  | perform x o ch r w' hpre _ _ hperf =>
    intro t ht
    generalize htasks : w'.db.tasks = tasks
    have hchange := World.perform_taskChange hperf
    rw [htasks] at hchange
    cases hchange with
    | saved row hch hread hexp hlock =>
      refine ⟨(h t ht).1, ?_⟩
      rw [RowStore.write_locks_ne]
      · exact (h t ht).2
      · rintro rfl
        rw [tasksIn_read h ht] at hread
        cases hread
    | removed =>
      refine ⟨(h t ht).1, ?_⟩
      rw [RowStore.writeAll_locks_of_none]
      · exact (h t ht).2
      · cases hv : w.db.clearReferences _ _ t with
        | none => rfl
        | some v =>
          obtain ⟨row, hr, hread, -⟩ := Database.clearReferences_eq_some _ _ hv
          rw [tasksIn_read h ht] at hread
          cases hread
    | committed hch => exact ⟨tasksIn_read h ht, hunlock _ t ht⟩
    | rolledBack hch => exact ⟨(h t ht).1, hunlock _ t ht⟩
    | closed hch => exact ⟨(h t ht).1, hunlock _ t ht⟩
    | _ => exact h t ht
  | interrupt x o => exact h
  | reap x ch w' _ _ hreap =>
    cases ch with
    | collect c =>
      cases hreap
      exact fun t ht => ⟨(h t ht).1, hunlock _ t ht⟩
    | _ => cases hreap
  | env e w' _ henv =>
    have hdb : w'.db = w.db := World.env_db henv
    rw [hdb]
    exact h

end Yascheduler
