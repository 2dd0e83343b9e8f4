import Yascheduler.Infra.PyMigration

/-!
# A Python migration and its tracker row

The tracker row is inserted into the transaction that `migrate()` leaves open,
so the COMMIT that records a migration also commits what is left of it. But
the recorder tries twice, and the second time in a transaction of its own.
When it is the COMMIT that failed, what `migrate()` has left open is rolled
back by then, and the row is committed without it.

That is the only way to part the two: when the INSERT fails, its transaction
is aborted and refuses the BEGIN of the second try, and a migration that
leaves nothing open has nothing to lose.

## Together or not at all

What has to go together is the end of the migration – the part it has left in the
runner's transaction – and the row in the tracker. What the migration has
committed itself is committed, and the runner has no part in it. So the law
compares two things that the same COMMIT is to decide, and the outcome of the
whole step is either both or neither.
-/

namespace Yascheduler

variable {α : Type}

/-! ## Statements

A connection is followed through all that is done on it. Two properties of it
are enough: as long as nothing has failed it is *clean*, and then what is
committed is what the statements say; and it is *untracked* until the recorder
inserts the row, even after a failure. -/

/-- The state in which a script ends, however it ends. -/
def endState {ε σ β : Type} : EStateM.Result ε σ β → σ
  | .ok _ s | .error _ s => s

/-- What a transaction has done. -/
def Tx.work : Tx α → List α
  | .active work _ => work
  | _ => []

namespace SqlConn

/-- Nothing has failed, and the tracker row is not inserted. As long as everything
returns, the connection is in such a state. -/
def Clean (c : SqlConn α) : Prop :=
  c.tracked = false ∧ (c.tx = .idle ∨ ∃ work, c.tx = .active work false)

/-- The tracker row is neither committed nor in the transaction. Unlike the first
this also holds after a failure. -/
def Untracked (c : SqlConn α) : Prop :=
  c.tracked = false ∧ ∀ work, c.tx ≠ .active work true

/-- The first implies the second. -/
theorem Clean.untracked {c : SqlConn α} (h : c.Clean) : c.Untracked := by
  refine ⟨h.1, fun work hactive => ?_⟩
  rcases h.2 with htx | ⟨work', htx⟩ <;> simp [htx] at hactive

end SqlConn

/-- A statement takes effect, or fails. -/
theorem endState_sql (q : Sql α) (c : SqlConn α) :
    endState (sql q c) = c.next.step q ∨ endState (sql q c) = c.next.fail q := by
  unfold sql SqlConn.run
  split
  · exact .inr rfl
  · split
    · exact .inl rfl
    · exact .inr rfl
    · exact .inr rfl
    · exact .inl rfl

/-- A statement that returns has taken effect. -/
theorem sql_eq_ok {q : Sql α} {c c' : SqlConn α} (h : sql q c = .ok () c') :
    c.replies 0 = .ok ∧ c' = c.next.step q := by
  unfold sql SqlConn.run at h
  split at h
  · cases h
  · split at h
    · rename_i hreply
      cases h
      exact ⟨hreply, rfl⟩
    all_goals cases h

/-- A call of a migration that returns has had its effect. What is committed and
what the transaction has done, one after the other, is what the calls so far say. -/
theorem clean_call {c c' : SqlConn α} {q : PyCall α} (h : c.Clean)
    (hrun : sql q.sql c = .ok () c') : c'.Clean ∧
      c'.committed ++ c'.tx.work = c.committed ++ c.tx.work ++ statements [q] := by
  obtain ⟨-, rfl⟩ := sql_eq_ok hrun
  obtain ⟨committed, tracked, tx, replies⟩ := c
  obtain ⟨rfl, rfl | ⟨work, rfl⟩⟩ := h <;> cases q <;>
    simp [SqlConn.Clean, SqlConn.next, SqlConn.step, PyCall.sql, Tx.work, statements]

/-- No call of a migration inserts the tracker row. Only the recorder does. -/
theorem untracked_call {c : SqlConn α} (q : PyCall α) (h : c.Untracked) :
    (endState (sql q.sql c)).Untracked := by
  obtain ⟨committed, tracked, tx, replies⟩ := c
  obtain ⟨rfl, htx⟩ := h
  rcases endState_sql q.sql ⟨committed, false, tx, replies⟩ with hend | hend <;> rw [hend] <;>
    cases tx <;> cases q <;>
    simp_all [SqlConn.Untracked, SqlConn.next, SqlConn.step, SqlConn.fail, PyCall.sql]

/-- The ROLLBACK of the runner commits nothing. -/
theorem rollbackQuietly_spec (c : SqlConn α) :
    (endState (rollbackQuietly c)).committed = c.committed ∧
      (endState (rollbackQuietly c)).tracked = c.tracked := by
  have hend : endState (rollbackQuietly c) = endState (sql .rollback c) := by
    show endState (EStateM.tryCatch _ _ c) = _
    unfold EStateM.tryCatch
    cases sql .rollback c <;> rfl
  rw [hend]
  rcases endState_sql .rollback c with h | h <;> rw [h]
  · exact ⟨rfl, rfl⟩
  · unfold SqlConn.fail
    split <;> exact ⟨rfl, rfl⟩

/-! ## The migration

What a migration does is a list of calls, which it may commit in the middle. So
what it has done falls into what is committed already and what is still in the
transaction, and only the second part is at stake in what follows. -/

/-- The statements of a migration are those of its calls. -/
theorem statements_cons (q : PyCall α) (body : List (PyCall α)) :
    statements (q :: body) = statements [q] ++ statements body :=
  List.filterMap_append (l := [q])

/-- A body that returns has done what it says. By induction on its calls. -/
theorem runBody_ok {body : List (PyCall α)} {c c' : SqlConn α} (h : c.Clean)
    (hrun : runBody body c = .ok () c') : c'.Clean ∧
      c'.committed ++ c'.tx.work = c.committed ++ c.tx.work ++ statements body := by
  induction body generalizing c with
  | nil =>
    cases hrun
    exact ⟨h, (List.append_nil _).symm⟩
  | cons q body ih =>
    change EStateM.bind _ _ c = _ at hrun
    unfold EStateM.bind at hrun
    cases hq : sql q.sql c with
    | error e c₁ => rw [hq] at hrun; cases hrun
    | ok u c₁ =>
      rw [hq] at hrun
      obtain ⟨hclean, hwork⟩ := clean_call h hq
      obtain ⟨hclean', hwork'⟩ := ih hclean hrun
      refine ⟨hclean', ?_⟩
      rw [hwork', hwork, statements_cons q body, List.append_assoc]

/-- A body inserts no tracker row, however it ends. -/
theorem runBody_untracked {body : List (PyCall α)} {c : SqlConn α} (h : c.Untracked) :
    (endState (runBody body c)).Untracked := by
  induction body generalizing c with
  | nil => exact h
  | cons q body ih =>
    have hq := untracked_call q h
    show (endState (EStateM.bind _ _ c)).Untracked
    unfold EStateM.bind
    cases hsql : sql q.sql c with
    | error e c₁ => rw [hsql] at hq; exact hq
    | ok u c₁ => rw [hsql] at hq; exact ih hq

/-- The same holds of `migrate()`. -/
theorem migrate_ok {m : PyMigration α} {c c' : SqlConn α} (h : c.Clean)
    (hrun : migrate m c = .ok () c') : c'.Clean ∧
      c'.committed ++ c'.tx.work = c.committed ++ c.tx.work ++ statements m.body := by
  change EStateM.bind _ _ c = _ at hrun
  unfold EStateM.bind at hrun
  cases hbody : runBody m.body c with
  | error e c₁ => rw [hbody] at hrun; cases hrun
  | ok u c₁ =>
    rw [hbody] at hrun
    cases hraises : m.raises with
    | true => simp [hraises] at hrun; cases hrun
    | false =>
      simp [hraises] at hrun
      cases hrun
      exact runBody_ok h hbody

/-- And this as well. -/
theorem migrate_untracked {m : PyMigration α} {c : SqlConn α} (h : c.Untracked) :
    (endState (migrate m c)).Untracked := by
  have hbody : (endState (runBody m.body c)).Untracked := runBody_untracked h
  show (endState (EStateM.bind _ _ c)).Untracked
  unfold EStateM.bind
  cases hrun : runBody m.body c with
  | error e c₁ => rw [hrun] at hbody; exact hbody
  | ok u c₁ =>
    rw [hrun] at hbody
    cases m.raises <;> exact hbody

/-! ## Recording it

The recorder meets the connection in one of two states, with a transaction open
or without. Its first try may end in any of its statements. The second try runs
on whatever the first has left, and the lemmas say what it can still do there:
nothing in an aborted transaction, and nothing if the row is there. -/

/-- The second try. -/
def retryTracker : DbScript α Unit := do
  sql .begin
  sql .insertTracker
  sql .commit

/-- The second try goes through, and its COMMIT takes effect. -/
def Recorded (r : Nat → SqlReply) : Prop :=
  r 0 = .ok ∧ r 1 = .ok ∧ (r 2 = .ok ∨ r 2 = .lost)

/-- A second try in a connection without a transaction. It begins one of its own, in
which there is nothing but the row. -/
theorem retryTracker_idle {c : SqlConn α} (htx : c.tx = .idle) (h : c.tracked = false) :
    (endState (retryTracker c)).committed = c.committed ∧
      ((endState (retryTracker c)).tracked = true ↔ Recorded c.replies) := by
  obtain ⟨committed, tracked, tx, replies⟩ := c
  obtain rfl : tx = .idle := htx
  obtain rfl : tracked = false := h
  unfold retryTracker Recorded
  cases h0 : replies 0 <;>
    simp [bind, EStateM.bind, sql, SqlConn.run, SqlConn.refuses, SqlConn.next, SqlConn.step,
      SqlConn.fail, endState, h0]
  cases h1 : replies 1 <;> simp
  cases h2 : replies 2 <;> simp

/-- The second try in an aborted transaction, which refuses the BEGIN. So the second
try only goes through where the first one has ended the transaction. -/
theorem retryTracker_aborted {c : SqlConn α} (htx : c.tx = .aborted) :
    retryTracker c = .error .database (c.next.fail .begin) := by
  have hrefuses : c.refuses .begin = true := by simp [SqlConn.refuses, htx]
  show EStateM.bind (sql .begin) _ c = _
  unfold EStateM.bind sql SqlConn.run
  rw [if_pos hrefuses]

/-- The second try when the row is committed already, which refuses the INSERT. -/
theorem retryTracker_tracked {c : SqlConn α} (htx : c.tx = .idle) (h : c.tracked = true) :
    (endState (retryTracker c)).committed = c.committed ∧
      (endState (retryTracker c)).tracked = true := by
  obtain ⟨committed, tracked, tx, replies⟩ := c
  obtain rfl : tx = .idle := htx
  obtain rfl : tracked = true := h
  unfold retryTracker
  cases h0 : replies 0 <;>
    simp [bind, EStateM.bind, sql, SqlConn.run, SqlConn.refuses, SqlConn.next, SqlConn.step,
      SqlConn.fail, endState, h0]

/-- The first try. -/
def firstTracker : DbScript α Unit := do
  sql .insertTracker
  sql .commit

/-- The second try follows a `DatabaseError` of the first one. -/
theorem endState_recordPyTracker (c : SqlConn α) : endState (recordPyTracker c) =
    match firstTracker c with
    | .ok _ c' => c'
    | .error .database c' => endState (retryTracker c')
    | .error _ c' => c' := by
  show endState (EStateM.tryCatch firstTracker _ c) = _
  unfold EStateM.tryCatch
  cases firstTracker c with
  | ok u c' => rfl
  | error e c' => cases e <;> rfl

/-- It runs on the state that the first one has left. -/
theorem endState_recordPyTracker_error {c c' : SqlConn α}
    (h : firstTracker c = .error .database c') :
    endState (recordPyTracker c) = endState (retryTracker c') := by
  rw [endState_recordPyTracker, h]

/-- The COMMIT of the first try fails with a `DatabaseError`, and the second one
goes through. This is the case that the second try was made for. -/
def Retried (r : Nat → SqlReply) : Prop :=
  r 0 = .ok ∧ r 1 = .databaseError ∧ Recorded fun i => r (i + 2)

/-- A migration that leaves no transaction open has nothing left to commit. -/
theorem recordPyTracker_idle {c : SqlConn α} (htx : c.tx = .idle) (h : c.tracked = false) :
    (endState (recordPyTracker c)).committed = c.committed := by
  obtain ⟨committed, tracked, tx, replies⟩ := c
  obtain rfl : tx = .idle := htx
  obtain rfl : tracked = false := h
  rw [endState_recordPyTracker]
  unfold firstTracker
  cases h0 : replies 0 <;>
    simp [bind, EStateM.bind, sql, SqlConn.run, SqlConn.refuses, SqlConn.next, SqlConn.step,
      SqlConn.fail, h0]
  · cases h1 : replies 1 <;> simp
    exact (retryTracker_tracked rfl rfl).1
  · exact (retryTracker_idle rfl rfl).1

/-- **What is recorded** of a migration that leaves a transaction open: nothing, the
row with what the migration has done, or the row without it. -/
theorem recordPyTracker_active {c : SqlConn α} {work : List α} (htx : c.tx = .active work false)
    (h : c.tracked = false) :
    ((endState (recordPyTracker c)).tracked = false ∧
      (endState (recordPyTracker c)).committed = c.committed ∧ ¬ Retried c.replies) ∨
    ((endState (recordPyTracker c)).tracked = true ∧
      (endState (recordPyTracker c)).committed = c.committed ++ work ∧ ¬ Retried c.replies) ∨
    ((endState (recordPyTracker c)).tracked = true ∧
      (endState (recordPyTracker c)).committed = c.committed ∧ Retried c.replies) := by
  obtain ⟨committed, tracked, tx, replies⟩ := c
  obtain rfl : tx = .active work false := htx
  obtain rfl : tracked = false := h
  unfold Retried
  cases h0 : replies 0 with
  | ok =>
    cases h1 : replies 1 with
    | databaseError =>
      have hfirst : firstTracker { committed, tx := .active work false, replies } =
          .error .database { committed, replies := fun i => replies (i + 2) } := by
        simp [firstTracker, bind, EStateM.bind, sql, SqlConn.run, SqlConn.refuses, SqlConn.next,
          SqlConn.step, SqlConn.fail, h0, h1]
      obtain ⟨hcommitted, htracked⟩ := retryTracker_idle (c := {
        committed, replies := fun i => replies (i + 2) }) rfl rfl
      rw [endState_recordPyTracker_error hfirst]
      by_cases hrecorded : Recorded fun i => replies (i + 2)
      · exact .inr (.inr ⟨htracked.mpr hrecorded, hcommitted, h0, h1, hrecorded⟩)
      · exact .inl ⟨Bool.eq_false_iff.mpr (mt htracked.mp hrecorded), hcommitted,
          fun h => hrecorded h.2.2⟩
    | _ =>
      rw [endState_recordPyTracker]
      simp [firstTracker, bind, EStateM.bind, sql, SqlConn.run, SqlConn.refuses, SqlConn.next,
        SqlConn.step, SqlConn.fail, h0, h1]
  | databaseError =>
    have hfirst : firstTracker { committed, tx := .active work false, replies } =
        .error .database { committed, tx := .aborted, replies := fun i => replies (i + 1) } := by
      simp [firstTracker, bind, EStateM.bind, sql, SqlConn.run, SqlConn.refuses, SqlConn.next,
        SqlConn.fail, h0]
    rw [endState_recordPyTracker_error hfirst, retryTracker_aborted rfl]
    exact .inl ⟨rfl, rfl, fun h => nomatch h0.symm.trans h.1⟩
  | _ =>
    rw [endState_recordPyTracker]
    simp [firstTracker, bind, EStateM.bind, sql, SqlConn.run, SqlConn.refuses, SqlConn.next,
      SqlConn.step, SqlConn.fail, h0]

/-! ## The whole step

The step is the migration and the recorder, with a ROLLBACK for whatever
raises. The ROLLBACK commits nothing, so what is committed in the end was
committed by the two, and the cases are those of the recorder. -/

/-- The connection before the step: nothing of the migration is done. -/
def fresh (replies : Nat → SqlReply) : SqlConn α := { replies }

/-- The step of the runner, up to the end of `migrate()`. -/
def migrated (m : PyMigration α) (replies : Nat → SqlReply) :
    EStateM.Result MigrationError (SqlConn α) Unit :=
  (do
    if !m.loads then
      throw .python
    sql .begin
    migrate m : DbScript α Unit) (fresh replies)

/-- The state in which the step ends. -/
def applied (m : PyMigration α) (replies : Nat → SqlReply) : SqlConn α :=
  endState (applyPyMigration m (fresh replies))

/-- **A migration and its tracker row commit together.** With the row alone the
migration is never applied, and with the migration alone it is applied again. -/
structure CommitsTogether (m : PyMigration α) (replies : Nat → SqlReply) : Prop where
  /-- the row is there only if everything the migration does is committed -/
  whole : (applied m replies).tracked = true →
    (applied m replies).committed = statements m.body
  /-- what `migrate()` leaves open is committed only with the row -/
  joint : (applied m replies).committed ≠ (endState (migrated m replies)).committed →
    (applied m replies).tracked = true

/-- What `migrate()` has left open is lost by the second try of the recorder. A
migration that commits by itself has nothing to lose there. -/
def LosesWork (m : PyMigration α) (replies : Nat → SqlReply) : Prop :=
  ∃ c a work, migrated m replies = .ok () c ∧ c.tx = .active (a :: work) false ∧
    Retried c.replies

section Step

variable {m : PyMigration α} {replies : Nat → SqlReply}

/-- The step begins a transaction on a connection where nothing was done. -/
theorem clean_begin {c : SqlConn α} (h : sql .begin (fresh replies) = .ok () c) :
    c.Clean ∧ c.committed ++ c.tx.work = [] := by
  obtain ⟨-, rfl⟩ := sql_eq_ok h
  exact ⟨⟨rfl, .inr ⟨[], rfl⟩⟩, rfl⟩

theorem untracked_begin : (endState (sql .begin (fresh (α := α) replies))).Untracked := by
  rcases endState_sql .begin (fresh (α := α) replies) with h | h <;> rw [h] <;>
    exact ⟨rfl, fun _ hactive => nomatch hactive⟩

/-- What the runner does once the transaction has begun. -/
def guarded (m : PyMigration α) : DbScript α Unit :=
  try
    migrate m
    recordPyTracker
  catch e =>
    rollbackQuietly
    throw e

theorem endState_guarded (m : PyMigration α) (c : SqlConn α) :
    (endState (guarded m c)).committed = (endState ((do migrate m; recordPyTracker) c)).committed ∧
      (endState (guarded m c)).tracked = (endState ((do migrate m; recordPyTracker) c)).tracked := by
  show (endState (EStateM.tryCatch (do migrate m; recordPyTracker) _ c)).committed = _ ∧
    (endState (EStateM.tryCatch (do migrate m; recordPyTracker) _ c)).tracked = _
  unfold EStateM.tryCatch
  cases (do migrate m; recordPyTracker : DbScript α Unit) c with
  | ok u c' => exact ⟨rfl, rfl⟩
  | error e c' =>
    have hrollback := rollbackQuietly_spec c'
    have hraise : endState ((do rollbackQuietly; throw e : DbScript α Unit) c') =
        endState (rollbackQuietly c') := by
      show endState (EStateM.bind rollbackQuietly _ c') = _
      unfold EStateM.bind
      cases rollbackQuietly c' <;> rfl
    show (endState ((do rollbackQuietly; throw e : DbScript α Unit) c')).committed = _ ∧
      (endState ((do rollbackQuietly; throw e : DbScript α Unit) c')).tracked = _
    rw [hraise]
    exact hrollback

theorem migrated_eq (h : m.loads = true) : migrated m replies =
    EStateM.bind (sql .begin) (fun _ => migrate m) (fresh replies) := by
  unfold migrated
  rw [h]
  rfl

theorem applied_eq (h : m.loads = true) : applied m replies =
    endState (EStateM.bind (sql .begin) (fun _ => guarded m) (fresh replies)) := by
  unfold applied applyPyMigration
  rw [h]
  rfl

/-- **The step**: `migrate()` is not reached or raises, and nothing more is
committed, or it returns and is recorded. -/
theorem step_cases (m : PyMigration α) (replies : Nat → SqlReply) :
    (∃ e c, migrated m replies = .error e c ∧ c.Untracked ∧
      (applied m replies).committed = c.committed ∧ (applied m replies).tracked = c.tracked) ∨
    ∃ c, migrated m replies = .ok () c ∧ c.Clean ∧
      c.committed ++ c.tx.work = statements m.body ∧
      (applied m replies).committed = (endState (recordPyTracker c)).committed ∧
      (applied m replies).tracked = (endState (recordPyTracker c)).tracked := by
  cases hloads : m.loads with
  | false =>
    unfold applied migrated applyPyMigration
    rw [hloads]
    exact .inl ⟨.python, fresh replies, rfl, ⟨rfl, fun _ h => nomatch h⟩, rfl, rfl⟩
  | true =>
    rw [migrated_eq hloads, applied_eq hloads]
    have huntracked : (endState (sql .begin (fresh (α := α) replies))).Untracked := untracked_begin
    unfold EStateM.bind
    cases hbegin : sql .begin (fresh (α := α) replies) with
    | error e c =>
      rw [hbegin] at huntracked
      exact .inl ⟨e, c, rfl, huntracked, rfl, rfl⟩
    | ok u c =>
      obtain ⟨hclean, hnothing⟩ := clean_begin hbegin
      have hmigrate := migrate_untracked (m := m) hclean.untracked
      obtain ⟨hcommitted, htracked⟩ := endState_guarded m c
      have hboth : (do migrate m; recordPyTracker : DbScript α Unit) c =
        EStateM.bind (migrate m) (fun _ => recordPyTracker) c := rfl
      rw [hboth] at hcommitted htracked
      unfold EStateM.bind at hcommitted htracked
      show (∃ e c₁, migrate m c = .error e c₁ ∧ _) ∨ ∃ c₁, migrate m c = .ok () c₁ ∧ _
      cases hrun : migrate m c with
      | error e c₁ =>
        rw [hrun] at hcommitted htracked hmigrate
        exact .inl ⟨e, c₁, rfl, hmigrate, hcommitted, htracked⟩
      | ok u c₁ =>
        rw [hrun] at hcommitted htracked
        obtain ⟨hclean', hwork⟩ := migrate_ok hclean hrun
        rw [hnothing, List.nil_append] at hwork
        exact .inr ⟨c₁, rfl, hclean', hwork, hcommitted, htracked⟩

/-- Work that is lost is the work of a transaction that is open. -/
theorem losesWork_iff {c : SqlConn α} (h : migrated m replies = .ok () c) :
    LosesWork m replies ↔ ∃ a work, c.tx = .active (a :: work) false ∧ Retried c.replies := by
  unfold LosesWork
  rw [h]
  constructor
  · rintro ⟨c', a, work, hc, hloses⟩
    cases hc
    exact ⟨a, work, hloses⟩
  · rintro ⟨a, work, hloses⟩
    exact ⟨c, a, work, rfl, hloses⟩

/-- **Committed together**, unless the second try of the recorder loses what
`migrate()` has left open. -/
theorem commitsTogether_iff (m : PyMigration α) (replies : Nat → SqlReply) :
    CommitsTogether m replies ↔ ¬ LosesWork m replies := by
  rcases step_cases m replies with
    ⟨e, c, hmigrated, huntracked, hcommitted, htracked⟩ |
    ⟨c, hmigrated, hclean, hwork, hcommitted, htracked⟩
  · refine iff_of_true ⟨fun h => ?_, fun h => ?_⟩ ?_
    · rw [htracked, huntracked.1] at h
      cases h
    · rw [hmigrated] at h
      exact absurd hcommitted h
    · rintro ⟨c', a, work, hok, -⟩
      rw [hmigrated] at hok
      cases hok
  have hsame : (endState (migrated m replies)).committed = c.committed := by rw [hmigrated]; rfl
  rw [losesWork_iff hmigrated]
  rcases hclean.2 with htx | ⟨work, htx⟩
  · -- nothing is left open
    have hrecorded := recordPyTracker_idle htx hclean.1
    refine iff_of_true ⟨fun _ => ?_, fun h => ?_⟩ ?_
    · rw [hcommitted, hrecorded, ← hwork, htx]
      exact (List.append_nil _).symm
    · rw [hcommitted, hrecorded, hsame] at h
      exact absurd rfl h
    · rintro ⟨a, work, hactive, -⟩
      rw [htx] at hactive
      cases hactive
  rw [htx] at hwork
  change c.committed ++ work = _ at hwork
  rcases recordPyTracker_active htx hclean.1 with
    ⟨hrow, hrecorded, hretried⟩ | ⟨hrow, hrecorded, hretried⟩ | ⟨hrow, hrecorded, hretried⟩
  · refine iff_of_true ⟨fun h => ?_, fun h => ?_⟩ fun ⟨_, _, _, h⟩ => hretried h
    · rw [htracked, hrow] at h
      cases h
    · rw [hcommitted, hrecorded, hsame] at h
      exact absurd rfl h
  · refine iff_of_true ⟨fun _ => ?_, fun _ => ?_⟩ fun ⟨_, _, _, h⟩ => hretried h
    · rw [hcommitted, hrecorded, hwork]
    · rw [htracked, hrow]
  · -- the row is committed by the second try
    cases work with
    | nil =>
      refine iff_of_true ⟨fun _ => ?_, fun _ => ?_⟩ ?_
      · rw [hcommitted, hrecorded, ← hwork, List.append_nil]
      · rw [htracked, hrow]
      · rintro ⟨a, work, hactive, -⟩
        rw [htx] at hactive
        cases hactive
    | cons a work =>
      refine iff_of_false (fun h => ?_) fun h => h ⟨a, work, htx, hretried⟩
      have hall := h.whole (by rw [htracked, hrow])
      rw [hcommitted, hrecorded, ← hwork] at hall
      exact absurd (List.self_eq_append_right.mp hall) (List.cons_ne_nil a work)

end Step

/-! ## A COMMIT that fails -/

namespace PyMigrations

/-- One statement, in the transaction of the runner. -/
def addColumn : PyMigration String := { body := [.stmt "ALTER TABLE yascheduler_nodes"] }

/-- BEGIN, the statement and the INSERT succeed, the COMMIT that follows does
not. -/
def commitFails : Nat → SqlReply := fun i => if i = 3 then .databaseError else .ok

end PyMigrations

/-- **The row without the migration**: it is in the tracker, and nothing of
the migration is in the database. -/
theorem not_commitsTogether_commitFails :
    (applied PyMigrations.addColumn PyMigrations.commitFails).tracked = true ∧
      (applied PyMigrations.addColumn PyMigrations.commitFails).committed = [] ∧
      ¬ CommitsTogether PyMigrations.addColumn PyMigrations.commitFails := by
  have htracked : (applied PyMigrations.addColumn PyMigrations.commitFails).tracked = true := rfl
  have hnothing : (applied PyMigrations.addColumn PyMigrations.commitFails).committed = [] := rfl
  refine ⟨htracked, hnothing, fun h => ?_⟩
  have hall := h.whole htracked
  rw [hnothing] at hall
  cases hall

end Yascheduler
