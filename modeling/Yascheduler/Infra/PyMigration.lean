import Mathlib.Data.List.Basic

/-!
# Migrations written in Python

The runner opens a transaction, loads the module and calls `migrate()`, which
may run statements, commit the transaction of the runner and begin another
one. Then the identifier of the file is inserted into the tracker and the
transaction is committed.

A connection is what Postgres makes of it: a failed statement aborts the
transaction, a failed COMMIT rolls it back, and a statement outside a
transaction commits on its own.

A migration in SQL is a text for the database. One in Python is a program with the
runner's connection in its hands, and may end the transaction it was started in.
So its body is any sequence of statements, commits and new transactions, and what
is still open when it ends depends on how each of them was answered.
-/

namespace Yascheduler

/-! ## The connection

Outside of a transaction every statement commits by itself. A migration that
ends the transaction of the runner and does not begin another one leaves the
runner's next statement there, so that the insertion of the row is committed at
once and its COMMIT does nothing. -/

/-- What is sent to the database; the statements of a migration are labelled by what
they do. What they do to the tables is of no account: only whether it is committed
is asked. -/
inductive Sql (α : Type) where
  | stmt (a : α)
  | begin
  | commit
  | rollback
  | insertTracker

/-- How the database answers. An answer that is lost is an error to the caller, and
the effect is there. -/
inductive SqlReply where
  | ok
  /-- the statement fails: `DatabaseError` -/
  | databaseError
  /-- the statement fails, with another error -/
  | interfaceError
  /-- the statement takes effect, and the answer is lost -/
  | lost
deriving DecidableEq

/-- An exception of a migration. `DatabaseError` is the one the recording of the
tracker row catches. -/
inductive MigrationError where
  | database
  | interface
  /-- any other one -/
  | python
deriving DecidableEq

/-- The transaction of a connection: what it has done, and whether it has inserted
the tracker row. After an error it is aborted and refuses everything but its end. -/
inductive Tx (α : Type) where
  | idle
  | active (work : List α) (tracked : Bool)
  | aborted
deriving DecidableEq

/-- A connection, with what is committed and how the database is going to
answer. -/
structure SqlConn (α : Type) where
  committed : List α := []
  tracked : Bool := false
  tx : Tx α := .idle
  replies : Nat → SqlReply

variable {α : Type}

namespace SqlConn

/-- The statement takes effect. Outside of a transaction it is committed at once,
and a `COMMIT` there does nothing. -/
def step (c : SqlConn α) (q : Sql α) : SqlConn α :=
  match q, c.tx with
  | .stmt a, .idle => { c with committed := c.committed ++ [a] }
  | .stmt a, .active work tracked => { c with tx := .active (work ++ [a]) tracked }
  | .insertTracker, .idle => { c with tracked := true }
  | .insertTracker, .active work _ => { c with tx := .active work true }
  | .begin, .idle => { c with tx := .active [] false }
  | .commit, .active work tracked =>
    { c with committed := c.committed ++ work, tracked := c.tracked || tracked, tx := .idle }
  | .commit, _ | .rollback, _ => { c with tx := .idle }
  | _, _ => c

/-- The statement fails. A `COMMIT` that fails ends the transaction without its
work. -/
def fail (c : SqlConn α) (q : Sql α) : SqlConn α :=
  match q, c.tx with
  | .commit, _ => { c with tx := .idle }
  | _, .idle => c
  | _, _ => { c with tx := .aborted }

/-- The statement cannot but fail: in an aborted transaction, and for the key
of the tracker. -/
def refuses (c : SqlConn α) (q : Sql α) : Bool :=
  match q, c.tx with
  | .commit, _ | .rollback, _ => false
  | _, .aborted => true
  | .insertTracker, .active _ tracked => c.tracked || tracked
  | .insertTracker, .idle => c.tracked
  | _, _ => false

/-- The connection when the database has answered. -/
def next (c : SqlConn α) : SqlConn α :=
  { c with replies := fun i => c.replies (i + 1) }

/-- `Connection.run`. -/
def run (c : SqlConn α) (q : Sql α) : EStateM.Result MigrationError (SqlConn α) Unit :=
  if c.refuses q then .error .database (c.next.fail q)
  else
    match c.replies 0 with
    | .ok => .ok () (c.next.step q)
    | .databaseError => .error .database (c.next.fail q)
    | .interfaceError => .error .interface (c.next.fail q)
    | .lost => .error .interface (c.next.step q)

end SqlConn

/-- Code that uses the connection. -/
abbrev DbScript (α : Type) := EStateM MigrationError (SqlConn α)

/-- `conn.run`. -/
def sql (q : Sql α) : DbScript α Unit := fun c => c.run q

/-! ## The migration -/

/-- What a migration does on the connection: it runs a statement, or calls
`self.begin()` or `self.commit()`. -/
inductive PyCall (α : Type) where
  | stmt (a : α)
  | begin
  | commit

/-- The statement that is sent. -/
def PyCall.sql : PyCall α → Sql α
  | .stmt a => .stmt a
  | .begin => .begin
  | .commit => .commit

/-- A `.py` migration. Its module may fail to load, and loading it may already use
the connection. -/
structure PyMigration (α : Type) where
  /-- there is a loader for the file -/
  loads : Bool := true
  /-- what it does on the connection: the module when it is executed, and
  `migrate()` -/
  body : List (PyCall α) := []
  /-- it raises afterwards, or has not exactly one subclass of `Migration` -/
  raises : Bool := false

/-- What the statements of a migration do. -/
def statements (body : List (PyCall α)) : List α :=
  body.filterMap fun q => match q with
    | .stmt a => some a
    | _ => none

/-- The calls of a migration, up to the first that raises. -/
def runBody : List (PyCall α) → DbScript α Unit
  | [] => pure ()
  | q :: qs => do
    sql q.sql
    runBody qs

/-- Executing the module and calling `migrate()`. -/
def migrate (m : PyMigration α) : DbScript α Unit := do
  runBody m.body
  if m.raises then
    throw .python

/-! ## The runner

The runner records the file after its body. When this fails with a database
error it begins a new transaction and records the file once more. That is meant
for errors that pass, such as a deadlock on the tracker. But an error of the
COMMIT is caught with them, and after it the body has been rolled back. -/

/-- `_rollback`. Its own failure is of no interest. -/
def rollbackQuietly : DbScript α Unit :=
  try sql .rollback catch _ => pure ()

/-- `_record_py_tracker`. If the insertion or the commit fails with a database
error, it begins anew and inserts the row again, without the body. -/
def recordPyTracker : DbScript α Unit := do
  try
    sql .insertTracker
    sql .commit
  catch e => match e with
    | .database =>
      sql .begin
      sql .insertTracker
      sql .commit
    | e => throw e

/-- **`_apply_py_migration`.** -/
def applyPyMigration (m : PyMigration α) : DbScript α Unit := do
  if !m.loads then
    throw .python
  sql .begin
  try
    migrate m
    recordPyTracker
  catch e =>
    rollbackQuietly
    throw e

end Yascheduler
