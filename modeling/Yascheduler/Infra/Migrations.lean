import Yascheduler.Store.Watermark
import Mathlib.Data.List.Sort
import Mathlib.Data.String.Basic

/-!
# Database migrations

The runner takes the migration files of the package in the order of their
names, reads the greatest identifier in the tracker, and applies the files
whose identifier – the token before the first underscore – is greater, each in
a transaction of its own that also inserts the identifier into the tracker.

## Three orders

File names and identifiers are compared by Python, which compares strings by
their code points. The greatest identifier is looked up by the database, with
`MAX` over a text column, and that goes by the collation the database was
created with. Nothing in the package chooses it, so it is a parameter here: any
linear order of the strings is a `Collation`.

## How a step ends

A file's step ends in one of five ways. Three of them keep the body and the
tracker row together, and these can happen to every file. The other two can
not: only for a `.py` migration is the record retried in a new transaction
after the first one was rolled back, and only a body that ends the runner's
transaction itself can be committed before its row is inserted.
-/

namespace Yascheduler

open Store

/-! ## The files

The identifier of a file is a text, and the code compares it as one. That file
names and identifiers are in the same order is what the comments of the source
say, and it depends on the names: an underscore is greater than a digit, so
`10_b` comes before `1_a`, while `1` comes before `10`. -/

/-- `_prefix_id`: the name up to its first underscore. Nothing says that it is a
number, or that all prefixes have one length. -/
def prefixId (filename : String) : String :=
  String.ofList (filename.toList.takeWhile (· ≠ '_'))

/-- `glob("*" + suffix)`. A name that is nothing but the suffix matches. -/
def glob (dir : List String) (suffix : String) : List String :=
  dir.filter fun name => suffix.toList.isSuffixOf name.toList

/-- `_scan_migrations`: the migration files, by name. The order is that of the code
points, since Python sorts here and not the database. -/
def scanMigrations (dir : List String) : List String :=
  (glob dir ".sql" ++ glob dir ".py").insertionSort (· ≤ ·)

/-- `path.suffix == ".sql"`: everything else goes to the Python runner. A name
that is nothing but `.sql` has no suffix. -/
def isSql (name : String) : Bool :=
  ".sql".toList.isSuffixOf name.toList && name ≠ ".sql"

/-! ## The database

Of the database only two things are of interest, the rows of the tracker and
the bodies that were committed. They should say the same, and what a run does
is described by how each of its steps has treated the two.

The greatest identifier is all that is read of the tracker. Whatever is below
it counts as applied, whether its row is there or not. -/

/-- The order of the strings in the database. It is the database that looks for the
greatest identifier of the tracker, so it need not be the order in which the files
were sorted. -/
structure Collation where
  order : LinearOrder String

/-- The collation `C`, in which the database and Python agree. -/
def Collation.codePoints : Collation where
  order := inferInstance

/-- What migrations have done to a database: the identifiers in the tracker,
if there is one, and the files whose body was committed, in this order. -/
structure MigrationDb where
  tracker : Option (List String)
  applied : List String := []
deriving DecidableEq

/-- How the step of a file ends. The last two are the ones in which body and row
part. -/
inductive Outcome where
  /-- Body and tracker row are committed. -/
  | committed
  /-- A statement raises and the transaction is rolled back. -/
  | rolledBack
  /-- The COMMIT takes effect and its answer is lost. -/
  | answerLost
  /-- `_record_py_tracker`: the COMMIT fails, which rolls the body back, and
  the retry inserts the row. -/
  | bodyLost
  /-- A migration commits its body on its own and the row is not inserted. -/
  | rowLost
deriving DecidableEq

/-- Body and tracker row stand or fall together. Only the Python runner has outcomes
in which they do not. -/
def Outcome.Whole (o : Outcome) : Prop :=
  o ≠ .bodyLost ∧ o ≠ .rowLost

instance (o : Outcome) : Decidable o.Whole :=
  inferInstanceAs (Decidable (_ ∧ _))

/-- What can happen to a file, by its kind and by whether its body ends the
runner's transaction. For a file that is called `.sql` the Python runner finds
no loader and raises before it begins. -/
def Outcome.Possible (endsTransaction : Bool) (name : String) (o : Outcome) : Prop :=
  if name = ".sql" then o = .rolledBack
  else
    match o with
    | .bodyLost => isSql name = false ∧ endsTransaction = false
    | .rowLost => endsTransaction = true
    | .committed | .rolledBack | .answerLost => True

/-- A run of the runner: whether reading the tracker raises a database error,
and how the step of each file ends. -/
structure MigrationRun where
  selectFails : Bool := false
  outcome : String → Outcome := fun _ => .committed

/-- What happens to each file of the package can happen to it. Files that are not
reached have outcomes as well, which play no role. -/
def MigrationRun.Possible (dir : List String) (endsTransaction : String → Bool)
    (run : MigrationRun) : Prop :=
  ∀ name ∈ scanMigrations dir, (run.outcome name).Possible (endsTransaction name) name

/-- `_last_applied`: the greatest identifier of the tracker. A database error
counts as an empty tracker. -/
def lastApplied (collation : Collation) (db : MigrationDb) (run : MigrationRun) :
    Option String :=
  if run.selectFails then none else db.tracker.bind (greatest collation.order)

/-- `_pending`: what comes after the last identifier. Identifiers below it are taken
to be applied. -/
def pending (last : Option String) (files : List String) : List String :=
  pendingAfter prefixId last files

/-- `_apply_sql_migration` and `_apply_py_migration`: the database after the
step of a file, and whether the step returned. The identifier is the primary
key of the tracker, so that a second row of it is refused. -/
def applyMigration (db : MigrationDb) (name : String) (o : Outcome) :
    MigrationDb × Bool :=
  match db.tracker with
  | none => (db, false)
  | some ids =>
    if prefixId name ∈ ids then (db, false)
    else
      match o with
      | .committed =>
        ({ tracker := some (ids ++ [prefixId name]), applied := db.applied ++ [name] }, true)
      | .rolledBack => (db, false)
      | .answerLost =>
        ({ tracker := some (ids ++ [prefixId name]), applied := db.applied ++ [name] }, false)
      | .bodyLost => ({ db with tracker := some (ids ++ [prefixId name]) }, true)
      | .rowLost => ({ db with applied := db.applied ++ [name] }, false)

/-- The loop over the pending files, up to the first that raises. The files before
it stay applied. -/
def applyPending (run : MigrationRun) (db : MigrationDb) :
    List String → MigrationDb × Bool
  | [] => (db, true)
  | name :: names =>
    match applyMigration db name (run.outcome name) with
    | (db', true) => applyPending run db' names
    | (db', false) => (db', false)

/-- **`apply_migrations`**: the database after a run, and whether the run returned.
The tracker is not created here, so without it no file is applied. -/
def applyMigrations (collation : Collation) (dir : List String) (db : MigrationDb)
    (run : MigrationRun) : MigrationDb × Bool :=
  applyPending run db (pending (lastApplied collation db run) (scanMigrations dir))

/-- The database after a history of runs, and whether one of them returned. Each run
begins with what the last has left, which is how an engineer repeats a run that
failed. -/
def history (collation : Collation) (dir : List String) (db : MigrationDb)
    (runs : List MigrationRun) : MigrationDb × Bool :=
  runs.foldl (fun s run =>
    let next := applyMigrations collation dir s.1 run
    (next.1, s.2 || next.2)) (db, false)

/-! ## The compatibility check

The check compares the greatest identifier of the tracker with that of the last
file. Like the runner, it takes this for a comparison of how far the two lists
go. -/

/-- What the status of the database can be. The first two are those of a database
without a row in its tracker. -/
inductive MigrationState where
  | missing
  | empty
  | current
  | behind
  | ahead
deriving DecidableEq

/-- The status, with the identifiers it was found by. -/
structure MigrationStatus where
  state : MigrationState
  applied : Option String
  required : String
deriving DecidableEq

/-- **`check_migration_status`**; an empty package raises. It compares the two
identifiers by their texts. -/
def checkMigrationStatus (collation : Collation) (dir : List String) (db : MigrationDb) :
    Except String MigrationStatus :=
  match (scanMigrations dir).getLast? with
  | none => .error "no packaged migrations found"
  | some file =>
    let required := prefixId file
    match db.tracker with
    | none => .ok { state := .missing, applied := none, required := required }
    | some ids =>
      match greatest collation.order ids with
      | none => .ok { state := .empty, applied := none, required := required }
      | some applied =>
        let state : MigrationState :=
          if applied < required then .behind
          else if applied > required then .ahead
          else .current
        .ok { state := state, applied := some applied, required := required }

/-! ## One step -/

/-- A step of an SQL file that leaves the transaction to the runner is whole. -/
theorem Outcome.Possible.whole {o : Outcome} {endsTransaction : Bool} {name : String}
    (h : o.Possible endsTransaction name) (hsql : isSql name = true)
    (hkeeps : endsTransaction = false) : o.Whole := by
  unfold Outcome.Possible at h
  split at h
  · subst h
    decide
  · refine ⟨?_, ?_⟩
    · rintro rfl
      exact Bool.noConfusion (hsql.symm.trans h.1)
    · rintro rfl
      exact Bool.noConfusion (h.symm.trans hkeeps)

/-- Any file but `.sql` can be applied. -/
theorem Outcome.possible_committed {endsTransaction : Bool} {name : String}
    (hname : name ≠ ".sql") : Outcome.committed.Possible endsTransaction name := by
  unfold Outcome.Possible
  rw [if_neg hname]
  trivial

variable {db : MigrationDb} {ids : List String} {name : String}

/-- The body and the row of a step whose file has no row yet are both there or
both not. -/
theorem applyMigration_whole {o : Outcome} (htracker : db.tracker = some ids)
    (hnew : prefixId name ∉ ids) (ho : o.Whole) :
    (applyMigration db name o = (db, false)) ∨
      ∃ ok, applyMigration db name o =
        ({ tracker := some (ids ++ [prefixId name]),
           applied := db.applied ++ [name] }, ok) := by
  unfold applyMigration
  rw [htracker]
  dsimp only
  rw [if_neg hnew]
  cases o with
  | committed => exact .inr ⟨true, rfl⟩
  | rolledBack => exact .inl rfl
  | answerLost => exact .inr ⟨false, rfl⟩
  | bodyLost => exact absurd rfl ho.1
  | rowLost => exact absurd rfl ho.2

/-- A second row of an identifier is refused. -/
theorem applyMigration_recorded {o : Outcome} (htracker : db.tracker = some ids)
    (hold : prefixId name ∈ ids) : applyMigration db name o = (db, false) := by
  unfold applyMigration
  rw [htracker]
  exact if_pos hold

/-- A step that is committed adds the file and its identifier. -/
theorem applyMigration_committed (htracker : db.tracker = some ids)
    (hnew : prefixId name ∉ ids) :
    applyMigration db name .committed =
      ({ tracker := some (ids ++ [prefixId name]),
         applied := db.applied ++ [name] }, true) := by
  unfold applyMigration
  rw [htracker]
  exact if_neg hnew

end Yascheduler
