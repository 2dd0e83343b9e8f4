import Yascheduler.Infra.Migrations

/-!
# Migrations are applied once, in order, and none is skipped

The runner does what it is for, from every tracker and through every history
of failures, under three conditions, and `migrationsOnce` says that they are
exactly the right ones.

## The order of the names

Files are ordered by their full names, and what is pending is decided by
comparing identifiers. The two orders are different: `10_b.sql` stands before
`1_a.sql`, because a digit is smaller than an underscore, and `10` is greater
than `1`. So the identifiers have to increase in the order of the names.

## The order of the database

The greatest identifier is looked up under the collation of the database. When
that is not the last one that was applied, the runner starts too early, at a
file that has its row, and stops there; nothing is skipped, and nothing is ever
finished. Only the status can lie, and it does when all files are recorded and
the last of them is not the greatest.

## The kind of the files

A `.py` migration whose COMMIT fails is recorded without being applied, and a
body that ends the runner's transaction can be applied without being recorded.
No order of the names helps against that.

The invariant of a history is `UpTo`: the files are the segment the tracker
covered at the start, the files applied since, and the rest. A step that is
not refused moves the first file of the rest over, or applies a file of the
segment that had no row of its own.
-/

namespace Yascheduler

open Store

/-- The identifiers increase in the order of the names. The runner goes through the
names, and decides by the identifiers. -/
def Increasing (dir : List String) : Prop :=
  (scanMigrations dir).Pairwise (prefixId · < prefixId ·)

instance (dir : List String) : Decidable (Increasing dir) :=
  inferInstanceAs (Decidable (List.Pairwise _ _))

/-- The identifier of the last file is the greatest for the database. Its `MAX`
compares by a collation, and Python by code points. -/
def LastGreatest (collation : Collation) (dir : List String) : Prop :=
  ∀ last ∈ (scanMigrations dir).getLast?, ∀ name ∈ scanMigrations dir,
    collation.order.le (prefixId name) (prefixId last)

/-- All files are `.sql` files that leave the transaction to the runner. Then a file
and its row are committed together or not at all. -/
def Atomic (endsTransaction : String → Bool) (dir : List String) : Prop :=
  ∀ name ∈ scanMigrations dir, isSql name = true ∧ endsTransaction name = false

instance (endsTransaction : String → Bool) (dir : List String) :
    Decidable (Atomic endsTransaction dir) :=
  inferInstanceAs (Decidable (∀ name ∈ scanMigrations dir, _))

/-- **What the runner is for.** Whatever initial segment of the files the tracker
covers at the start, and however the runs fail: once a run has returned, the files
after the segment have been applied exactly once and in order, and the status is
CURRENT exactly when all of them are recorded. -/
def MigratesOnce (collation : Collation) (endsTransaction : String → Bool)
    (dir : List String) : Prop :=
  ∀ (seg rest ids : List String) (runs : List MigrationRun),
    scanMigrations dir = seg ++ rest → Covers prefixId seg ids →
    (∀ run ∈ runs, run.Possible dir endsTransaction) →
    let h := history collation dir { tracker := some ids } runs
    (h.2 = true → h.1.applied.filter (· ∈ rest) = rest) ∧
      ∃ status, checkMigrationStatus collation dir h.1 = .ok status ∧
        (status.state = .current ↔
          ∀ name ∈ rest, prefixId name ∈ h.1.tracker.getD [])

/-! ## The invariant

Each of the lemmas has the same shape, for a step, for a loop, for a run and
for a history: the files stay divided into three parts, and when it returns the
last part is empty. Failures may come anywhere. A step that fails leaves the
division as it is, and the run ends there. -/

/-- The files are `seg`, covered at the start, `new`, applied since, and `rest`.
What else was applied is of the segment. This is the invariant of everything below:
of a step, of a loop, of a run and of a history. -/
structure UpTo (dir seg new rest ids : List String) (db : MigrationDb) : Prop where
  files : scanMigrations dir = seg ++ new ++ rest
  applied : db.applied.filter (· ∈ new ++ rest) = new
  tracker : db.tracker = some ids
  covers : Covers prefixId (seg ++ new) ids
  recorded : ∀ name ∈ new, prefixId name ∈ ids

section

variable {dir seg new rest ids : List String} {db : MigrationDb}

/-- The identifiers increase along the three parts. -/
theorem UpTo.keys (h : UpTo dir seg new rest ids db) (hkeys : Increasing dir) :
    (seg ++ new ++ rest).Pairwise (prefixId · < prefixId ·) :=
  h.files ▸ hkeys

/-- **A step at the first file of the rest**: it has moved over, or nothing has
changed; a step that returns has moved it. There is nothing in between, since its
file is atomic. -/
theorem UpTo.step {name : String} (h : UpTo dir seg new (name :: rest) ids db)
    (hkeys : Increasing dir) {o : Outcome} (ho : o.Whole) :
    (applyMigration db name o = (db, false)) ∨
      ∃ ok db', applyMigration db name o = (db', ok) ∧
        UpTo dir seg (new ++ [name]) rest (ids ++ [prefixId name]) db' := by
  have hnew : prefixId name ∉ ids := h.covers.not_mem (h.keys hkeys) List.mem_cons_self
  rcases applyMigration_whole h.tracker hnew ho with hsame | ⟨ok, hmoved⟩
  · exact .inl hsame
  · refine .inr ⟨ok, _, hmoved, ?_, ?_, rfl, ?_, ?_⟩
    · rw [h.files, List.append_assoc, List.append_assoc, List.append_assoc,
        List.singleton_append]
    · have hfiles : new ++ [name] ++ rest = new ++ name :: rest := by
        rw [List.append_assoc, List.singleton_append]
      rw [hfiles, List.filter_append, h.applied]
      simp
    · rw [← List.append_assoc]
      exact h.covers.concat name
    · intro name' hname'
      rcases List.mem_append.mp hname' with hold | hlast
      · exact List.mem_append_left _ (h.recorded name' hold)
      · rw [List.mem_singleton.mp hlast]
        exact List.mem_append_right _ (List.mem_singleton_self _)

/-- **A step at a file of the segment** that has no row changes nothing that
counts. -/
theorem UpTo.again {name : String} (h : UpTo dir seg new rest ids db)
    (hkeys : Increasing dir) (hname : name ∈ seg ++ new) (hnew : prefixId name ∉ ids)
    {o : Outcome} (ho : o.Whole) :
    (applyMigration db name o = (db, false)) ∨
      ∃ ok db', applyMigration db name o = (db', ok) ∧
        UpTo dir seg new rest (ids ++ [prefixId name]) db' := by
  rcases applyMigration_whole h.tracker hnew ho with hsame | ⟨ok, hmoved⟩
  · exact .inl hsame
  · have hout : name ∉ new ++ rest := by
      intro hmem
      rcases List.mem_append.mp hmem with hnew' | hrest
      · exact hnew (h.recorded name hnew')
      · exact lt_irrefl _ ((List.pairwise_append.mp (h.keys hkeys)).2.2 name hname name hrest)
    refine .inr ⟨ok, _, hmoved, h.files, ?_, rfl, h.covers.again hname, fun name' hname' =>
      List.mem_append_left _ (h.recorded name' hname')⟩
    rw [List.filter_append, h.applied, List.filter_cons_of_neg (by simpa using hout)]
    simp

/-- **A loop over the rest** keeps the invariant, and leaves nothing when it
returns. By induction on the rest. -/
theorem UpTo.applyPending {run : MigrationRun}
    (hrun : ∀ name ∈ rest, (run.outcome name).Whole)
    (hkeys : Increasing dir) (h : UpTo dir seg new rest ids db) :
    ∃ new' rest' ids', UpTo dir seg new' rest' ids' (applyPending run db rest).1 ∧
      ((applyPending run db rest).2 = true → rest' = []) ∧
      (rest = [] → rest' = []) := by
  induction rest generalizing new ids db with
  | nil => exact ⟨new, [], ids, h, fun _ => rfl, fun _ => rfl⟩
  | cons name rest ih =>
    unfold Yascheduler.applyPending
    rcases h.step hkeys (hrun name List.mem_cons_self) with hsame | ⟨ok, db', hmoved, h'⟩
    · rw [hsame]
      exact ⟨new, name :: rest, ids, h, fun hfalse => (nomatch hfalse), id⟩
    · rw [hmoved]
      cases ok with
      | true =>
        obtain ⟨new', rest', ids', hend, hdone, -⟩ :=
          ih (fun name' hname' => hrun name' (List.mem_cons_of_mem name hname')) h'
        exact ⟨new', rest', ids', hend, hdone, fun hnil => (nomatch hnil)⟩
      | false =>
        exact ⟨_, rest, _, h', fun hfalse => (nomatch hfalse), fun hnil => (nomatch hnil)⟩

/-- **A loop that starts inside what is covered** stops there: at the latest at the
last file of it, which has its row. This is what a run does whose query for the last
identifier has failed. -/
theorem UpTo.applyPending_early {run : MigrationRun} {again : List String}
    (hrun : ∀ name ∈ again, (run.outcome name).Whole) (hkeys : Increasing dir)
    (h : UpTo dir seg new rest ids db) (hagain : again <:+ seg ++ new) (hne : again ≠ []) :
    (Yascheduler.applyPending run db (again ++ rest)).2 = false ∧
      ∃ ids', UpTo dir seg new rest ids'
        (Yascheduler.applyPending run db (again ++ rest)).1 := by
  induction again generalizing ids db with
  | nil => exact absurd rfl hne
  | cons name again ih =>
    obtain ⟨front, hfront⟩ := hagain
    have hname : name ∈ seg ++ new := by
      rw [← hfront]
      exact List.mem_append_right _ List.mem_cons_self
    rw [List.cons_append]
    unfold Yascheduler.applyPending
    by_cases hold : prefixId name ∈ ids
    · rw [applyMigration_recorded h.tracker hold]
      exact ⟨rfl, ids, h⟩
    · rcases h.again hkeys hname hold (hrun name List.mem_cons_self) with
        hsame | ⟨ok, db', hmoved, h'⟩
      · rw [hsame]
        exact ⟨rfl, ids, h⟩
      · rw [hmoved]
        cases ok with
        | true =>
          have hrest : again ≠ [] := (hfront ▸ h.covers).rest_ne_nil hold
          exact ih (fun name' hname' => hrun name' (List.mem_cons_of_mem name hname')) h'
            ⟨front ++ [name], by simpa using hfront⟩ hrest
        | false => exact ⟨rfl, _, h'⟩

/-- What a run works on: what is left, perhaps after files that are covered. -/
theorem UpTo.pending (collation : Collation) (run : MigrationRun)
    (hkeys : Increasing dir) (h : UpTo dir seg new rest ids db) :
    ∃ again, again <:+ seg ++ new ∧
      pending (lastApplied collation db run) (scanMigrations dir) = again ++ rest := by
  rw [h.files]
  unfold lastApplied
  split
  · exact ⟨seg ++ new, List.suffix_rfl, rfl⟩
  · rw [h.tracker]
    exact pendingAfter_greatest collation.order h.covers (h.keys hkeys)

/-- **A run** keeps the invariant, and leaves nothing when it returns. Where it
starts depends on the greatest identifier of the tracker, and that may be one before
the last. -/
theorem UpTo.applyMigrations (collation : Collation) {run : MigrationRun}
    (hrun : ∀ name ∈ scanMigrations dir, (run.outcome name).Whole)
    (hkeys : Increasing dir) (h : UpTo dir seg new rest ids db) :
    ∃ new' rest' ids',
      UpTo dir seg new' rest' ids' (applyMigrations collation dir db run).1 ∧
      ((applyMigrations collation dir db run).2 = true → rest' = []) ∧
      (rest = [] → rest' = []) := by
  obtain ⟨again, hagain, hpending⟩ := h.pending collation run hkeys
  unfold Yascheduler.applyMigrations
  rw [hpending]
  by_cases hnil : again = []
  · subst hnil
    exact h.applyPending (fun name hname =>
      hrun name (h.files ▸ List.mem_append_right _ hname)) hkeys
  · have hcovered : ∀ name ∈ again, (run.outcome name).Whole := fun name hname =>
      hrun name (h.files ▸ List.mem_append_left _ (hagain.subset hname))
    obtain ⟨hfails, ids', h'⟩ := h.applyPending_early hcovered hkeys hagain hnil
    exact ⟨new, rest, ids', h', fun hok => Bool.noConfusion (hfails.symm.trans hok), id⟩

/-- **A history** keeps the invariant, and leaves nothing once a run has returned.
By induction on the runs. -/
theorem UpTo.history (collation : Collation) (hkeys : Increasing dir)
    {runs : List MigrationRun}
    (hruns : ∀ run ∈ runs, ∀ name ∈ scanMigrations dir, (run.outcome name).Whole)
    (h : UpTo dir seg new rest ids db) :
    ∃ new' rest' ids', UpTo dir seg new' rest' ids' (history collation dir db runs).1 ∧
      ((history collation dir db runs).2 = true → rest' = []) := by
  suffices hfold : ∀ (done : Bool) new rest ids db, UpTo dir seg new rest ids db →
      (done = true → rest = []) → ∃ new' rest' ids',
        let end_ := runs.foldl (fun s run =>
          let next := Yascheduler.applyMigrations collation dir s.1 run
          (next.1, s.2 || next.2)) (db, done)
        UpTo dir seg new' rest' ids' end_.1 ∧ (end_.2 = true → rest' = []) from
    hfold false new rest ids db h fun hfalse => nomatch hfalse
  clear h
  induction runs with
  | nil => exact fun done new rest ids db h hdone => ⟨new, rest, ids, h, hdone⟩
  | cons run runs ih =>
    intro done new rest ids db h hdone
    obtain ⟨new', rest', ids', h', hok, hnil⟩ :=
      h.applyMigrations collation (hruns run List.mem_cons_self) hkeys
    refine ih (fun r hr => hruns r (List.mem_cons_of_mem run hr)) _ new' rest' ids' _ h' ?_
    intro hor
    rcases Bool.or_eq_true_iff.mp hor with hbefore | hnow
    · exact hnil (hdone hbefore)
    · exact hok hnow

/-- The greatest identifier is that of the last file exactly when nothing is
left. -/
theorem UpTo.greatest_iff {collation : Collation} {file : String} (hkeys : Increasing dir)
    (hlast : LastGreatest collation dir) (hfile : (scanMigrations dir).getLast? = some file)
    (h : UpTo dir seg new rest ids db) :
    greatest collation.order ids = some (prefixId file) ↔ rest = [] := by
  constructor
  · intro hmax
    have hmem : prefixId file ∈ ids := ((greatest_eq_some_iff collation.order).mp hmax).1
    by_contra hne
    refine h.covers.not_mem (h.keys hkeys) (?_ : file ∈ rest) hmem
    rw [h.files, List.getLast?_append_of_ne_nil _ hne] at hfile
    exact List.mem_of_getLast? hfile
  · rintro rfl
    rw [h.files, List.append_nil] at hfile
    refine (greatest_eq_some_iff collation.order).mpr ⟨h.covers.last file hfile, ?_⟩
    intro id hid
    obtain ⟨name, hname, rfl⟩ := h.covers.mem id hid
    have hfiles : scanMigrations dir = seg ++ new := by rw [h.files, List.append_nil]
    exact hlast file (hfiles ▸ hfile) name (hfiles ▸ hname)

/-- All files after the segment are recorded exactly when nothing is left. -/
theorem UpTo.recorded_iff (hkeys : Increasing dir) (h : UpTo dir seg new rest ids db) :
    (∀ name ∈ new ++ rest, prefixId name ∈ db.tracker.getD []) ↔ rest = [] := by
  rw [h.tracker]
  constructor
  · intro hall
    refine List.eq_nil_iff_forall_not_mem.mpr fun name hname => ?_
    exact h.covers.not_mem (h.keys hkeys) hname
      (hall name (List.mem_append_right _ hname))
  · rintro rfl name hname
    rw [List.append_nil] at hname
    exact h.recorded name hname

end

/-- **The status** is CURRENT exactly when the greatest identifier of the tracker is
that of the last file. Nothing else of the tracker is looked at. -/
theorem checkMigrationStatus_current (collation : Collation) {dir ids : List String}
    {db : MigrationDb} {file : String} (hfile : (scanMigrations dir).getLast? = some file)
    (htracker : db.tracker = some ids) :
    ∃ status, checkMigrationStatus collation dir db = .ok status ∧
      (status.state = .current ↔
        greatest collation.order ids = some (prefixId file)) := by
  unfold checkMigrationStatus
  rw [hfile]
  dsimp only
  rw [htracker]
  dsimp only
  cases hmax : greatest collation.order ids with
  | none => exact ⟨_, rfl, iff_of_false (fun hst => nomatch hst) (fun hst => nomatch hst)⟩
  | some applied =>
    refine ⟨_, rfl, ?_⟩
    rcases lt_trichotomy applied (prefixId file) with hlt | heq | hgt
    · simp [hlt, hlt.ne]
    · simp [heq]
    · simp [hgt, hgt.ne', not_lt_of_gt hgt]

/-- On such files the runner does what it is for. -/
theorem migratesOnce_of_increasing {collation : Collation} {endsTransaction : String → Bool}
    {dir : List String} (hne : scanMigrations dir ≠ []) (hkeys : Increasing dir)
    (hlast : LastGreatest collation dir) (hatomic : Atomic endsTransaction dir) :
    MigratesOnce collation endsTransaction dir := by
  intro seg rest₀ ids runs hfiles hcovers hruns
  have hstart : UpTo dir seg [] rest₀ ids { tracker := some ids } := {
    files := by rw [hfiles, List.append_nil]
    applied := rfl
    tracker := rfl
    covers := by rwa [List.append_nil]
    recorded := fun _ hnil => absurd hnil List.not_mem_nil }
  have hwhole : ∀ run ∈ runs, ∀ name ∈ scanMigrations dir, (run.outcome name).Whole :=
    fun run hrun name hname =>
      (hruns run hrun name hname).whole (hatomic name hname).1 (hatomic name hname).2
  obtain ⟨new, rest, ids', hend, hdone⟩ := hstart.history collation hkeys hwhole
  have hrest₀ : rest₀ = new ++ rest := by
    have heq : seg ++ rest₀ = seg ++ (new ++ rest) := by
      rw [← hfiles, hend.files, List.append_assoc]
    exact List.append_cancel_left heq
  refine ⟨fun hok => ?_, ?_⟩
  · have happlied := hend.applied
    rw [← hrest₀] at happlied
    rw [happlied, hrest₀, hdone hok, List.append_nil]
  · obtain ⟨file, hfile⟩ := Option.ne_none_iff_exists'.mp
      (fun hnone => hne (List.getLast?_eq_none_iff.mp hnone))
    obtain ⟨status, hstatus, hcurrent⟩ :=
      checkMigrationStatus_current collation hfile hend.tracker
    refine ⟨status, hstatus, hcurrent.trans ?_⟩
    rw [hrest₀]
    exact (hend.greatest_iff hkeys hlast hfile).trans (hend.recorded_iff hkeys).symm

/-! ## The other direction

That the conditions are needed is shown by runs that violate the property where
one of them fails. Each is a short history: a tracker seeded with a segment,
one file that ends in a certain way, and perhaps a second run. What has to be
shown besides is that such a run is possible for the files in question. -/

/-- A file that is scanned is in the directory. -/
theorem mem_of_mem_scanMigrations {dir : List String} {name : String}
    (h : name ∈ scanMigrations dir) : name ∈ dir := by
  rw [scanMigrations, List.mem_insertionSort] at h
  rcases List.mem_append.mp h with hsql | hpy
  · exact List.mem_of_mem_filter hsql
  · exact List.mem_of_mem_filter hpy

/-- No file is called `.sql`, so that each can be applied. -/
theorem possible_committed {dir : List String} {ends : Bool}
    (hnamed : ".sql" ∉ dir) {run : MigrationRun} {name : String}
    (hname : name ∈ scanMigrations dir) (hrun : run.outcome name = .committed) :
    (run.outcome name).Possible ends name := by
  rw [hrun]
  refine Outcome.possible_committed ?_
  rintro rfl
  exact hnamed (mem_of_mem_scanMigrations hname)

/-- A loop that fails nowhere applies everything that is pending, if no
identifier is recorded twice. -/
theorem applyPending_committed {run : MigrationRun} (names : List String) {ids : List String}
    {db : MigrationDb} (hrun : ∀ name ∈ names, run.outcome name = .committed)
    (htracker : db.tracker = some ids)
    (hnodup : (names.map prefixId).Nodup) (hnew : ∀ name ∈ names, prefixId name ∉ ids) :
    applyPending run db names =
      ({ tracker := some (ids ++ names.map prefixId), applied := db.applied ++ names },
        true) := by
  induction names generalizing ids db with
  | nil =>
    obtain ⟨tracker, applied⟩ := db
    simp only [applyPending, List.map_nil, List.append_nil]
    exact congrArg (fun t => (MigrationDb.mk t applied, true)) htracker
  | cons name names ih =>
    obtain ⟨hfirst, hrest⟩ := List.nodup_cons.mp hnodup
    have hfirst' := applyMigration_committed htracker (hnew name List.mem_cons_self)
    simp only [applyPending, hrun name List.mem_cons_self, hfirst']
    have hdisjoint : ∀ name' ∈ names, prefixId name' ∉ ids ++ [prefixId name] := by
      intro name' hname' hmem
      rcases List.mem_append.mp hmem with hold | hsame
      · exact hnew name' (List.mem_cons_of_mem _ hname') hold
      · exact hfirst (List.mem_singleton.mp hsame ▸ List.mem_map_of_mem hname')
    rw [ih (fun name' hname' => hrun name' (List.mem_cons_of_mem name hname')) rfl hrest
      hdisjoint]
    simp

/-- One identifier is the greatest of itself. -/
theorem greatest_singleton (order : LinearOrder String) (id : String) :
    greatest order [id] = some id :=
  (greatest_eq_some_iff order).mpr ⟨List.mem_singleton_self id, fun _ hid' =>
    le_of_eq (List.mem_singleton.mp hid')⟩

section

variable {collation : Collation} {endsTransaction : String → Bool} {dir : List String}

/-- **A tracker that was seeded with one file** makes the identifiers of all later
files greater, or one of them is skipped. So every pair of files can be tested by a
run that fails in between. -/
theorem MigratesOnce.lt {before after : List String} {name : String}
    (h : MigratesOnce collation endsTransaction dir) (hnamed : ".sql" ∉ dir)
    (hfiles : scanMigrations dir = before ++ [name] ++ after)
    (hdistinct : ((scanMigrations dir).map prefixId).Nodup) :
    ∀ later ∈ after, prefixId name < prefixId later := by
  intro later hlater
  have hpossible : ∀ run ∈ [({} : MigrationRun)], run.Possible dir endsTransaction := by
    intro run hrun
    rw [List.mem_singleton.mp hrun]
    exact fun name hname => possible_committed hnamed hname rfl
  obtain ⟨honce, -⟩ := h (before ++ [name]) after [prefixId name] [{}] hfiles
    (Covers.single before name) hpossible
  let greater := (scanMigrations dir).filter (prefixId name < prefixId ·)
  have hrun : applyMigrations collation dir { tracker := some [prefixId name] } {} =
      ({ tracker := some ([prefixId name] ++ greater.map prefixId),
         applied := greater }, true) := by
    have hpending : pending (lastApplied collation { tracker := some [prefixId name] } {})
        (scanMigrations dir) = greater := by
      show pending (greatest collation.order [prefixId name]) _ = _
      rw [greatest_singleton]
      rfl
    unfold applyMigrations
    rw [hpending]
    refine applyPending_committed greater (fun _ _ => rfl) rfl ?_ ?_
    · exact hdistinct.sublist (List.filter_sublist.map prefixId)
    · intro other hother hmem
      have hlt := of_decide_eq_true (List.mem_filter.mp hother).2
      exact absurd (List.mem_singleton.mp hmem) (ne_of_gt hlt)
  have happlied : greater.filter (· ∈ after) = after := by
    have := honce (by
      show (false || (applyMigrations collation dir
        { tracker := some [prefixId name] } {}).2) = true
      rw [hrun]
      rfl)
    change (applyMigrations collation dir { tracker := some [prefixId name] }
      {}).1.applied.filter (· ∈ after) = after at this
    rwa [hrun] at this
  have hmem : later ∈ greater.filter (· ∈ after) := by
    rw [happlied]
    exact hlater
  exact of_decide_eq_true (List.mem_filter.mp (List.mem_filter.mp hmem).1).2

/-- The identifiers have to increase. -/
theorem MigratesOnce.increasing (h : MigratesOnce collation endsTransaction dir)
    (hnamed : ".sql" ∉ dir) (hdistinct : ((scanMigrations dir).map prefixId).Nodup) :
    Increasing dir := by
  suffices hafter : ∀ before after, scanMigrations dir = before ++ after →
      after.Pairwise (prefixId · < prefixId ·) from hafter [] _ rfl
  intro before after hfiles
  induction after generalizing before with
  | nil => exact .nil
  | cons name after ih =>
    have hfiles' : scanMigrations dir = before ++ [name] ++ after := by
      rw [hfiles, List.append_assoc, List.singleton_append]
    exact .cons (h.lt hnamed hfiles' hdistinct) (ih (before ++ [name]) hfiles')

/-- There has to be a file: without one the status is an error, although nothing is
missing. -/
theorem MigratesOnce.ne_nil (h : MigratesOnce collation endsTransaction dir) :
    scanMigrations dir ≠ [] := by
  intro hnil
  obtain ⟨-, status, hstatus, -⟩ := h [] [] [] [] hnil Covers.nil
    fun _ hmem => absurd hmem List.not_mem_nil
  unfold checkMigrationStatus at hstatus
  rw [hnil] at hstatus
  cases hstatus

/-- **When all files are recorded** and nothing is run, the status is CURRENT
only if the last identifier is the greatest. -/
theorem MigratesOnce.lastGreatest (h : MigratesOnce collation endsTransaction dir) :
    LastGreatest collation dir := by
  intro last hlast name hname
  let ids := (scanMigrations dir).map prefixId
  have hcovers : Covers prefixId (scanMigrations dir) ids := {
    mem := fun _ hid => List.mem_map.mp hid
    last := fun file hfile => List.mem_map_of_mem (List.mem_of_getLast? hfile) }
  obtain ⟨-, status, hstatus, hcurrent⟩ := h (scanMigrations dir) [] ids []
    (List.append_nil _).symm hcovers (fun _ hrun => absurd hrun List.not_mem_nil)
  obtain ⟨status', hstatus', hcurrent'⟩ := checkMigrationStatus_current
    collation hlast (rfl : (MigrationDb.mk (some ids) []).tracker = some ids)
  obtain rfl : status = status' := Except.ok.inj (hstatus.symm.trans hstatus')
  have hmax := hcurrent'.mp (hcurrent.mpr fun _ hnil => absurd hnil List.not_mem_nil)
  exact ((greatest_eq_some_iff collation.order).mp hmax).2 _ (List.mem_map_of_mem hname)

/-- A tracker that covers a segment, and from which a run works on the rest. -/
theorem exists_seed (collation : Collation) {before rest : List String}
    (hkeys : Increasing dir) (hfiles : scanMigrations dir = before ++ rest) :
    ∃ ids, Covers prefixId before ids ∧ ∀ db : MigrationDb, db.tracker = some ids →
      ∀ run : MigrationRun, run.selectFails = false →
        pending (lastApplied collation db run) (scanMigrations dir) = rest := by
  have hlast : ∀ ids (db : MigrationDb), db.tracker = some ids → ∀ run : MigrationRun,
      run.selectFails = false → lastApplied collation db run = greatest collation.order ids := by
    intro ids db htracker run hselect
    unfold lastApplied
    rw [hselect, htracker]
    rfl
  rcases List.eq_nil_or_concat before with rfl | ⟨init, a, rfl⟩
  · refine ⟨[], Covers.nil, fun db htracker run hselect => ?_⟩
    rw [hlast [] db htracker run hselect, (greatest_eq_none_iff collation.order).mpr rfl, hfiles]
    rfl
  · rw [List.concat_eq_append] at hfiles ⊢
    refine ⟨[prefixId a], Covers.single init a, fun db htracker run hselect => ?_⟩
    rw [hlast _ db htracker run hselect, greatest_singleton]
    have hfiles' : scanMigrations dir = init ++ a :: rest := by
      rw [hfiles, List.append_assoc, List.singleton_append]
    rw [hfiles']
    exact pendingAfter_key (hfiles' ▸ hkeys)

/-- A run that ends in this way at one file and well at all others. -/
def MigrationRun.onlyAt (name : String) (o : Outcome) : MigrationRun where
  outcome other := if other = name then o else .committed

/-- It is possible if its one ending is. -/
theorem MigrationRun.possible_onlyAt {name : String} {o : Outcome} (hnamed : ".sql" ∉ dir)
    (ho : o.Possible (endsTransaction name) name) :
    (MigrationRun.onlyAt name o).Possible dir endsTransaction := by
  intro other hother
  by_cases heq : other = name
  · subst heq
    show (if other = other then o else .committed).Possible _ _
    rwa [if_pos rfl]
  · exact possible_committed hnamed hother (if_neg heq)

/-- A tracker from which a run works on a file and what stands after it, none
of which is recorded. -/
theorem MigratesOnce.exists_seed_at {name : String}
    (h : MigratesOnce collation endsTransaction dir) (hnamed : ".sql" ∉ dir)
    (hdistinct : ((scanMigrations dir).map prefixId).Nodup)
    (hname : name ∈ scanMigrations dir) :
    ∃ before after ids, scanMigrations dir = before ++ name :: after ∧
      Covers prefixId before ids ∧
      (∀ db : MigrationDb, db.tracker = some ids → ∀ run : MigrationRun,
        run.selectFails = false →
          pending (lastApplied collation db run) (scanMigrations dir) = name :: after) ∧
      (∀ other ∈ name :: after, prefixId other ∉ ids) ∧
      ((name :: after).map prefixId).Nodup := by
  have hkeys := h.increasing hnamed hdistinct
  obtain ⟨before, after, hfiles⟩ := List.append_of_mem hname
  obtain ⟨ids, hcovers, hpending⟩ := exists_seed collation hkeys hfiles
  exact ⟨before, after, ids, hfiles, hcovers, hpending,
    fun other hother => hcovers.not_mem (hfiles ▸ hkeys) hother,
    hdistinct.sublist ((hfiles ▸ List.sublist_append_right before _).map prefixId)⟩

/-- **A file whose record is retried** can be recorded without being applied: the
second try does not know what the first one has lost. -/
theorem MigratesOnce.not_bodyLost {name : String}
    (h : MigratesOnce collation endsTransaction dir) (hnamed : ".sql" ∉ dir)
    (hdistinct : ((scanMigrations dir).map prefixId).Nodup)
    (hname : name ∈ scanMigrations dir) :
    ¬ Outcome.bodyLost.Possible (endsTransaction name) name := by
  intro ho
  obtain ⟨before, after, ids, hfiles, hcovers, hpending, hnew, hnodup⟩ :=
    h.exists_seed_at hnamed hdistinct hname
  obtain ⟨hfirst, hrest⟩ := List.nodup_cons.mp hnodup
  have hother : ∀ other ∈ after, other ≠ name := by
    rintro other hother rfl
    exact hfirst (List.mem_map_of_mem hother)
  let run := MigrationRun.onlyAt name .bodyLost
  have hrun : applyMigrations collation dir { tracker := some ids } run =
      ({ tracker := some (ids ++ [prefixId name] ++ after.map prefixId),
         applied := after }, true) := by
    have hstep : applyMigration { tracker := some ids } name (run.outcome name) =
        ({ tracker := some (ids ++ [prefixId name]) }, true) := by
      show applyMigration _ name (if name = name then .bodyLost else .committed) = _
      rw [if_pos rfl]
      exact if_neg (hnew name List.mem_cons_self)
    have hloop : applyPending run { tracker := some (ids ++ [prefixId name]) } after = _ :=
      applyPending_committed after (fun other hmem => if_neg (hother other hmem)) rfl hrest
        fun other hmem hids => by
          rcases List.mem_append.mp hids with hold | hsame
          · exact hnew other (List.mem_cons_of_mem name hmem) hold
          · exact hfirst (List.mem_singleton.mp hsame ▸ List.mem_map_of_mem hmem)
    unfold applyMigrations
    rw [hpending _ rfl run rfl, applyPending, hstep]
    exact hloop
  obtain ⟨honce, -⟩ := h before (name :: after) ids [run] hfiles hcovers (by
    intro r hr
    rw [List.mem_singleton.mp hr]
    exact MigrationRun.possible_onlyAt hnamed ho)
  have happlied := honce (by
    show (false || (applyMigrations collation dir { tracker := some ids } run).2) = true
    rw [hrun]
    rfl)
  change (applyMigrations collation dir { tracker := some ids } run).1.applied.filter _ = _
    at happlied
  rw [hrun] at happlied
  have hlength := List.length_filter_le (· ∈ name :: after) after
  rw [happlied, List.length_cons] at hlength
  omega

/-- **A file that ends the transaction** can be applied without being recorded, and
is applied again by the next run. -/
theorem MigratesOnce.not_rowLost {name : String}
    (h : MigratesOnce collation endsTransaction dir) (hnamed : ".sql" ∉ dir)
    (hdistinct : ((scanMigrations dir).map prefixId).Nodup)
    (hname : name ∈ scanMigrations dir) :
    ¬ Outcome.rowLost.Possible (endsTransaction name) name := by
  intro ho
  obtain ⟨before, after, ids, hfiles, hcovers, hpending, hnew, hnodup⟩ :=
    h.exists_seed_at hnamed hdistinct hname
  let run := MigrationRun.onlyAt name .rowLost
  have hfails : applyMigrations collation dir { tracker := some ids } run =
      ({ tracker := some ids, applied := [name] }, false) := by
    have hstep : applyMigration { tracker := some ids } name (run.outcome name) =
        ({ tracker := some ids, applied := [name] }, false) := by
      show applyMigration _ name (if name = name then .rowLost else .committed) = _
      rw [if_pos rfl]
      exact if_neg (hnew name List.mem_cons_self)
    unfold applyMigrations
    rw [hpending _ rfl run rfl, applyPending, hstep]
  have hagain : applyMigrations collation dir { tracker := some ids, applied := [name] } {} =
      ({ tracker := some (ids ++ (name :: after).map prefixId),
         applied := [name] ++ name :: after }, true) := by
    unfold applyMigrations
    rw [hpending _ rfl {} rfl]
    exact applyPending_committed (name :: after) (fun _ _ => rfl) rfl hnodup hnew
  have hend : history collation dir { tracker := some ids } [run, {}] =
      ({ tracker := some (ids ++ (name :: after).map prefixId),
         applied := [name] ++ name :: after }, true) := by
    simp only [history, List.foldl_cons, List.foldl_nil, hfails, hagain, Bool.or_true]
  obtain ⟨honce, -⟩ := h before (name :: after) ids [run, {}] hfiles hcovers (by
    intro r hr
    rcases List.mem_pair.mp hr with rfl | rfl
    · exact MigrationRun.possible_onlyAt hnamed ho
    · exact fun other hother => possible_committed hnamed hother rfl)
  rw [hend] at honce
  have happlied : ([name] ++ name :: after).filter (· ∈ name :: after) = name :: after :=
    honce rfl
  rw [List.filter_eq_self.mpr (by simp +contextual)] at happlied
  have hlength := congrArg List.length happlied
  rw [List.length_append, List.length_singleton] at hlength
  omega

/-- Every file has to be atomic. -/
theorem MigratesOnce.atomic (h : MigratesOnce collation endsTransaction dir)
    (hnamed : ".sql" ∉ dir) (hdistinct : ((scanMigrations dir).map prefixId).Nodup) :
    Atomic endsTransaction dir := by
  intro name hname
  have hpy := h.not_bodyLost hnamed hdistinct hname
  have hends := h.not_rowLost hnamed hdistinct hname
  have hsuffix : name ≠ ".sql" := by
    rintro rfl
    exact hnamed (mem_of_mem_scanMigrations hname)
  unfold Outcome.Possible at hpy hends
  rw [if_neg hsuffix] at hpy hends
  have hkeeps : endsTransaction name = false := eq_false_of_ne_true hends
  exact ⟨eq_true_of_ne_false fun hsql => hpy ⟨hsql, hkeeps⟩, hkeeps⟩

/-- **When migrations are applied exactly once and none is skipped.** For
every set of migration files with distinct identifiers the runner does what it
is for, from every initial tracker and through every history of runs, if and
only if there is a file, the identifiers increase in the order of the names,
the last of them is the greatest for the database, and all files are `.sql`
files that leave the transaction to the runner. -/
theorem migrationsOnce (collation : Collation) (endsTransaction : String → Bool)
    {dir : List String} (hnamed : ".sql" ∉ dir)
    (hdistinct : ((scanMigrations dir).map prefixId).Nodup) :
    MigratesOnce collation endsTransaction dir ↔
      scanMigrations dir ≠ [] ∧ Increasing dir ∧ LastGreatest collation dir ∧
        Atomic endsTransaction dir :=
  ⟨fun h => ⟨h.ne_nil, h.increasing hnamed hdistinct, h.lastGreatest,
      h.atomic hnamed hdistinct⟩,
    fun ⟨hne, hkeys, hlast, hatomic⟩ =>
      migratesOnce_of_increasing hne hkeys hlast hatomic⟩

end

/-- Where the database compares by code points, as Python does, the last identifier
is the greatest when they increase. For other collations it has to be asked for. -/
theorem Increasing.lastGreatest {dir : List String} (h : Increasing dir) :
    LastGreatest .codePoints dir := by
  intro last hlast name hname
  rcases List.eq_nil_or_concat (scanMigrations dir) with hnil | ⟨init, file, hfiles⟩
  · rw [hnil] at hname
    exact absurd hname List.not_mem_nil
  · rw [List.concat_eq_append] at hfiles
    unfold Increasing at h
    rw [hfiles] at h hlast hname
    obtain rfl : file = last := by simpa using hlast
    rcases List.mem_append.mp hname with hinit | hfile
    · exact ((List.pairwise_append.mp h).2.2 name hinit file (List.mem_singleton_self _)).le
    · rw [List.mem_singleton.mp hfile]
      exact le_refl (prefixId file)

/-- Three files as the package names them: identifiers of three digits, so the last
one is the greatest. -/
theorem migrationsOnce_three :
    MigratesOnce .codePoints (fun _ => false)
      ["002_add_node_id.sql", "001_add_username_port.sql", "010_last.sql"] :=
  (migrationsOnce .codePoints _ (by decide) (by decide)).mpr
    ⟨by decide, by decide, Increasing.lastGreatest (by decide), by decide⟩

/-- **A file is skipped.** With identifiers of different lengths, a run that fails
at its second file is followed by one that returns without applying it. Its name
comes last and its identifier does not. -/
theorem migration_skipped :
    ¬ MigratesOnce .codePoints (fun _ => false) ["1_a.sql", "10_b.sql"] := by
  intro h
  obtain ⟨honce, -⟩ := h [] ["10_b.sql", "1_a.sql"] []
    [.onlyAt "1_a.sql" .rolledBack, {}] (by decide) Covers.nil (by
      intro run hrun
      rcases List.mem_pair.mp hrun with rfl | rfl
      · exact MigrationRun.possible_onlyAt (by decide) (by trivial)
      · exact fun name hname => possible_committed (by decide) hname rfl)
  exact absurd (honce (by decide)) (by decide)

end Yascheduler
