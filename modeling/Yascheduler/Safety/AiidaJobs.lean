import Mathlib.Data.List.DropRight
import Yascheduler.Application.Aiida
import Yascheduler.Safety.Metadata

/-!
# What AiiDA is told

AiiDA has two conversations with the scheduler, both through texts: it submits a
calculation with a script, and it asks for jobs by the names it was given. What
it is told about jobs is what the database says, for every state of the
database. What the scheduler is told about a calculation is what AiiDA wrote as
long as each value is a line of its own, without a `=` and without space around
it, and only then.

## Texts in between

Nothing that is said here is about the two programs alone. A job state has to
survive being printed and parsed, a name has to survive the shell, and both depend
on what the other side takes for a separator. So the results are about the
composition: what comes out of the parser of the plugin for what the tool prints,
and what comes out of the parser of the tool for what the plugin writes.
-/

namespace Yascheduler

open Store

/-- Reading what was written, one by one. -/
theorem mapM_map_pure {m : Type → Type} [Monad m] [LawfulMonad m] {α β γ : Type} {f : β → m γ}
    {g : α → β} {h : α → γ} {l : List α} (hf : ∀ a ∈ l, f (g a) = pure (h a)) :
    (l.map g).mapM f = pure (l.map h) := by
  induction l with
  | nil => rfl
  | cons a l ih =>
    obtain ⟨ha, hl⟩ := List.forall_mem_cons.mp hf
    rw [List.map_cons, List.mapM_cons, ha, pure_bind, ih hl, pure_bind, List.map_cons]

/-! ## Names and states of jobs

A job is known to AiiDA by the number of its task, written with digits, and its
state by the name of the status. Both are single words, which is why they
survive the output of a table: the parser takes the line apart at white space.
-/

namespace TaskId

/-- A name has a digit at least. -/
theorem text_ne_nil (t : TaskId) : t.text ≠ [] := (Text.isNumeral_toDigits t.value).1

/-- It has nothing but digits, so it is one word, and nothing in it ends a line. -/
theorem isDigit_text (t : TaskId) {c : Char} (hc : c ∈ t.text) : c.isDigit = true :=
  (Text.isNumeral_toDigits t.value).2 c hc

theorem isSpace_text (t : TaskId) : ∀ c ∈ t.text, Text.isSpace c = false :=
  fun _ hc => Text.isSpace_of_isDigit (t.isDigit_text hc)

/-- The name of a task is its number. -/
theorem int_text {t : TaskId} (h : t.value < 2 ^ 31) : Text.int t.text = some (t.value : Int) := by
  have hlen : t.text.length ≤ 10 :=
    (Nat.length_toDigits_le_iff (by decide) (by decide)).mpr (by omega)
  have hmax : ¬ Text.maxStrDigits < t.text.length := by
    unfold Text.maxStrDigits
    omega
  unfold text at hmax ⊢
  rw [Text.int_of_isNumeral (Text.isNumeral_toDigits _), if_neg hmax]
  exact congrArg (fun n : Nat => some (n : Int)) (Text.value_toDigits t.value)

/-- Different tasks have different names. -/
theorem text_injective : Function.Injective TaskId.text := by
  intro s t h
  have hvalue : s.value = t.value := by
    rw [← Text.value_toDigits s.value, ← Text.value_toDigits t.value]
    exact congrArg Text.value h
  cases s
  cases t
  cases hvalue
  rfl

/-- The number of a task is read as its identifier. -/
theorem ofInt_value (t : TaskId) : TaskId.ofInt t.value = .ok t := by
  have hpos : (0 : Int) < t.value := Int.natCast_pos.mpr t.pos
  unfold ofInt
  rw [dif_pos hpos]
  rfl

end TaskId

namespace TaskStatus

/-- A status has a name that is not empty. -/
theorem name_ne_nil (status : TaskStatus) : status.name ≠ [] := by
  cases status <;> decide

/-- It is one word. -/
theorem isSpace_name (status : TaskStatus) : ∀ c ∈ status.name, Text.isSpace c = false := by
  cases status <;> exact Text.forall_of_all (by decide)

/-- The plugin knows the names of all statuses. -/
theorem mapStatus_name (status : TaskStatus) :
    mapStatus.get status.name = some status.jobState := by
  cases status <;> decide

end TaskStatus

/-- A word with a line feed after it. -/
theorem strip_append_lf {word : List Char} (hne : word ≠ [])
    (h : ∀ c ∈ word, Text.isSpace c = false) :
    Text.strip (word ++ ['\n']) = word := by
  have hdrop : ∀ {w : List Char}, (∀ c ∈ w, Text.isSpace c = false) → ∀ rest, w ≠ [] →
      (w ++ rest).dropWhile Text.isSpace = w ++ rest := by
    intro w hw rest hne
    cases w with
    | nil => exact absurd rfl hne
    | cons c w => exact List.dropWhile_cons_of_neg (by simp [hw c List.mem_cons_self])
  have hrev := hdrop (w := word.reverse) (fun c hc => h c (List.mem_reverse.mp hc)) []
    (by simpa using hne)
  rw [List.append_nil] at hrev
  unfold Text.strip Text.stripBy
  rw [hdrop h _ hne, List.reverse_append, List.reverse_singleton, List.singleton_append,
    List.dropWhile_cons_of_pos rfl, hrev, List.reverse_reverse]

/-- **AiiDA keeps the name of a job** as `yasubmit` has printed it. What is printed
is a line, and what is kept is stripped. -/
theorem parseSubmitOutput_render (t : TaskId) : parseSubmitOutput (renderSubmitted t) = t.text :=
  strip_append_lf t.text_ne_nil t.isSpace_text

/-! ## The list of jobs

Every line has two words, so no task can be mistaken for two or for none. The
lines are joined with line feeds and cut again, and nothing that is printed has
a line break of any kind in it. -/

/-- The job that a task is for AiiDA. -/
def jobOf (task : AnyTask) : JobInfo where
  jobId := task.taskId.text
  jobState := task.state.status.jobState

/-- The line of a task. -/
def jobLine (task : AnyTask) : List Char :=
  task.taskId.text ++ "   ".toList ++ task.state.status.name

/-- A line has two words, whatever the task is. -/
theorem words_jobLine (task : AnyTask) :
    Text.words Text.isSpace (jobLine task) = [task.taskId.text, task.state.status.name] := by
  have hline : jobLine task =
      task.taskId.text ++ ' ' :: ' ' :: ' ' :: task.state.status.name :=
    List.append_assoc ..
  rw [hline, Text.words_append_word rfl task.taskId.text_ne_nil task.taskId.isSpace_text,
    Text.words_cons rfl, Text.words_cons rfl,
    Text.words_of_word (TaskStatus.name_ne_nil _) (TaskStatus.isSpace_name _)]

/-- They are read as the job that the task is. -/
theorem parseJob_jobLine (task : AnyTask) : parseJob (jobLine task) = .ok (jobOf task) := by
  unfold parseJob
  rw [words_jobLine]
  dsimp only
  rw [TaskStatus.mapStatus_name]
  rfl

/-- No word has a line feed. -/
theorem ne_lf_jobLine (task : AnyTask) : ∀ c ∈ jobLine task, (c == '\n') = false := by
  have hword : ∀ {w : List Char}, (∀ c ∈ w, Text.isSpace c = false) → ∀ c ∈ w, (c == '\n') = false := by
    intro w hw c hc
    refine beq_false_of_ne ?_
    rintro rfl
    cases hw _ hc
  intro c hc
  rcases List.mem_append.mp hc with hc | hc
  · rcases List.mem_append.mp hc with hc | hc
    · exact hword (TaskId.isSpace_text _) c hc
    · exact Text.forall_of_all (p := (· == '\n')) (by decide) c hc
  · exact hword (TaskStatus.isSpace_name _) c hc

/-- **The printed list is read as it was meant.** No line is lost, and none is read
twice. -/
theorem parseJoblistOutput_render (tasks : List AnyTask) :
    parseJoblistOutput (renderDefault tasks) = .ok (tasks.map jobOf) := by
  have hlines : ((renderDefault tasks).splitOn '\n').filter (fun job => !job.isEmpty) =
      tasks.map jobLine := by
    refine Text.words_flatMap (p := (· == '\n')) (f := jobLine) rfl fun task _ =>
      ⟨?_, ne_lf_jobLine task⟩
    simp [jobLine, TaskId.text_ne_nil]
  unfold parseJoblistOutput
  rw [hlines]
  exact mapM_map_pure fun task _ => parseJob_jobLine task

/-! ## Asking for jobs

The names are put into a command line, which the shell takes apart and the tool
parses again. With no names the same command asks for something else, for the
jobs that are not finished. This is what the code does, and the statement
covers it. -/

theorem ne_blank_text (t : TaskId) : ∀ c ∈ t.text, (c == ' ') = false := by
  intro c hc
  refine beq_false_of_ne ?_
  rintro rfl
  cases t.isSpace_text _ hc

/-- **The command is understood** as it was meant. The shell takes it apart at its
blanks, and the names have none. -/
theorem parseStatusArgs_joblistCommand {ids : List TaskId} (hids : ∀ t ∈ ids, t.value < 2 ^ 31) :
    parseStatusArgs (shellWords (joblistCommand (ids.map TaskId.text))).tail =
      some (ids.map fun t => (t.value : Int)) := by
  cases ids with
  | nil => decide
  | cons t ids =>
    have hjobs : ∀ w ∈ (t :: ids).map TaskId.text, w ≠ [] ∧ ∀ c ∈ w, (c == ' ') = false := by
      intro w hw
      obtain ⟨t, -, rfl⟩ := List.mem_map.mp hw
      exact ⟨t.text_ne_nil, ne_blank_text t⟩
    have hcommand : joblistCommand ((t :: ids).map TaskId.text) = "yastatus".toList ++ ' ' ::
        ("--jobs".toList ++ ' ' :: [' '].intercalate ((t :: ids).map TaskId.text)) := by
      have hoption : "--jobs ".toList = "--jobs".toList ++ [' '] := by decide
      unfold joblistCommand
      rw [hoption]
      simp [List.intercalate_cons_cons]
    have hwords : shellWords (joblistCommand ((t :: ids).map TaskId.text)) =
        "yastatus".toList :: "--jobs".toList :: (t :: ids).map TaskId.text := by
      unfold shellWords
      rw [hcommand, Text.words_append_word rfl (by decide) (Text.forall_of_all (by decide)),
        Text.words_append_word rfl (by decide) (Text.forall_of_all (by decide)),
        Text.words_intercalate rfl hjobs]
    rw [hwords]
    unfold parseStatusArgs
    exact mapM_map_pure fun t ht => TaskId.int_text (hids t ht)

/-- What is asked for: the jobs, or those that are not finished. An empty list of
jobs asks for the second. -/
def Asked (ids : List TaskId) (t : TaskId) (row : TaskRow) : Prop :=
  if ids = [] then row.status ≠ .done else t ∈ ids

instance (ids : List TaskId) (t : TaskId) (row : TaskRow) : Decidable (Asked ids t row) :=
  inferInstanceAs (Decidable (if ids = [] then row.status ≠ .done else t ∈ ids))

/-- The tool finds the rows that are asked for. -/
theorem queryTasks_ok (db : Database) (c : Conn) {ids : List TaskId}
    (hids : ∀ t ∈ ids, t.value < 2 ^ 31) :
    queryTasks db c (ids.map fun t => (t.value : Int)) =
      .ok (((db.visibleTasks c).filter fun r => Asked ids r.1 r.2).map
        fun r => r.2.toTask r.1) := by
  unfold queryTasks
  cases ids with
  | nil =>
    have hactive : ∀ status : TaskStatus,
        status ∈ [TaskStatus.running, .toDo] ↔ status ≠ .done := by
      intro status
      cases status <;> decide
    simp only [Database.listByStatus, hactive]
    rfl
  | cons t ids =>
    have hread : ((t :: ids).map fun t => (t.value : Int)).mapM TaskId.ofInt =
        .ok (t :: ids) := by
      have h := mapM_map_pure (f := TaskId.ofInt) (h := id) (l := t :: ids)
        fun t _ => t.ofInt_value
      rwa [List.map_id] at h
    have hall : (t :: ids).all (·.value < 2 ^ 31) = true := by
      simpa using hids
    rw [hread]
    show Database.listByJobs db c (t :: ids) = _
    unfold Database.listByJobs
    rw [if_pos hall]
    rfl

/-- **AiiDA is told what the database says.** Whatever the database is, the jobs
that AiiDA gets are one for each row it asks for: by the names that `yasubmit` has
printed, or all rows that are not finished. Each has its name and the state that
stands for the status of the row, and no two have the same name. -/
theorem aiidaSeesJobs (db : Database) (c : Conn) {ids : List TaskId}
    (hids : ∀ t ∈ ids, t.value < 2 ^ 31) :
    ∃ jobs, getJobs db c (ids.map fun t => parseSubmitOutput (renderSubmitted t)) = .ok jobs ∧
      (jobs.map (·.jobId)).Nodup ∧
      ∀ job, job ∈ jobs ↔ ∃ t row, (t, row) ∈ db.visibleTasks c ∧ Asked ids t row ∧
        job = ⟨parseSubmitOutput (renderSubmitted t), row.status.jobState⟩ := by
  have hnames : (ids.map fun t => parseSubmitOutput (renderSubmitted t)) =
      ids.map TaskId.text := List.map_congr_left fun t _ => parseSubmitOutput_render t
  have hquery := queryTasks_ok db c hids
  rw [hnames]
  unfold getJobs yastatus
  rw [parseStatusArgs_joblistCommand hids]
  dsimp only
  rw [hquery]
  dsimp only
  rw [parseJoblistOutput_render]
  refine ⟨_, rfl, ?_, fun job => ?_⟩
  · rw [List.map_map, List.map_map]
    have hsub : (((db.visibleTasks c).filter fun r => Asked ids r.1 r.2).map Prod.fst).Nodup :=
      (List.filter_sublist.map Prod.fst).nodup (db.nodup_rowsOf _)
    have hmap := hsub.map TaskId.text_injective
    rw [List.map_map] at hmap
    exact hmap
  · simp only [List.mem_map, List.mem_filter, decide_eq_true_eq]
    constructor
    · rintro ⟨_, ⟨⟨t, row⟩, ⟨hrow, hasked⟩, rfl⟩, rfl⟩
      refine ⟨t, row, hrow, hasked, ?_⟩
      rw [parseSubmitOutput_render, ← row.state_status]
      rfl
    · rintro ⟨t, row, hrow, hasked, rfl⟩
      refine ⟨_, ⟨(t, row), ⟨hrow, hasked⟩, rfl⟩, ?_⟩
      rw [parseSubmitOutput_render, ← row.state_status]
      rfl

namespace AiidaJobs

/-- A finished task. -/
def database : Database := .ofLists [{ engine := "pcrystal", status := .done }] []

end AiidaJobs

/-- A finished job is still found under its name. -/
theorem aiidaSeesJobs_done : ∃ jobs, getJobs AiidaJobs.database ⟨⟨0, 1⟩, 1⟩
    ([1].map fun t => parseSubmitOutput (renderSubmitted t)) = .ok jobs ∧
      ⟨parseSubmitOutput (renderSubmitted 1), .done⟩ ∈ jobs := by
  obtain ⟨jobs, hjobs, -, hmem⟩ :=
    @aiidaSeesJobs AiidaJobs.database ⟨⟨0, 1⟩, 1⟩ [1] (by decide)
  exact ⟨jobs, hjobs, (hmem _).mpr ⟨1, _, List.mem_cons_self, List.mem_singleton_self 1, rfl⟩⟩

/-! ## The script

The script is written by AiiDA from values that a user may choose, and read by
`yasubmit` line by line. There is no quoting. A value with a line break or a
sign in it changes what is read, so the result is an equivalence: the values
that are understood are the plain ones, and no others. -/

/-- What is left of a stripped text was in it. -/
theorem mem_of_mem_strip {s : List Char} {c : Char} (h : c ∈ Text.strip s) : c ∈ s :=
  (List.dropWhile_sublist _).subset
    (List.mem_reverse.mp ((List.dropWhile_sublist _).subset (List.mem_reverse.mp h)))

/-- What was stripped has nothing to strip. -/
@[simp] theorem strip_strip (s : List Char) : Text.strip (Text.strip s) = Text.strip s := by
  have hstrip : ∀ s, Text.strip s = (s.dropWhile Text.isSpace).rdropWhile Text.isSpace := fun _ => rfl
  have hhead : (Text.strip s).dropWhile Text.isSpace = Text.strip s := by
    rw [List.dropWhile_eq_self_iff]
    intro hpos
    have hpre : Text.strip s <+: s.dropWhile Text.isSpace := List.rdropWhile_prefix Text.isSpace _
    have hfirst := List.dropWhile_eq_self_iff.mp (List.dropWhile_idempotent Text.isSpace s)
    rw [hpre.getElem hpos]
    exact hfirst _
  rw [hstrip (Text.strip s), hhead, hstrip s, List.rdropWhile_idempotent]

/-- **A value that a line can hold**: without a `=`, on one line, and without space
around it. The scheduler splits at lines and at signs, and strips what it finds. -/
structure PlainValue (v : List Char) : Prop where
  noSign : '=' ∉ v
  line : ∀ c ∈ v, Text.isLineBreak c = false
  stripped : Text.strip v = v

/-- A plain value, by looking through it. -/
theorem plainValue_of_all {v : List Char} (hsign : '=' ∉ v)
    (hline : (v.all fun c => !Text.isLineBreak c) = true) (hstrip : Text.strip v = v) :
    PlainValue v :=
  ⟨hsign, Text.forall_of_all hline, hstrip⟩

/-- Empty lines are no entries. -/
theorem scriptEntries_eq (text : List Char) :
    scriptEntries text = (Text.words Text.isLineBreak text).filterMap scriptEntry := by
  have hempty : ∀ line, (if (!List.isEmpty line) = true then scriptEntry line else none) =
      scriptEntry line := by
    intro line
    cases line <;> rfl
  rw [← Text.filter_splitlines, List.filterMap_filter]
  simp only [hempty]
  rfl

/-- A line feed ends an entry. -/
theorem scriptEntries_append_lf (s t : List Char) :
    scriptEntries (s ++ '\n' :: t) = scriptEntries s ++ scriptEntries t := by
  rw [scriptEntries_eq, scriptEntries_eq, scriptEntries_eq, Text.words_append_cons rfl,
    List.filterMap_append]

/-- Lines are read one by one. -/
theorem scriptEntries_lines (lines : List (List Char)) :
    scriptEntries (['\n'].intercalate lines) = lines.flatMap scriptEntries := by
  induction lines with
  | nil => rfl
  | cons line lines ih =>
    cases lines with
    | nil => simp
    | cons line' lines =>
      rw [List.intercalate_cons_cons, List.append_assoc, List.singleton_append,
        scriptEntries_append_lf, ih]
      exact List.flatMap_cons.symm

/-- The line of a plain value. -/
theorem scriptEntries_line {k v : List Char} (hk : PlainValue k) (hv : PlainValue v) :
    scriptEntries (k ++ '=' :: v) = [(String.ofList k, String.ofList v)] := by
  have hline : ∀ c ∈ k ++ '=' :: v, Text.isLineBreak c = false := by
    intro c hc
    rw [List.mem_append, List.mem_cons] at hc
    rcases hc with hc | rfl | hc
    · exact hk.line c hc
    · rfl
    · exact hv.line c hc
  have hentry : scriptEntry (k ++ '=' :: v) = some (String.ofList k, String.ofList v) := by
    unfold scriptEntry
    rw [Text.cut_append hk.noSign hv.noSign]
    dsimp only
    rw [hk.stripped, hv.stripped]
  rw [scriptEntries_eq, Text.words_of_word (by simp) hline, List.filterMap_cons, hentry,
    List.filterMap_nil]

/-- Whatever is read is plain. So a value that is not plain is never found as what
it is. -/
theorem plainValue_of_mem {text : List Char} {e : String × String}
    (h : e ∈ scriptEntries text) : PlainValue e.2.toList := by
  rw [scriptEntries_eq] at h
  obtain ⟨line, hline, hentry⟩ := List.mem_filterMap.mp h
  unfold scriptEntry at hentry
  split at hentry
  · rename_i k v hcut
    obtain ⟨rfl, -, hsign⟩ := Text.cut_eq_some_iff.mp hcut
    cases hentry
    rw [String.toList_ofList]
    refine ⟨fun hmem => hsign v rfl (mem_of_mem_strip hmem), fun c hc => ?_, strip_strip v⟩
    refine Text.not_mem_words hline c (List.mem_append_right k ?_)
    exact List.mem_cons_of_mem _ (mem_of_mem_strip hc)
  · cases hentry

/-- The script that AiiDA writes: the header between lines of its own. -/
def aiidaScript (pre header post : List Char) : List Char :=
  pre ++ '\n' :: (header ++ '\n' :: post)

/-- The scheduler has found the values that AiiDA meant. That there is no caller has
to be found as well. -/
structure Understood (script : Dict String String) (engine : List Char)
    (parent : Option (List Char)) (label : List Char) : Prop where
  engine : script.get "ENGINE" = some (String.ofList engine)
  parent : script.get "PARENT" = parent.map String.ofList
  label : script.get "LABEL" = some (String.ofList label)

section

variable {engine label : List Char} {parent : Option (List Char)}

/-- The entries of a header with plain values. -/
theorem scriptEntries_header (hengine : PlainValue engine)
    (hparent : ∀ uuid ∈ parent, PlainValue uuid) (hlabel : PlainValue label) :
    scriptEntries (['\n'].intercalate (headerLines engine parent label)) =
      ("ENGINE", String.ofList engine) ::
        ((parent.toList.map fun uuid => ("PARENT", String.ofList uuid)) ++
          [("LABEL", String.ofList label)]) := by
  have hkey : ∀ k ∈ ["ENGINE", "PARENT", "LABEL"], PlainValue k.toList := by
    intro k hk
    simp only [List.mem_cons, List.not_mem_nil, or_false] at hk
    rcases hk with rfl | rfl | rfl <;> exact plainValue_of_all (by decide) (by decide) (by decide)
  have hline : ∀ k ∈ ["ENGINE", "PARENT", "LABEL"], ∀ v, PlainValue v →
      scriptEntries (k.toList ++ '=' :: v) = [(k, String.ofList v)] := by
    intro k hk v hv
    rw [scriptEntries_line (hkey k hk) hv, String.ofList_toList]
  have hengineLine : "ENGINE=".toList ++ engine = "ENGINE".toList ++ '=' :: engine := rfl
  have hparentLine : ∀ uuid, "PARENT=".toList ++ uuid = "PARENT".toList ++ '=' :: uuid :=
    fun _ => rfl
  have hlabelLine : "LABEL=".toList ++ label = "LABEL".toList ++ '=' :: label := rfl
  rw [scriptEntries_lines]
  unfold headerLines
  rw [hengineLine, hlabelLine, List.cons_append, List.flatMap_cons,
    hline _ (by decide) _ hengine, List.flatMap_append, List.flatMap_singleton,
    hline _ (by decide) _ hlabel, List.singleton_append]
  cases parent with
  | none => rfl
  | some uuid =>
    rw [Option.toList_some, List.map_singleton, List.flatMap_singleton, hparentLine,
      hline _ (by decide) _ (hparent uuid rfl), List.map_singleton]

/-- The entries of the whole script. -/
theorem scriptEntries_script (pre header post : List Char) :
    scriptEntries (aiidaScript pre header post) =
      scriptEntries pre ++ (scriptEntries header ++ scriptEntries post) := by
  unfold aiidaScript
  rw [scriptEntries_append_lf, scriptEntries_append_lf]

/-- Whatever the scheduler has found is plain. -/
theorem plainValue_of_get {text : List Char} {k : String} {v : List Char}
    (h : (parseScriptMetadata text).get k = some (String.ofList v)) : PlainValue v := by
  rcases Dict.mem_of_get_update h with hmem | hnil
  · simpa using plainValue_of_mem hmem
  · cases hnil

end

/-- **The scheduler is told what AiiDA means exactly if the values are plain**: the
name of the engine, the caller if there is one, and the name of the job. What AiiDA
writes before the header may not name a caller, and what it writes after it may not
say anything else about the three. The last entry of a key counts, which is why the
two conditions differ. -/
theorem scriptIsUnderstood {load : Int → Except Exc AiidaNode} {lower : List Char → List Char}
    {jobName pre post : List Char} {pk : Int} {node : AiidaNode}
    (hpk : jobPk jobName = .ok pk) (hnode : load pk = .ok node)
    (hpre : ∀ e ∈ scriptEntries pre, e.1 ≠ "PARENT")
    (hpost : ∀ e ∈ scriptEntries post, e.1 ∉ ["ENGINE", "PARENT", "LABEL"]) :
    ∃ header, submitScriptHeader load lower jobName = .ok header ∧
      (Understood (parseScriptMetadata (aiidaScript pre header post)) (lower node.codeLabel)
          node.caller jobName ↔
        PlainValue (lower node.codeLabel) ∧ (∀ uuid ∈ node.caller, PlainValue uuid) ∧
          PlainValue jobName) := by
  refine ⟨['\n'].intercalate (headerLines (lower node.codeLabel) node.caller jobName), ?_, ?_⟩
  · unfold submitScriptHeader
    rw [hpk]
    show (load pk >>= fun node => _) = _
    rw [hnode]
    rfl
  · constructor
    · rintro ⟨hengine, hparent, hlabel⟩
      refine ⟨plainValue_of_get hengine, ?_, plainValue_of_get hlabel⟩
      intro uuid huuid
      rw [huuid] at hparent
      exact plainValue_of_get hparent
    · rintro ⟨hengine, hparent, hlabel⟩
      have hentries := scriptEntries_script pre (['\n'].intercalate
        (headerLines (lower node.codeLabel) node.caller jobName)) post
      rw [scriptEntries_header hengine hparent hlabel] at hentries
      have hlast : ∀ k ∈ ["ENGINE", "PARENT", "LABEL"], ∀ e ∈ scriptEntries post, e.1 ≠ k := by
        rintro k hk e he rfl
        exact hpost e he hk
      unfold parseScriptMetadata
      rw [hentries, List.cons_append, List.append_assoc]
      generalize scriptEntries pre = before at hpre
      generalize scriptEntries post = after at hlast
      refine ⟨Dict.get_update_last _ ?_, ?_, ?_⟩
      · rw [List.forall_mem_append]
        exact ⟨by simp, List.forall_mem_cons.mpr ⟨by simp, hlast _ (by simp)⟩⟩
      · cases node.caller with
        | none =>
          refine Dict.get_update_of_notMem (List.forall_mem_append.mpr ⟨hpre, ?_⟩)
          refine List.forall_mem_cons.mpr ⟨by simp, ?_⟩
          exact List.forall_mem_cons.mpr ⟨by simp, hlast _ (by simp)⟩
        | some uuid =>
          rw [← List.singleton_append, ← List.append_assoc, Option.toList_some,
            List.map_singleton, List.singleton_append]
          exact Dict.get_update_last _ (List.forall_mem_cons.mpr ⟨by simp, hlast _ (by simp)⟩)
      · rw [← List.cons_append, ← List.append_assoc]
        exact Dict.get_update_last _ (hlast _ (by simp))

namespace AiidaJobs

/-- A calculation that some workflow has started. -/
def calculation : AiidaNode where
  codeLabel := "pcrystal".toList
  caller := some "6ba7b810".toList

end AiidaJobs

/-- The script of a calculation that a workflow has started. -/
theorem scriptIsUnderstood_job : ∃ header,
    submitScriptHeader (fun _ => .ok AiidaJobs.calculation) id "aiida-42".toList = .ok header ∧
      Understood (parseScriptMetadata (aiidaScript "#!/bin/bash".toList header "a=b".toList))
        "pcrystal".toList (some "6ba7b810".toList) "aiida-42".toList := by
  obtain ⟨header, hheader, hiff⟩ := @scriptIsUnderstood (fun _ => .ok AiidaJobs.calculation) id
    "aiida-42".toList "#!/bin/bash".toList "a=b".toList 42 AiidaJobs.calculation
    (by decide) rfl (by decide) (by decide)
  refine ⟨header, hheader, hiff.mpr ⟨plainValue_of_all (by decide) (by decide) (by decide),
    ?_, plainValue_of_all (by decide) (by decide) (by decide)⟩⟩
  rintro _ ⟨⟩
  exact plainValue_of_all (by decide) (by decide) (by decide)

end Yascheduler
