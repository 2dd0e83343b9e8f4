import Yascheduler.Application.InputFiles
import Yascheduler.Codec.Lines

/-!
# AiiDA

AiiDA knows nothing of the database. It writes a script whose first lines say
what is to be calculated, has `yasubmit` read it, and keeps what this prints as
the name of the job; it then runs `yastatus` with such names and reads its
output. The shell cuts these commands at their blanks: they have no quotes.

Of the options of `yastatus` only `--jobs` is here, and of its renderers the one
for AiiDA. AiiDA itself is a parameter: the calculation that belongs to a job.

What is passed between the two programs are lines and words, so every value that
contains what ends a line, or a word, or what separates a key from a value, is
read as something else at the other end. None of this is escaped anywhere.
-/

namespace Yascheduler

open Store

/-! ## `yastatus`

The tool prints one line for each row, and its exit says nothing about jobs it
has not found. What it is asked for is either a list of identifiers or a list
of statuses, and with an empty list of the former it takes the latter. -/

/-- `str(task_id)`. -/
def TaskId.text (t : TaskId) : List Char := Nat.toDigits 10 t.value

/-- `status.name`. -/
def TaskStatus.name : TaskStatus → List Char
  | .toDo => "TO_DO".toList
  | .running => "RUNNING".toList
  | .done => "DONE".toList

/-- `list_by_status`. -/
def Database.listByStatus (db : Database) (c : Conn) (statuses : List TaskStatus) :
    List AnyTask :=
  ((db.visibleTasks c).filter (·.2.status ∈ statuses)).map fun r => r.2.toTask r.1

/-- `list_by_jobs`. The identifiers are cast to 32 bits. -/
def Database.listByJobs (db : Database) (c : Conn) (jobs : List TaskId) :
    Except Exc (List AnyTask) :=
  if jobs.all (·.value < 2 ^ 31) then
    .ok (((db.visibleTasks c).filter (·.1 ∈ jobs)).map fun r => r.2.toTask r.1)
  else
    .error (.database "integer out of range")

theorem TaskId.toNat_pos {i : Int} (h : 0 < i) : 0 < i.toNat := Int.lt_toNat.mpr h

/-- `TaskId(i)`. -/
def TaskId.ofInt (i : Int) : Except Exc TaskId :=
  if h : 0 < i then .ok ⟨i.toNat, toNat_pos h⟩
  else .error (.other ("TaskId must be > 0, got " ++ toString i))

/-- `_query_tasks`. -/
def queryTasks (db : Database) (c : Conn) (jobs : List Int) : Except Exc (List AnyTask) :=
  if jobs.isEmpty then .ok (db.listByStatus c [.running, .toDo])
  else do
    let jobs ← jobs.mapM TaskId.ofInt
    db.listByJobs c jobs

/-- `_render_default`. -/
def renderDefault (tasks : List AnyTask) : List Char :=
  tasks.flatMap fun task =>
    (task.taskId.text ++ "   ".toList ++ task.state.status.name) ++ ['\n']

/-- `_parse_status_args`; `none` if the arguments are refused. -/
def parseStatusArgs : List (List Char) → Option (List Int)
  | [] => some []
  | option :: words => if option = "--jobs".toList then words.mapM Text.int else none

/-- **`yastatus`**: what it prints to its standard output. -/
def yastatus (db : Database) (c : Conn) (argv : List (List Char)) : List Char :=
  match parseStatusArgs argv with
  | none => []
  | some jobs =>
    match queryTasks db c jobs with
    | .ok tasks => renderDefault tasks
    | .error _ => []

/-! ## `yasubmit`

The script is read line by line, and a line is an entry if it has exactly one
sign. Everything else is passed over without an error, which is why the header
can stand among the lines of a shell script. -/

/-- A line of the script, if it has exactly one `=`. -/
def scriptEntry (line : List Char) : Option (String × String) :=
  match Text.cut '=' line with
  | some (k, some v) => some (String.ofList (Text.strip k), String.ofList (Text.strip v))
  | _ => none

/-- The entries of a script. -/
def scriptEntries (text : List Char) : List (String × String) :=
  (Text.splitlines text).filterMap scriptEntry

/-- `_parse_script_metadata`. -/
def parseScriptMetadata (text : List Char) : Dict String String :=
  Dict.update [] (scriptEntries text)

/-- What `yasubmit` prints. -/
def renderSubmitted (t : TaskId) : List Char := t.text ++ ['\n']

/-! ## The plugin

The plugin is the other side of these texts. It has its own names for the
states, and a line that it cannot read is an error for all of them. What it
keeps of a submission is the printed name, stripped. -/

/-- `JobState`, as far as the plugin uses it. AiiDA has more states than the
scheduler. -/
inductive JobState where
  | queued
  | running
  | done
deriving DecidableEq

/-- `JobInfo`. -/
structure JobInfo where
  jobId : List Char
  jobState : JobState
deriving DecidableEq

/-- `_MAP_STATUS_YASCHEDULER`. -/
def mapStatus : Dict (List Char) JobState :=
  [("TO_DO".toList, .queued), ("RUNNING".toList, .running), ("DONE".toList, .done)]

/-- The state that stands for a status. -/
def TaskStatus.jobState : TaskStatus → JobState
  | .toDo => .queued
  | .running => .running
  | .done => .done

/-- A line of the job list: two words. -/
def parseJob (job : List Char) : Except Exc JobInfo :=
  match Text.words Text.isSpace job with
  | [jobId, status] =>
    match mapStatus.get status with
    | some jobState => .ok { jobId := jobId, jobState := jobState }
    | none => .error (.key (String.ofList status))
  | _ => .error (.other "ValueError")

/-- `_parse_joblist_output`. -/
def parseJoblistOutput (stdout : List Char) : Except Exc (List JobInfo) :=
  ((stdout.splitOn '\n').filter fun job => !job.isEmpty).mapM parseJob

/-- `_parse_submit_output`. -/
def parseSubmitOutput (stdout : List Char) : List Char := Text.strip stdout

/-- `_get_joblist_command`, of a list of jobs. -/
def joblistCommand (jobs : List (List Char)) : List Char :=
  [' '].intercalate ("yastatus".toList ::
    if jobs.isEmpty then [] else ["--jobs ".toList ++ [' '].intercalate jobs])

/-- The words of a command without quotes. -/
def shellWords (command : List Char) : List (List Char) := Text.words (· == ' ') command

/-- **`get_jobs`.** -/
def getJobs (db : Database) (c : Conn) (jobs : List (List Char)) : Except Exc (List JobInfo) :=
  parseJoblistOutput (yastatus db c (shellWords (joblistCommand jobs)).tail)

/-- What AiiDA knows of a calculation: `inputs.code.label`, and `caller.uuid` if
it has a caller. -/
structure AiidaNode where
  codeLabel : List Char
  caller : Option (List Char) := none

/-- The lines of the header. -/
def headerLines (engine : List Char) (parent : Option (List Char)) (label : List Char) :
    List (List Char) :=
  ("ENGINE=".toList ++ engine) ::
    (parent.toList.map fun uuid => "PARENT=".toList ++ uuid) ++ ["LABEL=".toList ++ label]

/-- The node that a job is named after. -/
def jobPk (jobName : List Char) : Except Exc Int :=
  match jobName.splitOn '-' with
  | _ :: pk :: _ =>
    match Text.int pk with
    | none => .error (.other "ValueError")
    | some pk => .ok pk
  | _ => .error (.other "IndexError")

/-- **`_get_submit_script_header`**, where AiiDA loads nodes and writes texts in
lower case. -/
def submitScriptHeader (load : Int → Except Exc AiidaNode) (lower : List Char → List Char)
    (jobName : List Char) : Except Exc (List Char) := do
  let pk ← jobPk jobName
  let node ← load pk
  return ['\n'].intercalate (headerLines (lower node.codeLabel) node.caller jobName)

end Yascheduler
