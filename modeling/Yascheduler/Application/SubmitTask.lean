import Yascheduler.Infra.TaskRepository
import Yascheduler.Json

/-!
# Submitting a task and reading its metadata

A submitted mapping is split: three of its keys have columns of their own, three
are the scheduler's, and the rest becomes the JSON column `extra`. The client
reads a task back as one mapping, put together from the columns.

In between are the driver and the database. A text column takes any value and
keeps its text. A JSON column takes what the driver sends for a value as JSON:
an object, a number or a truth value is sent as its own spelling, a string is
itself the JSON text, an empty list is sent as the empty array literal `{}` of
the database, which is the empty object of JSON, and other array literals are no
JSON. What is sent as its own spelling comes back as `Json.stored` says: large
floats become integers, and a value with the character zero is refused.

A row is written more than once. It is inserted, and then saved once for each
transition of the task, and each time its JSON columns are what was loaded
before. That nothing is lost by this is because a column gives back unchanged
what it has given back before (`Json.stored_stored`), so only the first of these
writes can change a value.
-/

namespace Yascheduler

open Store

/-! ## The driver

A value is sent in the form that its Python type has for the driver, and not in
one that the column asks for. For a text column this makes texts of numbers.
For a JSON column it makes JSON of mappings, and it takes a string to be JSON
already. -/

/-- What the driver and the database do with texts: the text of a value that
is no string, how the database reads a text as JSON, and `json.loads`. A text
that encodes a string is longer than the string, by its quotes. -/
structure JsonDriver where
  text : Json → String
  jsonbIn : String → Option Json
  loads : String → Option Json
  length_jsonbIn : ∀ s t, jsonbIn s = some (.string t) → t.length < s.length
  length_loads : ∀ s t, loads s = some (.string t) → t.length < s.length

namespace JsonDriver

variable (d : JsonDriver)

/-- A value as a parameter for a text column. -/
def toText : Json → Option String
  | .null => none
  | .string s => some s
  | v => some (d.text v)

/-- What a JSON column has of a value that is sent as its own spelling. -/
def spelled {α : Type} (stored : Option α) : Except Exc α :=
  match stored with
  | some v => .ok v
  | none => .error (.database "unsupported Unicode escape sequence")

/-- A value as a parameter for a JSON column that is not nullable. -/
def toJsonb : Json → Except Exc Json
  | .null => .error (.database "null value violates not-null constraint")
  | .string s =>
    match d.jsonbIn s with
    | some v => .ok v
    | none => .error (.database "invalid input syntax for type json")
  | .array [] => .ok (.object [])
  | .array (_ :: _) => .error (.database "invalid input syntax for type json")
  | v => spelled v.stored

/-- A JSON column as `_row_to_task` reads it: a string is parsed once more. -/
def ofJsonb : Json → Except Exc Json
  | .string s =>
    match d.loads s with
    | some v => .ok v
    | none => .error (.other "json.JSONDecodeError")
  | v => .ok v

variable {d}

/-- A text that can be stored is the one that is stored. -/
theorem spelled_eq_ok {α : Type} {stored : Option α} {v : α} :
    spelled stored = .ok v ↔ stored = some v := by
  cases stored <;> simp [spelled]

/-- A string in place of a JSON value is taken for JSON text, -/
theorem toJsonb_string {s : String} {v : Json} (h : d.toJsonb (.string s) = .ok v) :
    d.jsonbIn s = some v := by
  simp only [toJsonb] at h
  split at h <;> cases h
  assumption

/-- and it is parsed again when it comes back as one. -/
theorem ofJsonb_string {s : String} {v : Json} (h : d.ofJsonb (.string s) = .ok v) :
    d.loads s = some v := by
  simp only [ofJsonb] at h
  split at h <;> cases h
  assumption

end JsonDriver

/-! ## Rows and tasks with their JSON columns

Elsewhere the JSON columns of a row are texts that nobody looks into. Here
their values matter, so they are kept beside the row, and the columns of the
row itself are left empty. -/

/-- A row and its JSON columns. Those of `columns` itself are left empty. Both are
written by one statement. -/
structure JsonRow where
  columns : TaskColumns
  webhookCustomParams : Json
  extra : Metadata

/-- A task and the values of its JSON columns. Those of `task` itself are left
empty. -/
structure JsonTask where
  task : AnyTask
  webhookCustomParams : Json
  extra : Metadata

namespace JsonRow

variable (d : JsonDriver)

/-- `_row_to_task`. -/
def load (row : JsonRow) (t : TaskId) : Except Exc JsonTask := do
  let task ← row.columns.rowToTask t
  let params ← d.ofJsonb row.webhookCustomParams
  return { task := task, webhookCustomParams := params, extra := row.extra }

/-- `save`. -/
def save (row : JsonRow) (t : JsonTask) : Except Exc JsonRow := do
  let columns ← row.columns.updateById t.task
  let params ← d.toJsonb t.webhookCustomParams
  let extra ← JsonDriver.spelled (storedFields t.extra)
  return { columns := columns, webhookCustomParams := params, extra := extra }

end JsonRow

/-! ## Submission

A submission takes keys out of the mapping, and whatever is left is `extra`. It
is written twice, by `insert` and by `save`, because it is the saved instance
whose events are published. -/

/-- `_KNOWN_TYPED_KEYS`. -/
def knownTypedKeys : List String :=
  ["engine", "remote_folder", "local_folder", "webhook_url", "webhook_custom_params",
    "error"]

/-- The keys that become `extra`. -/
def extraOf (metadata : Metadata) : Metadata :=
  metadata.filter fun e => e.1 ∉ knownTypedKeys

/-- The value for the column `webhook_custom_params`. -/
def customParamsOf (metadata : Metadata) : Json :=
  (metadata.get "webhook_custom_params").getD (.object [])

/-- **`submit_task`**: the row of the new task, inserted and then saved. An engine
that is unknown or an input file that is missing is refused before anything is
written. -/
def submitTask (d : JsonDriver) (label : String) (metadata : Metadata)
    (engineName : String) (engines : EngineRepository) (t : TaskId) (createdAt : String) :
    Except Exc JsonRow :=
  match engines.get engineName with
  | none => .error (.unsupportedEngine engineName)
  | some engine =>
    match engine.inputFiles.find? fun file => (metadata.get file).isNone with
    | some file => .error (.missingInputFile engineName file)
    | none => do
      let (columns, _) ← TaskRepository.insert
        { engine := engineName
          label := label
          localFolder := (metadata.get "local_folder").bind d.toText
          webhookUrl := (metadata.get "webhook_url").bind d.toText } t createdAt
      let params ← d.toJsonb (customParamsOf metadata)
      let extra ← JsonDriver.spelled (storedFields (extraOf metadata))
      let row : JsonRow := {
        columns := columns
        webhookCustomParams := params
        extra := extra }
      let task ← row.load d t
      row.save d task

/-- Whether a transition sets the local folder. -/
def Transition.finalises : Transition → Bool
  | .complete _ _ | .fail _ _ _ => true
  | _ => false

/-- **The later states of a task**: its row after any transitions that were
saved, and whether one of them has set the local folder. -/
inductive Later (d : JsonDriver) (t : TaskId) (row₀ : JsonRow) : JsonRow → Bool → Prop where
  | submitted : Later d t row₀ row₀ false
  | saved {row row' : JsonRow} {finalised : Bool} {task : JsonTask} {task' : AnyTask}
      {x : Transition} (h : Later d t row₀ row finalised) (hload : row.load d t = .ok task)
      (hlegal : task.task.transition x = .ok task')
      (hsave : row.save d { task with task := task' } = .ok row') :
      Later d t row₀ row' (finalised || x.finalises)

/-! ## The client

The client puts the columns back into one mapping. It shows a column of its own
if it has a value, where a text counts if it is not `None` and the parameters
of the webhook if they are not empty. -/

/-- An entry for a key, if there is a value. -/
def entry (k : String) (v : Option Json) : Metadata :=
  match v with
  | some v => [(k, v)]
  | none => []

namespace JsonTask

/-- The metadata that comes from columns of their own. -/
def typedMetadata (t : JsonTask) : Metadata :=
  [("engine", .string t.task.engine)] ++
    entry "remote_folder" (t.task.state.remoteFolder.map .string) ++
    entry "local_folder" (t.task.localFolder.map .string) ++
    entry "webhook_url" (t.task.webhookUrl.map .string) ++
    entry "webhook_custom_params"
      (if t.webhookCustomParams.truthy then some t.webhookCustomParams else none) ++
    entry "error" (t.task.state.error.map .string)

/-- The metadata of `_task_to_dict`. -/
def taskToDict (t : JsonTask) : Metadata :=
  t.typedMetadata ++ t.extra.filter fun e => Dict.get t.typedMetadata e.1 = none

end JsonTask

/-- The metadata that `queue_get_tasks` returns for a task. -/
def queueGetTask (d : JsonDriver) (row : JsonRow) (t : TaskId) : Except Exc Metadata :=
  (row.load d t).map JsonTask.taskToDict

/-! ## What is found under a key

The mapping is looked up key by key, and for each there is one place where it
can be found. These lemmas say which, so that nothing else has to be known of
how the mapping was put together. -/

/-- An entry is there under its own key, if it has a value. -/
theorem get_entry (k k' : String) (v : Option Json) :
    Dict.get (entry k v) k' = if k = k' then v else none := by
  cases v <;> simp [entry]

/-- A JSON column has the keys of a mapping, and under each what it gives back
of the value. -/
theorem get_storedFields {fields fields' : Metadata} (h : storedFields fields = some fields')
    (k : String) : (Dict.get fields k).map Json.stored = (Dict.get fields' k).map some := by
  induction fields generalizing fields' with
  | nil =>
    obtain rfl := Option.some.inj h
    rfl
  | cons field fields ih =>
    obtain ⟨k', v⟩ := field
    rw [storedFields] at h
    split at h
    · obtain ⟨w, hw, h⟩ := Option.bind_eq_some_iff.mp h
      obtain ⟨rest, hrest, h⟩ := Option.bind_eq_some_iff.mp h
      obtain rfl := Option.some.inj h
      by_cases hk : k' = k
      · subst hk
        simp [hw]
      · simpa [hk] using ih hrest
    · cases h

/-- The keys with a column of their own are not in `extra`. -/
theorem get_extraOf (metadata : Metadata) (k : String) :
    Dict.get (extraOf metadata) k =
      if k ∉ knownTypedKeys then Dict.get metadata k else none :=
  Dict.get_filter metadata (· ∉ knownTypedKeys) k

namespace JsonTask

variable (t : JsonTask)

/-- A key is looked up among the columns first, and in `extra` then. -/
theorem get_taskToDict (k : String) :
    Dict.get t.taskToDict k = (Dict.get t.typedMetadata k).or (Dict.get t.extra k) := by
  unfold taskToDict
  rw [Dict.get_append, Dict.get_filter t.extra fun k => Dict.get t.typedMetadata k = none]
  cases Dict.get t.typedMetadata k <;> simp

/-- What the columns return for the folder, -/
theorem typed_localFolder :
    Dict.get t.typedMetadata "local_folder" = t.task.localFolder.map .string := by
  simp [typedMetadata, Dict.get_append, get_entry]

/-- for the address of the webhook, -/
theorem typed_webhookUrl :
    Dict.get t.typedMetadata "webhook_url" = t.task.webhookUrl.map .string := by
  simp [typedMetadata, Dict.get_append, get_entry]

/-- and for its parameters, which are left out when they are empty. -/
theorem typed_webhookCustomParams :
    Dict.get t.typedMetadata "webhook_custom_params" =
      if t.webhookCustomParams.truthy then some t.webhookCustomParams else none := by
  simp [typedMetadata, Dict.get_append, get_entry]

/-- No other key comes from a column of its own. -/
theorem typed_none {k : String} (h : k ∉ knownTypedKeys) :
    Dict.get t.typedMetadata k = none := by
  simp only [knownTypedKeys, List.mem_cons, List.not_mem_nil, or_false, not_or] at h
  obtain ⟨h₁, h₂, h₃, h₄, h₅, h₆⟩ := h
  simp [typedMetadata, Dict.get_append, get_entry, Ne.symm h₁, Ne.symm h₂, Ne.symm h₃,
    Ne.symm h₄, Ne.symm h₅, Ne.symm h₆]

end JsonTask

end Yascheduler
