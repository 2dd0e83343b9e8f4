import Yascheduler.Application.SubmitTask
import Mathlib.Tactic.Tauto

/-!
# What is returned of submitted metadata

Most keys pass through `extra` and come back as they were. Three keys have
columns of their own, and what comes back for them depends on the value: a text
column makes everything a string and forgets `None`, the JSON column takes a
string for JSON text, and the client leaves out parameters that are empty.

A value comes back from a JSON column as an equal one, but not always as the
same one: the database keeps numbers as decimal fractions, and a large `float`
is spelled without a point, so that it comes back as an integer. Python compares
the two by value, and so does the statement below (`Json.Same`). But the digits
that `repr` spells are those that tell the `float` from its neighbours, and they
are not always its value. Then a number comes back that is not equal, and
`Json.exact` says when this happens.

`Holds.kept_iff` says that this is all: in every later state of the task a key
comes back with its value exactly when the value is of the kind its column
keeps. What the columns hold after any number of loads and saves is `Holds`.
-/

namespace Yascheduler

open Store

/-! ## The statement

The keys fall into three kinds. The scheduler's own are excluded by the
statement; three more have columns with types of their own, and keep the values
that fit these types; the rest are entries of one JSON object and keep every
value that JSON does. -/

/-- The keys whose values the scheduler sets. What a user submits under them is
accepted, and replaced; the local folder becomes the scheduler's when the task is
finalised. -/
def SchedulerOwned (finalised : Bool) (k : String) : Prop :=
  k = "engine" ∨ k = "remote_folder" ∨ k = "error" ∨
    (k = "local_folder" ∧ finalised = true)

/-- **Submitted metadata is returned unchanged**: every submitted key that is
not the scheduler's with an equal value, and no key that is neither. -/
def Returned (submitted returned : Metadata) (finalised : Bool) : Prop :=
  (∀ k v, submitted.get k = some v → ¬ SchedulerOwned finalised k →
    ∃ w, returned.get k = some w ∧ w.Same v) ∧
  ∀ k, (returned.get k).isSome = true →
    (submitted.get k).isSome = true ∨ SchedulerOwned finalised k

/-- A string that a text column keeps. -/
def Json.IsText (n : Nat) (v : Json) : Prop :=
  ∃ s : String, v = .string s ∧ s.length ≤ n

/-- An object, a number or a truth value, which is sent as its own spelling. -/
def Json.isSpelled : Json → Bool
  | .bool _ | .int _ | .float _ | .object _ => true
  | _ => false

/-- Parameters that are not left out and that the JSON column keeps: an object with
entries, `true`, or a number other than zero, with large floats that are exact. What
counts as false is left out by the client, and the column is never without a value.
-/
def Json.IsKept (v : Json) : Prop :=
  v.isSpelled = true ∧ v.truthy = true ∧ v.exact = true

/-- The value of a key is one that is kept: the three keys with columns of their own
keep some values, and all other keys keep every value whose large floats are exact.
PostgreSQL spells a number without an exponent, and Python reads a number without a
point as an integer. -/
def KeptUnder (k : String) (v : Json) : Prop :=
  if k = "local_folder" then v.IsText 1024
  else if k = "webhook_url" then v.IsText 2048
  else if k = "webhook_custom_params" then v.IsKept
  else v.exact = true

/-! ## What the columns hold

A row is loaded, changed and saved many times before it is returned, and each
time every column is written anew. So what is returned at the end depends on
whether reading and writing a column is harmless when it is done again. For the
JSON columns this is so because what comes back of a value is stored as it is.
-/

/-- What the JSON column holds for a submitted value. A string is not spelled again,
but taken for the spelling of a value; an array is replaced by the empty object. -/
def ParamsHeld : Json → Json → Prop
  | .null, _ => False
  | .string s, held => ∀ t, held = .string t → t.length < s.length
  | .array _, held => held = .object []
  | v, held => v.stored = some held

/-- What a row holds of the submitted metadata. It is said of the submitted mapping
and the row alone, so that it can be carried through every load and save in between.
-/
structure Holds (d : JsonDriver) (metadata : Metadata) (row : JsonRow)
    (finalised : Bool) : Prop where
  localFolder : finalised = false →
    nullableVarchar 1024 ((metadata.get "local_folder").bind d.toText) =
      .ok row.columns.localFolder
  webhookUrl : nullableVarchar 2048 ((metadata.get "webhook_url").bind d.toText) =
    .ok row.columns.webhookUrl
  params : ParamsHeld (customParamsOf metadata) row.webhookCustomParams
  extra : storedFields (extraOf metadata) = some row.extra
  check : row.columns.taskStatusFieldInvariants = true

section

variable {d : JsonDriver} {metadata : Metadata} {row row' : JsonRow} {finalised : Bool}
  {t : TaskId}

/-- If a computation returns, so has its first part. -/
theorem bind_eq_ok {α β : Type} {x : Except Exc α} {f : α → Except Exc β} {b : β}
    (h : (x >>= f) = .ok b) : ∃ a, x = .ok a ∧ f a = .ok b := by
  cases x with
  | error e => cases h
  | ok a => exact ⟨a, rfl, h⟩

/-- What the column is given for a submitted value. -/
theorem ParamsHeld.of_toJsonb {v held : Json} (h : d.toJsonb v = .ok held) :
    ParamsHeld v held := by
  cases v with
  | null => cases h
  | string s =>
    rintro t rfl
    exact d.length_jsonbIn s t (JsonDriver.toJsonb_string h)
  | array items => cases items <;> cases h; rfl
  | bool _ | int _ | float _ | object _ => exact JsonDriver.spelled_eq_ok.mp h

/-- Such a value is one of these again when it comes back. -/
theorem Json.isSpelled_stored {v w : Json} (hv : v.isSpelled = true) (h : v.stored = some w) :
    w.isSpelled = true := by
  cases v with
  | null | string _ | array _ => cases hv
  | bool _ | int _ =>
    obtain rfl := Option.some.inj h
    rfl
  | float q =>
    obtain rfl := Option.some.inj h
    unfold storedFloat
    split <;> rfl
  | object fields =>
    obtain ⟨fields', -, rfl⟩ := Option.map_eq_some_iff.mp h
    rfl

/-- Such a value is given to the column, and read from it, as it is. -/
theorem toJsonb_of_isSpelled {v : Json} (h : v.isSpelled = true) :
    d.toJsonb v = JsonDriver.spelled v.stored ∧ d.ofJsonb v = .ok v := by
  cases v with
  | null | string _ | array _ => cases h
  | bool _ | int _ | float _ | object _ => exact ⟨rfl, rfl⟩

/-- It is not taken for a string. -/
theorem toJsonb_ne_string {v : Json} (h : v.isSpelled = true) (t : String) :
    d.toJsonb v ≠ .ok (.string t) := by
  intro heq
  rw [(toJsonb_of_isSpelled h).1, JsonDriver.spelled_eq_ok] at heq
  exact nomatch Json.isSpelled_stored h heq

/-- What came back of it is kept when it is saved again. A float that has become an
integer stays one. -/
theorem stored_again {v held loaded held' : Json} (hv : v.isSpelled = true)
    (h : v.stored = some held) (hload : d.ofJsonb held = .ok loaded)
    (hsave : d.toJsonb loaded = .ok held') : v.stored = some held' := by
  obtain ⟨hto, hof⟩ := toJsonb_of_isSpelled (d := d) (Json.isSpelled_stored hv h)
  obtain rfl := Except.ok.inj (hof.symm.trans hload)
  rw [hto, JsonDriver.spelled_eq_ok, Json.stored_stored h] at hsave
  rw [h, hsave]

/-- Loading and saving keeps what is held. So it does not matter how often the task
is saved. -/
theorem ParamsHeld.again {v held loaded held' : Json} (h : ParamsHeld v held)
    (hload : d.ofJsonb held = .ok loaded) (hsave : d.toJsonb loaded = .ok held') :
    ParamsHeld v held' := by
  cases v with
  | null => exact h.elim
  | string s =>
    rintro t rfl
    -- only a string becomes a string, at either end, and each time it shrinks
    obtain ⟨u, rfl⟩ : ∃ u, loaded = .string u := by
      cases loaded with
      | string u => exact ⟨u, rfl⟩
      | array items => cases items <;> cases hsave
      | null => cases hsave
      | bool _ | int _ | float _ | object _ => exact absurd hsave (toJsonb_ne_string rfl t)
    obtain ⟨w, rfl⟩ : ∃ w, held = .string w := by
      cases held with
      | string w => exact ⟨w, rfl⟩
      | null | bool _ | int _ | float _ | array _ | object _ => cases hload
    calc t.length < u.length := d.length_jsonbIn u t (JsonDriver.toJsonb_string hsave)
      _ < w.length := d.length_loads w u (JsonDriver.ofJsonb_string hload)
      _ < s.length := h w rfl
  | array items =>
    obtain rfl : held = .object [] := h
    cases hload
    cases hsave
    rfl
  | bool _ | int _ | float _ | object _ => exact stored_again rfl h hload hsave

/-- A text that a column holds is held again. -/
theorem nullableVarchar_again {n : Nat} {s s' : Option String}
    (h : nullableVarchar n s = .ok s') : nullableVarchar n s' = .ok s' :=
  nullableVarchar_eq (nullableVarchar_le h)

/-- A row that satisfies the CHECK can be read, with the texts of its columns. -/
theorem rowToTask_ok {columns : TaskColumns} (h : columns.taskStatusFieldInvariants = true) :
    ∃ task, columns.rowToTask t = .ok task ∧ task.localFolder = columns.localFolder ∧
      task.webhookUrl = columns.webhookUrl := by
  obtain ⟨title, engine, status, node, remote, loc, url, error, params, extra, at_⟩ := columns
  cases status with
  | toDo => exact ⟨_, rfl, rfl, rfl⟩
  | done => exact ⟨_, rfl, rfl, rfl⟩
  | running =>
    simp only [TaskColumns.taskStatusFieldInvariants, reduceCtorEq, decide_false,
      decide_true, Bool.true_and, Bool.false_and, Bool.false_or, Bool.or_false,
      Bool.and_eq_true] at h
    obtain ⟨n, rfl⟩ := Option.isSome_iff_exists.mp h.1.1
    obtain ⟨folder, rfl⟩ := Option.isSome_iff_exists.mp h.2
    exact ⟨_, rfl, rfl, rfl⟩

/-- What a task that was loaded carries: the values of the columns, and the rest of
its metadata. -/
theorem load_spec {task : JsonTask} (hcheck : row.columns.taskStatusFieldInvariants = true)
    (h : row.load d t = .ok task) :
    task.task.localFolder = row.columns.localFolder ∧
      task.task.webhookUrl = row.columns.webhookUrl ∧
      d.ofJsonb row.webhookCustomParams = .ok task.webhookCustomParams ∧
      task.extra = row.extra := by
  obtain ⟨loaded, hrow, hloc, hurl⟩ := rowToTask_ok (t := t) hcheck
  unfold JsonRow.load at h
  obtain ⟨loaded', hrow', hrest⟩ := bind_eq_ok h
  obtain ⟨params, hparams, hret⟩ := bind_eq_ok hrest
  obtain rfl : loaded' = loaded := Except.ok.inj (hrow'.symm.trans hrow)
  cases hret
  exact ⟨hloc, hurl, hparams, rfl⟩

/-- What a row that was saved holds. -/
theorem save_spec_json {task : JsonTask} (h : row.save d task = .ok row') :
    nullableVarchar 1024 task.task.localFolder = .ok row'.columns.localFolder ∧
      nullableVarchar 2048 task.task.webhookUrl = .ok row'.columns.webhookUrl ∧
      d.toJsonb task.webhookCustomParams = .ok row'.webhookCustomParams ∧
      storedFields task.extra = some row'.extra ∧ row'.columns.taskStatusFieldInvariants = true := by
  unfold JsonRow.save at h
  obtain ⟨columns, hcolumns, hrest⟩ := bind_eq_ok h
  obtain ⟨params, hparams, hrest⟩ := bind_eq_ok hrest
  obtain ⟨extra, hextra, hret⟩ := bind_eq_ok hrest
  obtain ⟨-, hloc, hurl, hcheck⟩ := TaskColumns.store_spec hcolumns
  cases hret
  exact ⟨hloc, hurl, hparams, JsonDriver.spelled_eq_ok.mp hextra, hcheck⟩

/-- A transition sets the local folder or leaves it, and leaves the URL. Only those
that finalise a task set it. -/
theorem transition_texts {task task' : AnyTask} {x : Transition}
    (h : task.transition x = .ok task') :
    (x.finalises = false → task'.localFolder = task.localFolder) ∧
      task'.webhookUrl = task.webhookUrl := by
  obtain ⟨taskId, engine, state, at_, label, loc, url, params, extra, events⟩ := task
  cases state <;> cases x <;> cases h
  all_goals first
    | exact ⟨fun _ => rfl, rfl⟩
    | exact ⟨fun hfalse => (nomatch hfalse), rfl⟩

/-- **A load, a transition and a save** keep what is held. Of the columns in question
the transition sets the local folder at most, and the others are written as they were
loaded. -/
theorem Holds.saved (h : Holds d metadata row finalised) {task : JsonTask}
    {task' : AnyTask} {x : Transition} (hload : row.load d t = .ok task)
    (hlegal : task.task.transition x = .ok task')
    (hsave : row.save d { task with task := task' } = .ok row') :
    Holds d metadata row' (finalised || x.finalises) := by
  obtain ⟨hloc, hurl, hparams, hextra⟩ := load_spec h.check hload
  obtain ⟨hloc', hurl', hparams', hextra', hcheck'⟩ := save_spec_json hsave
  obtain ⟨htrans, htransUrl⟩ := transition_texts hlegal
  refine ⟨fun hfin => ?_, ?_, h.params.again hparams hparams', ?_, hcheck'⟩
  · obtain ⟨hbefore, hx⟩ := Bool.or_eq_false_iff.mp hfin
    have hheld := h.localFolder hbefore
    rw [show task'.localFolder = row.columns.localFolder from (htrans hx).trans hloc] at hloc'
    rw [hheld, ← hloc', nullableVarchar_again hheld]
  · rw [show task'.webhookUrl = row.columns.webhookUrl from htransUrl.trans hurl] at hurl'
    rw [h.webhookUrl, ← hurl', nullableVarchar_again h.webhookUrl]
  · rw [hextra, storedFields_stored h.extra] at hextra'
    exact h.extra.trans hextra'

/-- A submitted task. -/
theorem Holds.submitted {label engineName createdAt : String} {engines : EngineRepository}
    (h : submitTask d label metadata engineName engines t createdAt = .ok row) :
    Holds d metadata row false := by
  unfold submitTask at h
  split at h
  · cases h
  · split at h
    · cases h
    · obtain ⟨⟨columns, inserted⟩, hinsert, hrest⟩ := bind_eq_ok h
      obtain ⟨params, hparams, hrest⟩ := bind_eq_ok hrest
      obtain ⟨extra, hextra, hrest⟩ := bind_eq_ok hrest
      obtain ⟨task, hload, hsave⟩ := bind_eq_ok hrest
      have hstored := JsonDriver.spelled_eq_ok.mp hextra
      unfold TaskRepository.insert at hinsert
      obtain ⟨stored, hstore, hret⟩ := bind_eq_ok hinsert
      obtain ⟨_, -, hret⟩ := bind_eq_ok hret
      cases hret
      obtain ⟨-, hloc, hurl, hcheck⟩ := TaskColumns.store_spec hstore
      obtain ⟨hloc', hurl', hparams', hextra'⟩ := load_spec hcheck hload
      obtain ⟨hloc'', hurl'', hparams'', hextra'', hcheck''⟩ := save_spec_json hsave
      rw [hextra', storedFields_stored hstored] at hextra''
      refine ⟨fun _ => ?_, ?_, ?_, hstored.trans hextra'', hcheck''⟩
      · rw [hloc'] at hloc''
        exact hloc.trans ((nullableVarchar_again hloc).symm.trans hloc'')
      · rw [hurl'] at hurl''
        exact hurl.trans ((nullableVarchar_again hurl).symm.trans hurl'')
      · exact (ParamsHeld.of_toJsonb hparams).again hparams' hparams''

/-- In every later state of the task. By induction on the loads and saves that led
to it. -/
theorem Holds.later {row₀ : JsonRow} (h₀ : Holds d metadata row₀ false)
    (h : Later d t row₀ row finalised) : Holds d metadata row finalised := by
  induction h with
  | submitted => exact h₀
  | saved _ hload hlegal hsave ih => exact ih.saved hload hlegal hsave

/-! ## What is returned

The client puts the mapping together from the columns, and leaves out some that
are empty. So a key is found or not by a rule of its own column, and the proof
goes key by key: what is under it in the row, whether the client shows it, and
whether it is what was submitted. -/

/-- A text column returns what was submitted exactly when that is a string it keeps.
Other values are turned into text, or refused. -/
theorem text_returned {n : Nat} {k : String} {held : Option String}
    (h : nullableVarchar n ((metadata.get k).bind d.toText) = .ok held) {v : Json}
    (hv : metadata.get k = some v) :
    (∃ w, held.map Json.string = some w ∧ w.Same v) ↔ v.IsText n := by
  rw [hv] at h
  constructor
  · rintro ⟨w, heq, hsame⟩
    obtain ⟨s, rfl, rfl⟩ := Option.map_eq_some_iff.mp heq
    exact ⟨s, Json.same_string.mp hsame, nullableVarchar_le h s rfl⟩
  · rintro ⟨s, rfl, hs⟩
    have hkept : nullableVarchar n (some s) = .ok (some s) :=
      nullableVarchar_eq fun text htext => Option.some.inj htext ▸ hs
    rw [← Except.ok.inj (hkept.symm.trans h)]
    exact ⟨_, rfl, rfl⟩

/-- A text column that returns something was given something. -/
theorem text_submitted {n : Nat} {k : String} {held : Option String}
    (h : nullableVarchar n ((metadata.get k).bind d.toText) = .ok held)
    (hheld : held.isSome = true) : (metadata.get k).isSome = true := by
  cases hv : metadata.get k with
  | some v => rfl
  | none =>
    rw [hv] at h
    cases h
    cases hheld

/-- What is held of a value that is no string can be read; of one that is sent
as its own spelling it is what the column gives back. -/
theorem ParamsHeld.loaded {v held : Json} (h : ParamsHeld v held) (hv : ∀ s, v ≠ .string s) :
    d.ofJsonb held = .ok held ∧ (v.isSpelled = true → v.stored = some held) := by
  have hspelled {v : Json} (hv : v.isSpelled = true) (h : v.stored = some held) :
      d.ofJsonb held = .ok held ∧ (v.isSpelled = true → v.stored = some held) :=
    ⟨(toJsonb_of_isSpelled (Json.isSpelled_stored hv h)).2, fun _ => h⟩
  cases v with
  | null => exact h.elim
  | string s => exact absurd rfl (hv s)
  | array _ =>
    obtain rfl : held = .object [] := h
    exact ⟨rfl, fun hspelled => nomatch hspelled⟩
  | bool _ | int _ | float _ | object _ => exact hspelled rfl h

/-- The parameters are returned exactly when they are of a kind that is
kept. -/
theorem params_returned {v held loaded : Json} (h : ParamsHeld v held)
    (hload : d.ofJsonb held = .ok loaded) :
    (∃ w, (if loaded.truthy then some loaded else none) = some w ∧ w.Same v) ↔ v.IsKept := by
  have hmatch : (∃ w, (if loaded.truthy then some loaded else none) = some w ∧ w.Same v) ↔
      loaded.truthy = true ∧ loaded.Same v := by
    cases loaded.truthy <;> simp
  rw [hmatch]
  cases hv : v.isSpelled with
  | true =>
    have hne : ∀ s, v ≠ .string s := by
      rintro s rfl
      cases hv
    obtain ⟨hof, hstored⟩ := h.loaded (d := d) hne
    obtain rfl := Except.ok.inj (hof.symm.trans hload)
    rw [Json.IsKept, ← Json.same_stored (hstored hv)]
    exact ⟨fun ⟨ht, hs⟩ => ⟨hv, hs.truthy_eq ▸ ht, hs⟩, fun ⟨_, ht, hs⟩ => ⟨hs.truthy_eq ▸ ht, hs⟩⟩
  | false =>
    refine iff_of_false (fun ⟨ht, hs⟩ => ?_) fun hkept => ?_
    · cases v with
      | null => exact h
      | string s =>
        -- a string is read out of a longer one
        obtain rfl : loaded = .string s := by
          cases loaded with
          | string s' => exact (Json.same_string.mp hs) ▸ rfl
          | null | bool _ | int _ | float _ | array _ | object _ => cases hs
        cases held with
        | string w =>
          have hsw := d.length_loads w s (JsonDriver.ofJsonb_string hload)
          exact absurd (h w rfl) (Nat.lt_asymm hsw)
        | null | bool _ | int _ | float _ | array _ | object _ => cases hload
      | array items =>
        obtain rfl : held = .object [] := h
        cases hload
        cases ht
      | bool _ | int _ | float _ | object _ => cases hv
    · obtain ⟨hspelled, -⟩ := hkept
      rw [hv] at hspelled
      cases hspelled

/-- **What the client finds under a key.** It is computed from the row, and no
longer from what was submitted. -/
structure Finds (d : JsonDriver) (metadata : Metadata) (row : JsonRow) (loaded : Json)
    (m : Metadata) : Prop where
  localFolder : m.get "local_folder" = row.columns.localFolder.map .string
  webhookUrl : m.get "webhook_url" = row.columns.webhookUrl.map .string
  params : m.get "webhook_custom_params" = if loaded.truthy then some loaded else none
  other : ∀ k, k ∉ knownTypedKeys → (metadata.get k).map Json.stored = (m.get k).map some

/-- What the client finds in a row that it can load. -/
theorem Holds.finds (h : Holds d metadata row finalised) {task : JsonTask}
    (hload : row.load d t = .ok task) :
    Finds d metadata row task.webhookCustomParams task.taskToDict := by
  obtain ⟨hloc, hurl, -, hextra⟩ := load_spec h.check hload
  have hstored (k : String) :
      (if k ∉ knownTypedKeys then metadata.get k else none).map Json.stored =
        (task.extra.get k).map some := by
    rw [hextra, ← get_extraOf, get_storedFields h.extra]
  have htyped {k : String} (hk : k ∈ knownTypedKeys) : task.extra.get k = none := by
    have hnone := hstored k
    rw [if_neg (not_not_intro hk)] at hnone
    exact Option.map_eq_none_iff.mp hnone.symm
  refine ⟨?_, ?_, ?_, fun k hk => ?_⟩
  · rw [task.get_taskToDict, htyped (by decide), task.typed_localFolder, hloc, Option.or_none]
  · rw [task.get_taskToDict, htyped (by decide), task.typed_webhookUrl, hurl, Option.or_none]
  · rw [task.get_taskToDict, htyped (by decide), task.typed_webhookCustomParams,
      Option.or_none]
  · rw [task.get_taskToDict, task.typed_none hk, Option.none_or, ← hstored k, if_pos hk]

/-- Parameters that were not submitted are held as the empty object. -/
theorem params_absent {held : Json} (h : ParamsHeld (customParamsOf metadata) held)
    (hnone : metadata.get "webhook_custom_params" = none) : held = .object [] := by
  unfold customParamsOf at h
  rw [hnone] at h
  exact (Option.some.inj h).symm

/-- Parameters that were submitted are held as what becomes of them. -/
theorem params_present {held v : Json} (h : ParamsHeld (customParamsOf metadata) held)
    (hv : metadata.get "webhook_custom_params" = some v) : ParamsHeld v held := by
  unfold customParamsOf at h
  rwa [hv] at h

/-- The client can read a row unless the parameters were submitted as a
string. -/
theorem Holds.loads (h : Holds d metadata row finalised)
    (hstring : ∀ s, metadata.get "webhook_custom_params" ≠ some (.string s)) :
    ∃ task, row.load d t = .ok task := by
  obtain ⟨task, hrow, -⟩ := rowToTask_ok (t := t) h.check
  have hparams : d.ofJsonb row.webhookCustomParams = .ok row.webhookCustomParams := by
    cases hv : metadata.get "webhook_custom_params" with
    | none => rw [params_absent h.params hv]; rfl
    | some v => exact ((params_present h.params hv).loaded fun s hs => hstring s (hs ▸ hv)).1
  refine ⟨⟨task, row.webhookCustomParams, row.extra⟩, ?_⟩
  unfold JsonRow.load
  rw [hrow, hparams]
  rfl

/-- A key that has a column of its own and is not always the scheduler's. -/
theorem typed_cases {k : String} (hk : k ∈ knownTypedKeys)
    (howned : ¬ SchedulerOwned finalised k) :
    (k = "local_folder" ∧ finalised = false) ∨ k = "webhook_url" ∨
      k = "webhook_custom_params" := by
  simp only [knownTypedKeys, List.mem_cons, List.not_mem_nil, or_false] at hk
  unfold SchedulerOwned at howned
  cases finalised <;> simp only [Bool.true_eq_false, reduceCtorEq, and_true, and_false,
    or_false] at howned ⊢ <;> tauto

/-- **Key by key**, what is returned is what was submitted exactly when the value is
one that is kept. The three keys with columns of their own are one case each, and
all others are one. -/
theorem Holds.kept_iff (h : Holds d metadata row finalised) {task : JsonTask}
    (hload : row.load d t = .ok task) {k : String} {v : Json}
    (hv : metadata.get k = some v) (howned : ¬ SchedulerOwned finalised k) :
    (∃ w, task.taskToDict.get k = some w ∧ w.Same v) ↔ KeptUnder k v := by
  have hfinds := h.finds hload
  obtain ⟨-, -, hparams, -⟩ := load_spec h.check hload
  by_cases hknown : k ∈ knownTypedKeys
  · rcases typed_cases hknown howned with ⟨rfl, hfin⟩ | rfl | rfl
    · rw [hfinds.localFolder]
      exact text_returned (h.localFolder hfin) hv
    · rw [hfinds.webhookUrl]
      exact text_returned h.webhookUrl hv
    · rw [hfinds.params]
      exact params_returned (params_present h.params hv) hparams
  · have hstored := hfinds.other k hknown
    rw [hv] at hstored
    obtain ⟨w, hw, hsome⟩ : ∃ w, task.taskToDict.get k = some w ∧ v.stored = some w := by
      obtain ⟨w, hw, heq⟩ := Option.map_eq_some_iff.mp hstored.symm
      exact ⟨w, hw, heq.symm⟩
    have hne (k' : String) (hk' : k' ∈ knownTypedKeys) : k ≠ k' := fun heq =>
      hknown (heq ▸ hk')
    unfold KeptUnder
    rw [if_neg (hne "local_folder" (by decide)), if_neg (hne "webhook_url" (by decide)),
      if_neg (hne "webhook_custom_params" (by decide)), ← Json.same_stored hsome, hw]
    exact ⟨fun ⟨_, hw', hsame⟩ => Option.some.inj hw' ▸ hsame, fun hsame => ⟨w, rfl, hsame⟩⟩

/-- **No key is invented.** A key that is returned stands for a column with a value,
or is one of the rest. -/
theorem Holds.no_other (h : Holds d metadata row finalised) {task : JsonTask}
    (hload : row.load d t = .ok task) {k : String}
    (hk : (task.taskToDict.get k).isSome = true) :
    (metadata.get k).isSome = true ∨ SchedulerOwned finalised k := by
  have hfinds := h.finds hload
  obtain ⟨-, -, hparams, -⟩ := load_spec h.check hload
  by_cases howned : SchedulerOwned finalised k
  · exact .inr howned
  left
  by_cases hknown : k ∈ knownTypedKeys
  · rcases typed_cases hknown howned with ⟨rfl, hfin⟩ | rfl | rfl
    · rw [hfinds.localFolder, Option.isSome_map] at hk
      exact text_submitted (h.localFolder hfin) hk
    · rw [hfinds.webhookUrl, Option.isSome_map] at hk
      exact text_submitted h.webhookUrl hk
    · cases hv : metadata.get "webhook_custom_params" with
      | some v => rfl
      | none =>
        rw [params_absent h.params hv] at hparams
        have hempty : task.webhookCustomParams = .object [] := (Except.ok.inj hparams).symm
        rw [hfinds.params, hempty] at hk
        cases hk
  · rw [← Option.isSome_map, ← hfinds.other k hknown, Option.isSome_map] at hk
    exact hk

/-- A text column that is given `None` is left out. -/
theorem Holds.none_left_out (h : Holds d metadata row finalised) {task : JsonTask}
    (hload : row.load d t = .ok task) {k : String}
    (hk : k = "local_folder" ∨ k = "webhook_url")
    (hv : metadata.get k = some .null) (howned : ¬ SchedulerOwned finalised k) :
    task.taskToDict.get k = none := by
  have hfinds := h.finds hload
  have hnull {n : Nat} {held : Option String}
      (hheld : nullableVarchar n ((metadata.get k).bind d.toText) = .ok held) :
      held = none := by
    rw [hv] at hheld
    exact (Except.ok.inj hheld).symm
  rcases hk with rfl | rfl
  · have hfin : finalised = false := by
      refine Bool.eq_false_iff.mpr fun htrue => howned ?_
      exact .inr (.inr (.inr ⟨rfl, htrue⟩))
    rw [hfinds.localFolder, hnull (h.localFolder hfin)]
    rfl
  · rw [hfinds.webhookUrl, hnull h.webhookUrl]
    rfl

end

/-- **What is returned of submitted metadata.** For every accepted mapping and
every later state of its task, the mapping the client returns has every
submitted key that is not the scheduler's with an equal value, if the value is
one that is kept under the key; a local folder and a webhook
URL submitted as `None` are left out; and there is no key that is neither
submitted nor the scheduler's. The client does return a mapping, unless the
webhook parameters were submitted as a string. -/
theorem metadataReturned {d : JsonDriver} {label engineName createdAt : String}
    {metadata : Metadata} {engines : EngineRepository} {t : TaskId} {row₀ row : JsonRow}
    {finalised : Bool}
    (hsubmit : submitTask d label metadata engineName engines t createdAt = .ok row₀)
    (hlater : Later d t row₀ row finalised) :
    (∀ m, queueGetTask d row t = .ok m →
      (∀ k v, metadata.get k = some v → ¬ SchedulerOwned finalised k → KeptUnder k v →
        ∃ w, m.get k = some w ∧ w.Same v) ∧
      (∀ k, k = "local_folder" ∨ k = "webhook_url" → metadata.get k = some .null →
        ¬ SchedulerOwned finalised k → m.get k = none) ∧
      ∀ k, (m.get k).isSome = true →
        (metadata.get k).isSome = true ∨ SchedulerOwned finalised k) ∧
    ((∀ s, metadata.get "webhook_custom_params" ≠ some (.string s)) →
      ∃ m, queueGetTask d row t = .ok m) := by
  have hholds : Holds d metadata row finalised := (Holds.submitted hsubmit).later hlater
  refine ⟨fun m hm => ?_, fun hstring => ?_⟩
  · obtain ⟨task, hload, rfl⟩ : ∃ task, row.load d t = .ok task ∧ task.taskToDict = m := by
      unfold queueGetTask at hm
      cases hload : row.load d t with
      | error e => rw [hload] at hm; cases hm
      | ok task => rw [hload] at hm; exact ⟨task, rfl, Except.ok.inj hm⟩
    exact ⟨fun k v hv howned hkept => (hholds.kept_iff hload hv howned).mpr hkept,
      fun k hk hv howned => hholds.none_left_out hload hk hv howned,
      fun k hk => hholds.no_other hload hk⟩
  · obtain ⟨task, hload⟩ := hholds.loads (t := t) hstring
    refine ⟨task.taskToDict, ?_⟩
    unfold queueGetTask
    rw [hload]
    rfl

namespace Metadata

/-- A driver for mappings whose typed values are strings and objects, for which
it has nothing to convert. -/
def driver : JsonDriver where
  text _ := ""
  jsonbIn _ := none
  loads _ := none
  length_jsonbIn _ _ h := nomatch h
  length_loads _ _ h := nomatch h

def engines : EngineRepository := [("dummy", { name := "dummy", inputFiles := ["1.input"] })]

/-- What a caller without a local folder submits. -/
def noFolder : Metadata := [("1.input", .string "a"), ("local_folder", .null)]

def full : Metadata :=
  [("1.input", .string "a"), ("local_folder", .string "/data"), ("retries", .int 0),
    ("cutoff", .float (10 ^ 16)), ("webhook_custom_params", .object [("parent", .string "7")])]

/-- The `float` that `repr` spells `1e+23`. -/
def large : Json := .float 99999999999999991611392

def withLarge : Metadata := [("1.input", .string "a"), ("n", large)]

/-- The row of a submitted task. -/
def row (localFolder : Option String) (params : Json) (extra : Metadata) : JsonRow where
  columns := {
    title := "water"
    engine := "dummy"
    status := .toDo
    allocatedNodeId := none
    remoteFolder := none
    localFolder := localFolder
    webhookUrl := none
    error := none
    webhookCustomParams := []
    extra := []
    createdAt := "20240101_000000" }
  webhookCustomParams := params
  extra := extra

end Metadata

open Metadata

theorem submit_noFolder :
    submitTask driver "water" noFolder "dummy" engines 1 "20240101_000000" =
      .ok (row none (.object []) [("1.input", .string "a")]) := rfl

theorem submit_full :
    submitTask driver "water" full "dummy" engines 1 "20240101_000000" =
      .ok (row (some "/data") (.object [("parent", .string "7")])
        [("1.input", .string "a"), ("retries", .int 0), ("cutoff", .int (10 ^ 16))]) := rfl

theorem submit_withLarge :
    submitTask driver "water" withLarge "dummy" engines 1 "20240101_000000" =
      .ok (row none (.object []) [("1.input", .string "a"), ("n", .int (10 ^ 23))]) := rfl

/-- **A submitted key is left out, and a number is changed**: a local folder of
`None` is accepted, and the client does not return it; and a `float` comes back as
the integer that its digits denote, which is another number. -/
theorem metadata_left_out :
    (∃ row₀, submitTask driver "water" noFolder "dummy" engines 1 "20240101_000000" = .ok row₀ ∧
      ∃ m, queueGetTask driver row₀ 1 = .ok m ∧ ¬ Returned noFolder m false) ∧
    ∃ row₀, submitTask driver "water" withLarge "dummy" engines 1 "20240101_000000" = .ok row₀ ∧
      ∃ m, queueGetTask driver row₀ 1 = .ok m ∧ ¬ Returned withLarge m false := by
  constructor
  · refine ⟨_, submit_noFolder, _, rfl, fun h => ?_⟩
    obtain ⟨w, hback, -⟩ := h.1 "local_folder" .null rfl (by simp [SchedulerOwned])
    cases hback
  · refine ⟨_, submit_withLarge, _, rfl, fun h => ?_⟩
    obtain ⟨w, hback, hsame⟩ := h.1 "n" large rfl (by simp [SchedulerOwned])
    obtain rfl : Json.int (10 ^ 23) = w := Option.some.inj hback
    exact absurd (Json.float.inj hsame) (by norm_num)

/-- A mapping whose values are all kept, while its task waits. Its float has become
an integer, which is equal to it in Python. -/
theorem metadataReturned_waiting :
    ∃ m, queueGetTask driver (row (some "/data") (.object [("parent", .string "7")])
        [("1.input", .string "a"), ("retries", .int 0), ("cutoff", .int (10 ^ 16))]) 1 = .ok m ∧
      Returned full m false := by
  obtain ⟨hall, hread⟩ := metadataReturned submit_full .submitted
  obtain ⟨m, hm⟩ := hread fun s hs => nomatch hs
  obtain ⟨hkept, -, hother⟩ := hall m hm
  refine ⟨m, hm, fun k v hv howned => hkept k v hv howned ?_, hother⟩
  have hexact : exactFields full = true := by decide +kernel
  unfold KeptUnder
  split_ifs with hloc hurl hparams
  · subst hloc
    exact ⟨"/data", (Option.some.inj hv).symm, by decide⟩
  · subst hurl
    cases hv
  · subst hparams
    rw [← Option.some.inj hv]
    exact ⟨rfl, rfl, rfl⟩
  · exact exact_of_get hexact hv

end Yascheduler
