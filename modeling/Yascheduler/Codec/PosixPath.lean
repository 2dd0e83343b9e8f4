import Yascheduler.Codec.Lines

/-!
# Paths

What `pathlib` makes of a text: a root and names. Reading a path drops empty
names and single dots, so texts that differ in these are one path, and what is
written is not what was read: `PurePosixPath("/home/u/job/")` is written as
`/home/u/job`. Two dots stay, since they mean something else behind a symbolic
link. A path that begins with two slashes keeps them, as POSIX allows these a
meaning of their own; from three on they count as one.

What is written is read back as the path it was (`ofText_toText`). So whoever
stores a path in the form in which it is written finds it again.
-/

/-- What a path begins with. Two slashes are kept apart from one, and more than two
are the same as one. -/
inductive PathRoot where
  | relative
  | slash
  | slashes
deriving DecidableEq

/-- A name of a path: not empty, without a slash, and not a single dot. Two dots are
a name like any other, since nothing is looked up. -/
structure IsPathName (name : List Char) : Prop where
  ne_nil : name ≠ []
  ne_dot : name ≠ ['.']
  slash : ∀ c ∈ name, (c == '/') = false

/-- `pathlib.PurePosixPath`. The names are names by construction, so a path has one
form. -/
@[ext]
structure PosixPath where
  root : PathRoot
  names : List (List Char)
  isName : ∀ name ∈ names, IsPathName name

namespace PosixPath

/-- The names in a text. -/
def namesIn (s : List Char) : List (List Char) :=
  (Text.words (· == '/') s).filter (· ≠ ['.'])

/-- They are names. -/
theorem isName_of_mem {s name : List Char} (h : name ∈ namesIn s) : IsPathName name := by
  obtain ⟨hword, hdot⟩ := List.mem_filter.mp h
  refine ⟨?_, of_decide_eq_true hdot, Text.not_mem_words hword⟩
  simpa using (List.mem_filter.mp hword).2

/-- Where the root of a text ends. -/
def splitRoot : List Char → PathRoot × List Char
  | '/' :: '/' :: '/' :: s => (.slash, s)
  | '/' :: '/' :: s => (.slashes, s)
  | '/' :: s => (.slash, s)
  | s => (.relative, s)

/-- `PurePosixPath(text)`. -/
def ofText (s : List Char) : PosixPath where
  root := (splitRoot s).1
  names := namesIn (splitRoot s).2
  isName _ h := isName_of_mem h

/-- `str(path)`. -/
def toText (p : PosixPath) : List Char :=
  match p.root, p.names with
  | .relative, [] => ['.']
  | .relative, names => ['/'].intercalate names
  | .slash, names => '/' :: ['/'].intercalate names
  | .slashes, names => '/' :: '/' :: ['/'].intercalate names

/-- `p / q`. A path with a root stands for itself. -/
def join (p q : PosixPath) : PosixPath :=
  match q.root with
  | .relative =>
    { p with
      names := p.names ++ q.names
      isName := fun name h => (List.mem_append.mp h).elim (p.isName name) (q.isName name) }
  | _ => q

/-- `path.name`. -/
def name (p : PosixPath) : List Char := p.names.getLast?.getD []

/-- Only the names count. -/
theorem namesIn_intercalate {names : List (List Char)} (h : ∀ name ∈ names, IsPathName name) :
    namesIn (['/'].intercalate names) = names := by
  have hwords : Text.words (· == '/') (['/'].intercalate names) = names :=
    Text.words_intercalate rfl fun name hname => ⟨(h name hname).ne_nil, (h name hname).slash⟩
  unfold namesIn
  rw [hwords]
  exact List.filter_eq_self.mpr fun name hname => decide_eq_true (h name hname).ne_dot

/-- Names do not begin with a slash. -/
theorem head_intercalate {names : List (List Char)} (h : ∀ name ∈ names, IsPathName name)
    (s : List Char) : ['/'].intercalate names ≠ '/' :: s := by
  intro heq
  cases names with
  | nil => cases heq
  | cons name names =>
    obtain ⟨hne, -, hslash⟩ := h name List.mem_cons_self
    obtain ⟨c, name, rfl⟩ := List.exists_cons_of_ne_nil hne
    have hc : c = '/' := by
      cases names <;> exact (List.cons.inj heq).1
    have hno := hslash c List.mem_cons_self
    rw [hc] at hno
    cases hno

/-- A text that begins with no slash has no root, -/
theorem splitRoot_relative {s : List Char} (h : ∀ t, s ≠ '/' :: t) :
    splitRoot s = (.relative, s) := by
  unfold splitRoot
  split
  · exact absurd rfl (h _)
  · exact absurd rfl (h _)
  · exact absurd rfl (h _)
  · rfl

/-- one that begins with a slash has one, -/
theorem splitRoot_slash {s : List Char} (h : ∀ t, s ≠ '/' :: t) :
    splitRoot ('/' :: s) = (.slash, s) := by
  cases s with
  | nil => rfl
  | cons c s =>
    unfold splitRoot
    split
    · rename_i heq
      cases heq
      exact absurd rfl (h _)
    · rename_i heq
      cases heq
      exact absurd rfl (h _)
    · rename_i heq
      cases heq
      rfl
    · rename_i hno
      exact absurd rfl (hno _)

/-- and one that begins with two has another. -/
theorem splitRoot_slashes {s : List Char} (h : ∀ t, s ≠ '/' :: t) :
    splitRoot ('/' :: '/' :: s) = (.slashes, s) := by
  unfold splitRoot
  split
  · rename_i heq
    cases heq
    exact absurd rfl (h _)
  · rename_i heq
    cases heq
    rfl
  · rename_i hno heq
    cases heq
    exact absurd rfl (hno _)
  · rename_i hno
    exact absurd rfl (hno _)

/-- A text is a path if its parts are. -/
theorem ofText_eq {p : PosixPath} {s : List Char}
    (h : splitRoot s = (p.root, ['/'].intercalate p.names)) : ofText s = p := by
  refine PosixPath.ext ?_ ?_
  · show (splitRoot s).1 = p.root
    rw [h]
  · show namesIn (splitRoot s).2 = p.names
    rw [h]
    exact namesIn_intercalate p.isName

/-- **What is written is read back.** The converse fails: a text may have slashes
and dots that are dropped. -/
@[simp] theorem ofText_toText (p : PosixPath) : ofText p.toText = p := by
  have hhead := head_intercalate p.isName
  obtain ⟨root, names, hname⟩ := p
  cases root with
  | relative =>
    cases names with
    | nil => rfl
    | cons first rest => exact ofText_eq (splitRoot_relative hhead)
  | slash => exact ofText_eq (splitRoot_slash hhead)
  | slashes => exact ofText_eq (splitRoot_slashes hhead)

/-- A path is never written as nothing. -/
theorem toText_ne_nil (p : PosixPath) : p.toText ≠ [] := by
  intro h
  obtain ⟨root, names, hname⟩ := p
  cases root with
  | relative =>
    cases names with
    | nil => cases h
    | cons first rest =>
      have hempty : namesIn (['/'].intercalate (first :: rest)) = namesIn [] := congrArg namesIn h
      rw [namesIn_intercalate hname] at hempty
      cases hempty
  | slash => cases h
  | slashes => cases h

/-! ## Strings -/

/-- `PurePosixPath(s)`. -/
def ofString (s : String) : PosixPath := ofText s.toList

/-- `str(path)`. -/
def toString (p : PosixPath) : String := String.ofList p.toText

/-- The same for strings. -/
@[simp] theorem ofString_toString (p : PosixPath) : ofString p.toString = p := by
  unfold ofString toString
  rw [String.toList_ofList, ofText_toText]

/-- It is never empty. -/
theorem toString_ne_empty (p : PosixPath) : p.toString ≠ "" := fun h =>
  p.toText_ne_nil (by simpa [toString] using congrArg String.toList h)

/-- `str(PurePosixPath(dir) / name)`. -/
def joinPath (dir name : String) : String :=
  ((ofString dir).join (ofString name)).toString

example : (ofString "/home/u/./job/").toString = "/home/u/job" := by decide

example : joinPath "data//" "tasks/1" = "data/tasks/1" := by decide

example : joinPath "data" "/tasks/1" = "/tasks/1" := by decide

end PosixPath
