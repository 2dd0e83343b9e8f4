import Mathlib.Data.List.Basic

/-!
# Interpolation

What `configparser` makes of a value with percent signs. Two of them stand for
one, and `%(name)s` stands for the value of another option, which is
interpolated in its turn, down to a depth of ten. Any other percent sign is an
error.

The check that a value passes when it is *set* is not the one it passes when it
is *read*. It looks at the value without its pairs of percent signs, wherever
these are, and does not look whether the names are there. So a value may be set
that cannot be read. For values without percent signs there is no difference,
and nothing happens to them (`interpolate_plain`, `settable_plain`).
-/

namespace Interpolation

/-- Where the scanner is: in the text, behind a percent sign, in a name, or behind
one. -/
inductive Place where
  | text
  | percent
  | name (read : List Char)
  | closing (read : List Char)

/-- What a value is made of. A percent sign that begins nothing is a token too, since
where it stands decides which error is raised. -/
inductive Token where
  | char (c : Char)
  | ref (name : List Char)
  | bad
deriving DecidableEq

/-- The parts of a value, up to the first error. A percent sign begins a reference
or an escape, and anything else is an error. -/
def scan : Place → List Char → List Token
  | .text, [] => []
  | _, [] => [.bad]
  | .text, c :: s => if c = '%' then scan .percent s else .char c :: scan .text s
  | .percent, c :: s =>
    if c = '%' then .char '%' :: scan .text s
    else if c = '(' then scan (.name []) s
    else [.bad]
  | .name read, c :: s =>
    if c = ')' then
      if read = [] then [.bad] else scan (.closing read) s
    else scan (.name (read ++ [c])) s
  | .closing read, c :: s => if c = 's' then .ref read :: scan .text s else [.bad]

/-- Why a value cannot be read. The first reason from the left is the one that is
raised. -/
inductive Error where
  | depth
  | missing (name : List Char)
  | malformed
deriving DecidableEq

/-- What a part of a value stands for. -/
def readToken (lookup : List Char → Option (List Char))
    (read : List Char → Except Error (List Char)) : Token → Except Error (List Char)
  | .char c => .ok [c]
  | .ref name =>
    match lookup name with
    | none => .error (.missing name)
    | some v => if '%' ∈ v then read v else .ok v
  | .bad => .error .malformed

/-- `_interpolate_some`, with as many levels to go. A value that refers to itself is
stopped by the levels, and not by its shape. -/
def interpolate (lookup : List Char → Option (List Char)) :
    Nat → List Char → Except Error (List Char)
  | 0, _ => .error .depth
  | levels + 1, s => do
    let parts ← (scan .text s).mapM (readToken lookup (interpolate lookup levels))
    return parts.flatten

/-- `MAX_INTERPOLATION_DEPTH`. -/
def maxDepth : Nat := 10

/-- `value.replace("%%", "")`. -/
def dropEscapes : List Char → List Char
  | '%' :: '%' :: s => dropEscapes s
  | c :: s => c :: dropEscapes s
  | [] => []

/-- `before_set` does not raise. It removes the escapes and the references, and a
percent sign that is left makes it raise. -/
def settable (s : List Char) : Bool := .bad ∉ scan .text (dropEscapes s)

variable {s : List Char}

/-- A value without percent signs is its characters. -/
theorem scan_plain (h : '%' ∉ s) : scan .text s = s.map .char := by
  induction s with
  | nil => rfl
  | cons c s ih =>
    obtain ⟨hc, hs⟩ := List.ne_and_not_mem_of_not_mem_cons h
    rw [scan, if_neg (Ne.symm hc), ih hs, List.map_cons]

/-- Nothing is dropped from it. -/
theorem dropEscapes_plain (h : '%' ∉ s) : dropEscapes s = s := by
  induction s with
  | nil => rfl
  | cons c s ih =>
    obtain ⟨hc, hs⟩ := List.ne_and_not_mem_of_not_mem_cons h
    rw [dropEscapes, ih hs]
    rintro t rfl
    exact absurd rfl hc

/-- **A value without percent signs is read as it is.** Whatever the other options
are, since none of them is referred to. -/
theorem interpolate_plain {lookup : List Char → Option (List Char)} {levels : Nat}
    (h : '%' ∉ s) : interpolate lookup (levels + 1) s = .ok s := by
  rw [interpolate, scan_plain h]
  have hparts : (s.map Token.char).mapM (readToken lookup (interpolate lookup levels)) =
      .ok (s.map fun c => [c]) := by
    clear h
    induction s with
    | nil => rfl
    | cons c s ih =>
      rw [List.map_cons, List.mapM_cons, ih]
      rfl
  rw [hparts]
  exact congrArg Except.ok (List.flatMap_def.symm.trans (List.flatMap_singleton' s))

/-- And it may be set. -/
theorem settable_plain (h : '%' ∉ s) : settable s = true := by
  unfold settable
  rw [dropEscapes_plain h, scan_plain h]
  simp

example : interpolate (fun _ => some "b%%".toList) maxDepth "a%(x)s%%".toList =
    .ok "ab%%".toList := by decide

/-- It may be set, but not read. -/
example : settable "%(%%a)s".toList = true ∧
    interpolate (fun _ => none) maxDepth "%(%%a)s".toList = .error (.missing "%%a".toList) := by
  decide

end Interpolation
