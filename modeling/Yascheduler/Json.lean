import Mathlib.Data.Rat.Floor
import Yascheduler.Store.Dict

/-!
# JSON values

Values as Python and the database exchange them, and what a JSON column makes
of them.

## Numbers

Python has two kinds of numbers, which are equal when they are numerically
equal, and JSON has one. What decides the kind of a number that is read back is
its spelling: a number with a point is a `float`, one without is an `int`. A
column of type `jsonb` keeps a number as a decimal fraction and spells it in
full, without an exponent. So an `int` comes back as it was, and so does a
`float` that is spelled with a point. But from `10 ^ 16` on `repr` spells a
`float` with an exponent and with as few digits as tell it from its neighbours.
The column makes of it the integer that these digits denote, and that is what
comes back. It need not be the value of the `float`: the one next to `10 ^ 23`
is spelled `1e+23`, and it is smaller.

## Texts

The texts of PostgreSQL cannot hold the character zero, wherever in a value it
stands, and such a value is refused.
-/

namespace Yascheduler

open Store

/-- A JSON value. Its numbers are of two kinds, since Python tells them apart and a
column does not. -/
inductive Json where
  | null
  | bool (b : Bool)
  | int (n : Int)
  | float (q : Rat)
  | string (s : String)
  | array (items : List Json)
  | object (fields : List (String × Json))

/-- A mapping with string keys. -/
abbrev Metadata := Dict String Json

/-- `bool(value)`. -/
def Json.truthy : Json → Bool
  | .null => false
  | .bool b => b
  | .int n => n ≠ 0
  | .float q => q ≠ 0
  | .string s => s != ""
  | .array items => !items.isEmpty
  | .object fields => !fields.isEmpty

/-! ## The spelling of large floats

A `float` has 53 bits, so from `2 ^ 53` on not every integer is one, and the
digits that tell one from its neighbours can be fewer than those of its value.
From `10 ^ 16` on `repr` spells only the former. The search for the shortest of
them is a loop over the number of digits, and it ends at the latest with the
value itself. -/

/-- The `float` that is nearest to an integer; of two, the one with the even
significand of 53 bits. -/
def toDouble (n : Nat) : Nat :=
  let unit := 2 ^ (n.log2 + 1 - 53)
  let half := n % unit * 2
  if half < unit ∨ half = unit ∧ n / unit % 2 = 0 then n / unit * unit
  else (n / unit + 1) * unit

/-- The nearest integer to `n` of which only the first digits are not zero. -/
def roundedTo (n digits : Nat) : Nat :=
  let unit := 10 ^ ((Nat.toDigits 10 n).length - digits)
  let lower := n / unit * unit
  if n - lower ≤ lower + unit - n then lower else lower + unit

/-- It, if it denotes the same `float`. -/
def shortened (n digits : Nat) : Option Nat :=
  if toDouble (roundedTo n digits) = n then some (roundedTo n digits) else none

/-- The integer that `repr` spells for a `float` from `10 ^ 16` on: the first
digits of its value, as few as will do. -/
def shortest (n : Nat) : Nat := ((List.range' 1 17).findSome? (shortened n)).getD n

/-- **The shortest decimal of a `float` denotes it.** The search tests this for every
candidate, and the value itself is the last one. -/
theorem toDouble_shortest {n : Nat} (h : toDouble n = n) : toDouble (shortest n) = n := by
  unfold shortest
  cases hfind : (List.range' 1 17).findSome? (shortened n) with
  | none => exact h
  | some m =>
    obtain ⟨digits, -, hm⟩ := List.exists_of_findSome?_eq_some hfind
    unfold shortened at hm
    split at hm
    · next hround => exact Option.some.inj hm ▸ hround
    · cases hm

-- `1e+23` is spelled for a smaller `float`
example : shortest 99999999999999991611392 = 10 ^ 23 := by decide +kernel

/-- The integer that is spelled for a `float`, if it is spelled without a
point. -/
def spelledInt (q : Rat) : Option Int :=
  if 10 ^ 16 ≤ q then some (shortest q.floor.toNat)
  else if q ≤ -10 ^ 16 then some (-shortest (-q).floor.toNat)
  else none

/-- A `float` as a JSON column gives it back. -/
def storedFloat (q : Rat) : Json :=
  match spelledInt q with
  | some n => .int n
  | none => .float q

/-! ## What a JSON column keeps

The column refuses a value with the character zero anywhere in it, in a key as
well. Of what it accepts it changes the numbers. It also has an order of its
own for the keys, which is not kept track of here: it makes no difference to
Python, for which two mappings are equal by their entries. -/

/-- The character that no text of the database has. -/
def nul : Char := Char.ofNat 0

/-- A text that the database has. -/
def storable (s : String) : Bool := nul ∉ s.toList

mutual

/-- **What a JSON column gives back** of a value; `none` if it refuses the value. By
recursion on the value; what is refused anywhere inside is refused as a whole. -/
def Json.stored : Json → Option Json
  | .null => some .null
  | .bool b => some (.bool b)
  | .int n => some (.int n)
  | .float q => some (storedFloat q)
  | .string s => if storable s then some (.string s) else none
  | .array items => (storedItems items).map .array
  | .object fields => (storedFields fields).map .object

def storedItems : List Json → Option (List Json)
  | [] => some []
  | v :: items => do return (← v.stored) :: (← storedItems items)

def storedFields : List (String × Json) → Option (List (String × Json))
  | [] => some []
  | (k, v) :: fields =>
    if storable k then do return (k, ← v.stored) :: (← storedFields fields) else none

end

mutual

/-- A value with all its numbers of one kind. -/
def Json.plain : Json → Json
  | .int n => .float n
  | .array items => .array (plainItems items)
  | .object fields => .object (plainFields fields)
  | v => v

def plainItems : List Json → List Json
  | [] => []
  | v :: items => v.plain :: plainItems items

def plainFields : List (String × Json) → List (String × Json)
  | [] => []
  | (k, v) :: fields => (k, v.plain) :: plainFields fields

end

/-- **Two values are equal to Python**: numbers are compared by value, whatever
their kind. -/
def Json.Same (v w : Json) : Prop := v.plain = w.plain

mutual

/-- Every `float` in a value that is spelled as an integer is that integer. -/
def Json.exact : Json → Bool
  | .float q => (spelledInt q).all fun n => n = q
  | .array items => exactItems items
  | .object fields => exactFields fields
  | _ => true

def exactItems : List Json → Bool
  | [] => true
  | v :: items => v.exact && exactItems items

def exactFields : List (String × Json) → Bool
  | [] => true
  | (_, v) :: fields => v.exact && exactFields fields

end

theorem exact_of_get {fields : Metadata} (h : exactFields fields = true) {k : String} {v : Json}
    (hv : fields.get k = some v) : v.exact = true := by
  induction fields with
  | nil => cases hv
  | cons field fields ih =>
    obtain ⟨hfield, hfields⟩ := Bool.and_eq_true_iff.mp h
    rw [Dict.get_cons] at hv
    split at hv
    · exact Option.some.inj hv ▸ hfield
    · exact ih hfields hv

/-- Equal values are empty together. -/
theorem Json.truthy_plain (v : Json) : v.plain.truthy = v.truthy := by
  cases v with
  | int n => simp [plain, truthy]
  | array items => cases items <;> rfl
  | object fields => cases fields <;> rfl
  | null | bool _ | float _ | string _ => rfl

theorem Json.Same.truthy_eq {v w : Json} (h : v.Same w) : v.truthy = w.truthy := by
  rw [← truthy_plain v, h, truthy_plain]

/-- Only a string is equal to a string. -/
theorem Json.same_string {s : String} {v : Json} : (Json.string s).Same v ↔ v = .string s := by
  constructor
  · intro h
    cases v with
    | string s' => exact (Json.string.inj h) ▸ rfl
    | null | bool _ | int _ | float _ | array _ | object _ => cases h
  · rintro rfl
    rfl

/-! ## What comes back

What comes back is equal, in the sense of Python, to what was stored exactly if
the large floats are those that their spelling denotes. Both directions are one
induction on the value, since a value is equal to another only if all their
parts are. -/

@[simp] theorem storedFloat_of_some {q : Rat} {n : Int} (h : spelledInt q = some n) :
    storedFloat q = .int n := by
  rw [storedFloat, h]

@[simp] theorem storedFloat_of_none {q : Rat} (h : spelledInt q = none) :
    storedFloat q = .float q := by
  rw [storedFloat, h]

theorem same_storedFloat {q : Rat} : (storedFloat q).Same (.float q) ↔ (Json.float q).exact := by
  cases h : spelledInt q with
  | none => simp [Json.Same, Json.exact, h]
  | some n => simp [Json.Same, Json.exact, Json.plain, h]

theorem stored_storedFloat (q : Rat) : (storedFloat q).stored = some (storedFloat q) := by
  cases h : spelledInt q with
  | none => simp [Json.stored, h]
  | some n => simp [Json.stored, h]

mutual

/-- **What came back from a column, it gives back as it is.** A float that has become
an integer is an integer from then on. By induction on the value. -/
theorem Json.stored_stored : ∀ {v w : Json}, v.stored = some w → w.stored = some w
  | .null, _, h | .bool _, _, h | .int _, _, h => Option.some.inj h ▸ rfl
  | .float q, _, h => Option.some.inj h ▸ stored_storedFloat q
  | .string s, w, h => by
    rw [Json.stored] at h
    split at h
    · next hs =>
      obtain rfl := Option.some.inj h
      exact if_pos hs
    · cases h
  | .array items, w, h => by
    obtain ⟨items', hitems, rfl⟩ := Option.map_eq_some_iff.mp h
    rw [Json.stored, storedItems_stored hitems]
    rfl
  | .object fields, w, h => by
    obtain ⟨fields', hfields, rfl⟩ := Option.map_eq_some_iff.mp h
    rw [Json.stored, storedFields_stored hfields]
    rfl

theorem storedItems_stored : ∀ {items items' : List Json}, storedItems items = some items' →
    storedItems items' = some items'
  | [], _, h => Option.some.inj h ▸ rfl
  | v :: items, _, h => by
    obtain ⟨w, hw, h⟩ := Option.bind_eq_some_iff.mp h
    obtain ⟨items', hitems, h⟩ := Option.bind_eq_some_iff.mp h
    obtain rfl := Option.some.inj h
    rw [storedItems, Json.stored_stored hw, storedItems_stored hitems]
    rfl

theorem storedFields_stored : ∀ {fields fields' : List (String × Json)},
    storedFields fields = some fields' → storedFields fields' = some fields'
  | [], _, h => Option.some.inj h ▸ rfl
  | (k, v) :: fields, _, h => by
    rw [storedFields] at h
    split at h
    · next hk =>
      obtain ⟨w, hw, h⟩ := Option.bind_eq_some_iff.mp h
      obtain ⟨fields', hfields, h⟩ := Option.bind_eq_some_iff.mp h
      obtain rfl := Option.some.inj h
      rw [storedFields, if_pos hk, Json.stored_stored hw, storedFields_stored hfields]
      rfl
    · cases h

end

mutual

/-- **A value comes back as an equal one** exactly when its large floats are
exact. -/
theorem Json.same_stored : ∀ {v w : Json}, v.stored = some w → (w.Same v ↔ v.exact = true)
  | .null, _, h | .bool _, _, h | .int _, _, h => Option.some.inj h ▸ iff_of_true rfl rfl
  | .float q, _, h => Option.some.inj h ▸ same_storedFloat
  | .string s, w, h => by
    rw [Json.stored] at h
    split at h
    · obtain rfl := Option.some.inj h
      exact iff_of_true rfl rfl
    · cases h
  | .array items, w, h => by
    obtain ⟨items', hitems, rfl⟩ := Option.map_eq_some_iff.mp h
    rw [Json.Same, Json.plain, Json.plain, Json.array.injEq]
    exact plainItems_stored hitems
  | .object fields, w, h => by
    obtain ⟨fields', hfields, rfl⟩ := Option.map_eq_some_iff.mp h
    rw [Json.Same, Json.plain, Json.plain, Json.object.injEq]
    exact plainFields_stored hfields

theorem plainItems_stored : ∀ {items items' : List Json}, storedItems items = some items' →
    (plainItems items' = plainItems items ↔ exactItems items = true)
  | [], _, h => Option.some.inj h ▸ iff_of_true rfl rfl
  | v :: items, _, h => by
    obtain ⟨w, hw, h⟩ := Option.bind_eq_some_iff.mp h
    obtain ⟨items', hitems, h⟩ := Option.bind_eq_some_iff.mp h
    obtain rfl := Option.some.inj h
    rw [plainItems, plainItems, List.cons.injEq, exactItems, Bool.and_eq_true,
      ← Json.same_stored hw, plainItems_stored hitems]
    rfl

theorem plainFields_stored : ∀ {fields fields' : List (String × Json)},
    storedFields fields = some fields' →
      (plainFields fields' = plainFields fields ↔ exactFields fields = true)
  | [], _, h => Option.some.inj h ▸ iff_of_true rfl rfl
  | (k, v) :: fields, _, h => by
    rw [storedFields] at h
    split at h
    · obtain ⟨w, hw, h⟩ := Option.bind_eq_some_iff.mp h
      obtain ⟨fields', hfields, h⟩ := Option.bind_eq_some_iff.mp h
      obtain rfl := Option.some.inj h
      rw [plainFields, plainFields, List.cons.injEq, Prod.mk.injEq, exactFields,
        Bool.and_eq_true, ← Json.same_stored hw, plainFields_stored hfields, and_iff_right rfl]
      rfl
    · cases h

end

end Yascheduler
