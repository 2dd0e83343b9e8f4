import Mathlib.Algebra.Group.Nat.Defs
import Mathlib.Data.List.Basic

/-!
# Strings as Python reads them

What a parser of command line arguments needs of Python's `str`: a text cut at
its only occurrence of a character, `str.isdigit`, and `int` of a string.

`int` reads more than the digits `0` to `9`. It reads the decimal digits of
every script, skips white space on both sides, takes a sign, and skips single
underscores between digits. And since a value of `n` digits takes more than
linear time to convert, it does not read more than 4300 digits. A *numeral*
here is a string of the digits `0` to `9`, and the facts of this module relate
the two: `int_eq_of_numeral` and `int_toDigits`.

## Why not numbers

The code looks at a string with `isdigit` and then reads it with `int`, or reads
it with `int` and hopes. The two do not agree: `isdigit` holds of digits that
`int` refuses, like `²`, and `int` reads strings of which `isdigit` does not
hold, like `+1`. If numbers were strings of ASCII digits from the start, none of
this could be said. So both are defined for every character, by the ranges that
Unicode gives, and a statement that wants plain numbers says so.
-/

namespace Text

/-! ## Cutting

`partition` cuts at the first separator and says nothing about a second one.
The code that is modelled counts them first, and a text with more than one is
refused, so a cut is defined for those with at most one. It loses nothing then,
and a text is what its parts say. -/

section

variable {α : Type} [DecidableEq α]

/-- The text before the first `sep`, and the text after it: `str.partition`. -/
def partition (sep : α) (s : List α) : List α × List α :=
  (s.takeWhile (· ≠ sep), (s.dropWhile (· ≠ sep)).tail)

/-- The text, cut in two at its only `sep`, if it has one; `none` if it has
several. -/
def cut (sep : α) (s : List α) : Option (List α × Option (List α)) :=
  if 1 < s.count sep then none
  else if s.count sep = 1 then some ((partition sep s).1, some (partition sep s).2)
  else some (s, none)

/-- A part that may be missing, with the `sep` before it. -/
def part (sep : α) : Option (List α) → List α
  | none => []
  | some after => sep :: after

variable {sep : α} {s before after : List α}

/-- It is cut where the separator is. -/
theorem partition_append (h : sep ∉ before) :
    partition sep (before ++ sep :: after) = (before, after) := by
  have hp : ∀ x ∈ before, decide (x ≠ sep) = true := fun x hx =>
    decide_eq_true fun e => h (e ▸ hx)
  unfold partition
  rw [List.takeWhile_append_of_pos hp, List.dropWhile_append_of_pos hp]
  simp

/-- A text without the separator is one part. -/
theorem cut_of_notMem (h : sep ∉ s) : cut sep s = some (s, none) := by
  unfold cut
  rw [List.count_eq_zero.mpr h]
  rfl

/-- The separator after a part counts once. -/
theorem count_append_cons (h : sep ∉ before) :
    (before ++ sep :: after).count sep = after.count sep + 1 := by
  rw [List.count_append, List.count_eq_zero.mpr h, List.count_cons_self, Nat.zero_add]

/-- A text with a single separator has two parts. -/
theorem cut_append (hb : sep ∉ before) (ha : sep ∉ after) :
    cut sep (before ++ sep :: after) = some (before, some after) := by
  unfold cut
  rw [count_append_cons hb, List.count_eq_zero.mpr ha, partition_append hb]
  rfl

/-- **A cut is exact**: its parts are free of the separator, and they are the text.
So a text is what its parts say, and nothing is lost. -/
theorem cut_eq_some_iff {after : Option (List α)} :
    cut sep s = some (before, after) ↔
      s = before ++ part sep after ∧ sep ∉ before ∧ ∀ w ∈ after, sep ∉ w := by
  constructor
  · intro h
    by_cases hmem : sep ∈ s
    · obtain ⟨xs, ys, rfl, hx⟩ := List.eq_append_cons_of_mem hmem
      by_cases hy : sep ∈ ys
      · -- the separator occurs twice
        have hcount : 1 < (xs ++ sep :: ys).count sep := by
          rw [count_append_cons hx]
          exact Nat.succ_lt_succ (List.count_pos_iff.mpr hy)
        rw [cut, if_pos hcount] at h
        cases h
      · rw [cut_append hx hy] at h
        cases h
        exact ⟨rfl, hx, fun _ h => by cases h; exact hy⟩
    · rw [cut_of_notMem hmem] at h
      cases h
      exact ⟨(List.append_nil s).symm, hmem, nofun⟩
  · rintro ⟨rfl, hb, ha⟩
    cases after with
    | none => rw [part, List.append_nil, cut_of_notMem hb]
    | some w => exact cut_append hb (ha w rfl)

omit [DecidableEq α] in
theorem notMem_part {c : α} {w : Option (List α)} (h : c ≠ sep) :
    c ∉ part sep w ↔ ∀ x ∈ w, c ∉ x := by
  cases w with
  | none => exact iff_of_true List.not_mem_nil nofun
  | some w => simp [part, h]

/-- A text is put together in one way. -/
theorem append_part_inj {before' : List α} {after after' : Option (List α)}
    (hb : sep ∉ before) (ha : ∀ w ∈ after, sep ∉ w) (hb' : sep ∉ before')
    (ha' : ∀ w ∈ after', sep ∉ w) (h : before ++ part sep after = before' ++ part sep after') :
    before = before' ∧ after = after' := by
  have hcut : cut sep (before ++ part sep after) = some (before', after') :=
    cut_eq_some_iff.mpr ⟨h, hb', ha'⟩
  rw [cut_eq_some_iff.mpr ⟨rfl, hb, ha⟩] at hcut
  cases hcut
  exact ⟨rfl, rfl⟩

end

/-! ## Digits

The tables are those of Unicode. A decimal digit has a value, which `int` uses,
and its script has ten of them in a row, so the zeros are enough to know. The
digits without a decimal value are listed by themselves. -/

/-- The zeros of the decimal digits of Unicode 15. The other nine digits of a
script follow its zero. -/
def decimalZeros : List Nat :=
  [0x30, 0x660, 0x6f0, 0x7c0, 0x966, 0x9e6, 0xa66, 0xae6, 0xb66, 0xbe6, 0xc66, 0xce6, 0xd66,
    0xde6, 0xe50, 0xed0, 0xf20, 0x1040, 0x1090, 0x17e0, 0x1810, 0x1946, 0x19d0, 0x1a80,
    0x1a90, 0x1b50, 0x1bb0, 0x1c40, 0x1c50, 0xa620, 0xa8d0, 0xa900, 0xa9d0, 0xa9f0, 0xaa50,
    0xabf0, 0xff10, 0x104a0, 0x10d30, 0x11066, 0x110f0, 0x11136, 0x111d0, 0x112f0, 0x11450,
    0x114d0, 0x11650, 0x116c0, 0x11730, 0x118e0, 0x11950, 0x11c50, 0x11d50, 0x11da0, 0x11f50,
    0x16a60, 0x16ac0, 0x16b50, 0x1d7ce, 0x1d7d8, 0x1d7e2, 0x1d7ec, 0x1d7f6, 0x1e140, 0x1e2f0,
    0x1e4f0, 0x1e950, 0x1fbf0]

/-- The digits that are not decimal: superscripts, circled digits and the
like. -/
def otherDigits : List (Nat × Nat) :=
  [(0xb2, 0xb3), (0xb9, 0xb9), (0x1369, 0x1371), (0x19da, 0x19da), (0x2070, 0x2070),
    (0x2074, 0x2079), (0x2080, 0x2089), (0x2460, 0x2468), (0x2474, 0x247c), (0x2488, 0x2490),
    (0x24ea, 0x24ea), (0x24f5, 0x24fd), (0x24ff, 0x24ff), (0x2776, 0x277e), (0x2780, 0x2788),
    (0x278a, 0x2792), (0x10a40, 0x10a43), (0x10e60, 0x10e68), (0x11052, 0x1105a),
    (0x1f100, 0x1f10a)]

/-- The value of a decimal digit. -/
def decimal (c : Char) : Option Nat :=
  (decimalZeros.find? fun z => z ≤ c.toNat && c.toNat < z + 10).map (c.toNat - ·)

/-- `c.isdigit()`. There are more digits than `int` reads. -/
def isDigit (c : Char) : Bool :=
  (decimal c).isSome || otherDigits.any fun r => r.1 ≤ c.toNat && c.toNat ≤ r.2

/-- `s.isdigit()`. -/
def isDigits (s : List Char) : Bool := !s.isEmpty && s.all isDigit

/-! ## White space -/

/-- `str.isspace` of a character. -/
def isSpace (c : Char) : Bool :=
  let n := c.toNat
  (9 ≤ n ∧ n ≤ 13) ∨ (28 ≤ n ∧ n ≤ 32) ∨ n = 0x85 ∨ n = 0xA0 ∨ n = 0x1680 ∨
    (0x2000 ≤ n ∧ n ≤ 0x200A) ∨ n = 0x2028 ∨ n = 0x2029 ∨ n = 0x202F ∨ n = 0x205F ∨
    n = 0x3000

/-- A text without what is skipped on both sides. -/
def stripBy (p : Char → Bool) (s : List Char) : List Char :=
  ((s.dropWhile p).reverse.dropWhile p).reverse

/-- `str.strip`. It knows more white space than ASCII does. -/
def strip (s : List Char) : List Char := stripBy isSpace s

/-- Where nothing is to be skipped nothing is. -/
theorem stripBy_of_forall {p : Char → Bool} {s : List Char} (h : ∀ c ∈ s, p c = false) :
    stripBy p s = s := by
  have hdrop : ∀ {s : List Char}, (∀ c ∈ s, p c = false) → s.dropWhile p = s := by
    intro s hs
    cases s with
    | nil => rfl
    | cons c s =>
      exact List.dropWhile_cons_of_neg (by rw [hs c List.mem_cons_self]; exact Bool.false_ne_true)
  rw [stripBy, hdrop h, hdrop fun c hc => h c (List.mem_reverse.mp hc), List.reverse_reverse]

/-! ## `int`

The grammar of `int` is wider than that of the numbers anyone would type, and
it is not the set of strings that `isdigit` accepts. Both differences can be
reached by a command line, which is why they are not smoothed over here. -/

/-- The white space that `int` skips: the separators 28 to 31 are space for
`str.isspace`, but not here. -/
def isIntSpace (c : Char) : Bool := isSpace c && !(28 ≤ c.toNat && c.toNat ≤ 31)

/-- Decimal digits, with single underscores between them. They may be of several
scripts. -/
def groupedDigits : List Char → Option (List Nat)
  | [] => none
  | c :: cs =>
    match decimal c with
    | none => none
    | some d =>
      match cs with
      | [] => some [d]
      | '_' :: cs => (groupedDigits cs).map (d :: ·)
      | cs => (groupedDigits cs).map (d :: ·)

/-- `sys.get_int_max_str_digits()`, by default. -/
def maxStrDigits : Nat := 4300

/-- The value of digits, the most significant first. -/
def ofDigits (ds : List Nat) : Nat := ds.foldl (fun n d => 10 * n + d) 0

/-- The value of an unsigned number. -/
def natural (s : List Char) : Option Int :=
  (groupedDigits s).bind fun ds => if maxStrDigits < ds.length then none else some (ofDigits ds)

/-- `int(s)`; `none` for a `ValueError`. It reads more than one would write: signs,
white space around the number, underscores, and digits of any script. -/
def int (s : List Char) : Option Int :=
  match stripBy isIntSpace s with
  | '+' :: cs => natural cs
  | '-' :: cs => (natural cs).map (-·)
  | cs => natural cs

example : int " +1_0\n".toList = some 10 ∧ int "1__0".toList = none ∧ int "²".toList = none := by
  decide

/-! ## Numerals

Numerals are the common part: strings on which `isdigit` holds and `int` gives
the value one expects. The only thing that is left of the differences is the
length, above which `int` refuses to read. -/

/-- A string of the digits `0` to `9`. This is what one would write. -/
def IsNumeral (s : List Char) : Prop := s ≠ [] ∧ ∀ c ∈ s, c.isDigit = true

instance (s : List Char) : Decidable (IsNumeral s) := inferInstanceAs (Decidable (_ ∧ _))

/-- The value of a numeral. -/
def value (s : List Char) : Nat := Nat.ofDigitChars 10 s 0

/-- The number of a numeral, of any length. -/
def numeral (s : List Char) : Option Int := if IsNumeral s then some (value s) else none

/-- The numerals are ten characters in a row. -/
theorem toNat_of_isDigit {c : Char} (h : c.isDigit = true) : 48 ≤ c.toNat ∧ c.toNat ≤ 57 :=
  Char.isDigit_iff_toNat.mp h

/-- The first script of the table is that of the numerals. -/
theorem decimal_of_isDigit {c : Char} (h : c.isDigit = true) :
    decimal c = some (c.toNat - 48) := by
  have hc := toNat_of_isDigit h
  have hzeros : decimalZeros = 0x30 :: decimalZeros.tail := rfl
  have hfind : decimalZeros.find? (fun z => z ≤ c.toNat && c.toNat < z + 10) = some 0x30 := by
    rw [hzeros]
    refine List.find?_cons_of_pos ?_
    simp only [Bool.and_eq_true, decide_eq_true_eq]
    omega
  rw [decimal, hfind]
  rfl

/-- A digit is no white space, -/
theorem isSpace_of_isDigit {c : Char} (h : c.isDigit = true) : isSpace c = false := by
  have hc := toNat_of_isDigit h
  refine decide_eq_false ?_
  omega

/-- nor is it any for `int`. -/
theorem isIntSpace_of_isDigit {c : Char} (h : c.isDigit = true) : isIntSpace c = false := by
  rw [isIntSpace, isSpace_of_isDigit h, Bool.false_and]

/-- A numeral consists of digits. -/
theorem isDigits_of_isNumeral {s : List Char} (h : IsNumeral s) : isDigits s = true := by
  have hall : s.all isDigit = true := List.all_eq_true.mpr fun c hc => by
    rw [isDigit, decimal_of_isDigit (h.2 c hc)]
    rfl
  rw [isDigits, hall, List.isEmpty_eq_false_iff.mpr h.1]
  rfl

/-- There is nothing around it. -/
theorem strip_of_isNumeral {s : List Char} (h : IsNumeral s) : stripBy isIntSpace s = s :=
  stripBy_of_forall fun c hc => isIntSpace_of_isDigit (h.2 c hc)

/-- The digits of a numeral are read one by one. -/
theorem groupedDigits_of_isNumeral {s : List Char} (h : IsNumeral s) :
    groupedDigits s = some (s.map fun c => c.toNat - 48) := by
  obtain ⟨hne, hd⟩ := h
  induction s with
  | nil => exact absurd rfl hne
  | cons c s ih =>
    rw [groupedDigits, decimal_of_isDigit (hd c List.mem_cons_self)]
    cases s with
    | nil => rfl
    | cons c' s =>
      have hc' : c' ≠ '_' := by
        rintro rfl
        exact absurd (hd _ (List.mem_cons_of_mem _ List.mem_cons_self)) (by decide)
      have htail := ih (by simp) fun x hx => hd x (List.mem_cons_of_mem _ hx)
      simp [htail, hc']

/-- Its digits have its value. -/
theorem ofDigits_map (s : List Char) : ofDigits (s.map fun c => c.toNat - 48) = value s :=
  List.foldl_map

/-- It is read as an unsigned number. -/
theorem natural_of_isNumeral {s : List Char} (h : IsNumeral s) :
    natural s = if maxStrDigits < s.length then none else some (value s : Int) := by
  rw [natural, groupedDigits_of_isNumeral h, Option.bind_some, List.length_map, ofDigits_map]

/-- **A numeral is read, unless it is too long.** The limit is one of `int` and not
of the value, so leading zeros count. -/
theorem int_of_isNumeral {s : List Char} (h : IsNumeral s) :
    int s = if maxStrDigits < s.length then none else some (value s : Int) := by
  rw [← natural_of_isNumeral h, int, strip_of_isNumeral h]
  split
  · exact absurd (h.2 '+' List.mem_cons_self) (by decide)
  · exact absurd (h.2 '-' List.mem_cons_self) (by decide)
  · rfl

/-- What has the number of a numeral is one. -/
theorem isNumeral_of_numeral {s : List Char} {n : Int} (h : numeral s = some n) : IsNumeral s := by
  by_contra hno
  rw [numeral, if_neg hno] at h
  cases h

/-- On numerals of a length that is read, `int` is their value. -/
theorem int_eq_numeral {s : List Char} (h : IsNumeral s) (hlen : s.length ≤ maxStrDigits) :
    int s = numeral s := by
  rw [int_of_isNumeral h, if_neg (Nat.not_lt.mpr hlen), numeral, if_pos h]

/-- A numeral that is read is not too long. -/
theorem length_le_of_int {s : List Char} {n : Int} (h : IsNumeral s) (hn : int s = some n) :
    s.length ≤ maxStrDigits := by
  by_contra hlen
  rw [int_of_isNumeral h, if_pos (Nat.lt_of_not_le hlen)] at hn
  cases hn

/-! ## Writing a number

A number that was read can be written in the digits `0` to `9`, in whatever
script it was read. That what is written can be read again is not obvious,
because of the limit on the length: it holds since writing never needs more
digits than were read. -/

/-- A number is written as a numeral, -/
theorem isNumeral_toDigits (n : Nat) : IsNumeral (Nat.toDigits 10 n) :=
  ⟨Nat.toDigits_ne_nil, fun _ hc => Nat.isDigit_of_mem_toDigits (by decide) (by decide) hc⟩

/-- which has its value. -/
theorem value_toDigits (n : Nat) : value (Nat.toDigits 10 n) = n :=
  Nat.ofDigitChars_ten_toDigits

/-- A digit is less than ten. -/
theorem decimal_lt {c : Char} {d : Nat} (h : decimal c = some d) : d < 10 := by
  obtain ⟨z, hz, rfl⟩ := Option.map_eq_some_iff.mp h
  have hrange := List.find?_some hz
  simp only [Bool.and_eq_true, decide_eq_true_eq] at hrange
  omega

/-- So are all digits that were read. -/
theorem groupedDigits_lt {s : List Char} {ds : List Nat} (h : groupedDigits s = some ds) :
    ∀ d ∈ ds, d < 10 := by
  fun_induction groupedDigits s generalizing ds with
  | case1 => cases h
  | case2 => cases h
  | case3 c d hd =>
    cases h
    exact fun d' hd' => List.mem_singleton.mp hd' ▸ decimal_lt hd
  | case4 c d hd cs ih =>
    obtain ⟨ds, hds, rfl⟩ := Option.map_eq_some_iff.mp h
    exact List.forall_mem_cons.mpr ⟨decimal_lt hd, ih hds⟩
  | case5 c d hd cs _ _ ih =>
    obtain ⟨ds, hds, rfl⟩ := Option.map_eq_some_iff.mp h
    exact List.forall_mem_cons.mpr ⟨decimal_lt hd, ih hds⟩

/-- A number with so many digits is less than this power. By induction on the
digits. -/
theorem foldl_lt {ds : List Nat} (h : ∀ d ∈ ds, d < 10) (n : Nat) :
    ds.foldl (fun n d => 10 * n + d) n < (n + 1) * 10 ^ ds.length := by
  induction ds generalizing n with
  | nil => simp
  | cons d ds ih =>
    obtain ⟨hd, hds⟩ := List.forall_mem_cons.mp h
    calc ds.foldl (fun n d => 10 * n + d) (10 * n + d)
        < (10 * n + d + 1) * 10 ^ ds.length := ih hds _
      _ ≤ ((n + 1) * 10) * 10 ^ ds.length := Nat.mul_le_mul_right _ (by omega)
      _ = (n + 1) * 10 ^ (ds.length + 1) := by rw [Nat.mul_assoc, ← Nat.pow_succ']

/-- What is read has not more digits than may be read. -/
theorem natural_lt {s : List Char} {n : Int} (h : natural s = some n) :
    0 ≤ n ∧ n.toNat < 10 ^ maxStrDigits := by
  obtain ⟨ds, hds, hn⟩ := Option.bind_eq_some_iff.mp h
  split at hn
  · cases hn
  next hlen =>
    cases hn
    refine ⟨Int.natCast_nonneg _, ?_⟩
    calc ofDigits ds < (0 + 1) * 10 ^ ds.length := foldl_lt (groupedDigits_lt hds) 0
      _ = 10 ^ ds.length := by rw [Nat.zero_add, Nat.one_mul]
      _ ≤ 10 ^ maxStrDigits := Nat.pow_le_pow_right (by decide) (Nat.le_of_not_lt hlen)

/-- With a sign as well. -/
theorem int_lt {s : List Char} {n : Int} (h : int s = some n) :
    n.toNat < 10 ^ maxStrDigits := by
  unfold int at h
  split at h
  · exact (natural_lt h).2
  · obtain ⟨m, hm, rfl⟩ := Option.map_eq_some_iff.mp h
    have hpos := (natural_lt hm).1
    have hzero : (-m).toNat = 0 := by omega
    rw [hzero]
    exact Nat.pow_pos (by decide)
  · exact (natural_lt h).2

/-- **What was read can be written and read again.** It is not too long to be read,
since it was not when it was read first. -/
theorem int_toDigits {s : List Char} {n : Nat} (h : int s = some (n : Int)) :
    int (Nat.toDigits 10 n) = some (n : Int) := by
  have hlen : (Nat.toDigits 10 n).length ≤ maxStrDigits :=
    (Nat.length_toDigits_le_iff (by decide) (by decide)).mpr (int_lt h)
  rw [int_of_isNumeral (isNumeral_toDigits n), if_neg (Nat.not_lt.mpr hlen), value_toDigits]

end Text
