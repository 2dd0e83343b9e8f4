import Mathlib.Data.List.Basic

/-!
# Base64

The encoder, three bytes at a time, and a lenient decoder: it
skips every character outside the alphabet, stops at a padding that completes
a group, and fails only when the text ends inside a group.

Three facts about them: the decoder undoes the encoder (`decode_encode`); it
does so whenever the padding is long enough, and fails otherwise
(`decode_core`); and what it decodes has fewer bytes than the text has
characters of the alphabet (`length_decode`), so that no text decodes to its
own bytes.

The decoder is that of `binascii`, and it is lenient in ways that matter for
what can be recovered from a text that was damaged on the way. Line feeds and
other characters between the digits do no harm. Characters after the padding are
not looked at. Missing padding is an error, and since padding at the start of a
group is skipped, too much of it is none – so code that does not know how much
is missing can safely add more than enough.
-/

namespace Codec

/-! ## The alphabet -/

/-- The alphabet, by value. -/
def alphabet : List Char :=
  "ABCDEFGHIJKLMNOPQRSTUVWXYZabcdefghijklmnopqrstuvwxyz0123456789+/".toList

/-- The character of a value below 64. -/
def digit (n : Nat) : Char := alphabet.getD n 'A'

/-- The value of a character of the alphabet. -/
def value (c : Char) : Option Nat := alphabet.idxOf? c

/-- The string, taken apart once and for all. -/
theorem alphabet_eq : alphabet =
    ['A', 'B', 'C', 'D', 'E', 'F', 'G', 'H', 'I', 'J', 'K', 'L', 'M', 'N', 'O', 'P',
      'Q', 'R', 'S', 'T', 'U', 'V', 'W', 'X', 'Y', 'Z', 'a', 'b', 'c', 'd', 'e', 'f',
      'g', 'h', 'i', 'j', 'k', 'l', 'm', 'n', 'o', 'p', 'q', 'r', 's', 't', 'u', 'v',
      'w', 'x', 'y', 'z', '0', '1', '2', '3', '4', '5', '6', '7', '8', '9', '+', '/'] :=
  String.toList_ofList

theorem value_digit : ∀ n < 64, value (digit n) = some n := by
  unfold value digit
  rw [alphabet_eq]
  decide +kernel

theorem digit_mem (n : Nat) : digit n ∈ alphabet := by
  unfold digit
  rw [List.getD_eq_getElem?_getD]
  cases h : alphabet[n]? with
  | none =>
    rw [alphabet_eq]
    exact List.mem_cons_self
  | some c => exact List.mem_of_getElem? h

theorem pad_notMem : '=' ∉ alphabet := by
  rw [alphabet_eq]
  decide

theorem digit_ne_pad (n : Nat) : digit n ≠ '=' := fun h => pad_notMem (h ▸ digit_mem n)

theorem value_pad : value '=' = none := List.idxOf?_eq_none_iff.mpr pad_notMem

/-! ## Encoding

Three bytes are four characters of six bits each. One or two bytes at the end
are two or three characters, filled up with the padding. All of them are
printable, which matters where the text is put into a line of a file or a JSON
string. -/

/-- Encode bytes. -/
def encode : List UInt8 → List Char
  | [] => []
  | [a] => [digit (a.toNat / 4), digit (a.toNat % 4 * 16), '=', '=']
  | [a, b] =>
    [digit (a.toNat / 4), digit (a.toNat % 4 * 16 + b.toNat / 16),
      digit (b.toNat % 16 * 4), '=']
  | a :: b :: c :: bytes =>
    digit (a.toNat / 4) :: digit (a.toNat % 4 * 16 + b.toNat / 16) ::
      digit (b.toNat % 16 * 4 + c.toNat / 64) :: digit (c.toNat % 64) :: encode bytes

/-- A character that is neither white space nor outside ASCII. -/
def Printable (c : Char) : Prop := 33 ≤ c.toNat ∧ c.toNat < 127

theorem digit_printable (n : Nat) : Printable (digit n) := by
  have hall : alphabet.all (fun c => 33 ≤ c.toNat && c.toNat < 127) = true := by
    rw [alphabet_eq]
    decide
  simpa [Printable] using List.all_eq_true.mp hall _ (digit_mem n)

theorem pad_printable : Printable '=' := ⟨by decide, by decide⟩

/-- What is encoded is printable. -/
theorem encode_printable (bytes : List UInt8) : ∀ c ∈ encode bytes, Printable c := by
  induction bytes using encode.induct with
  | case1 => simp [encode]
  | case2 a => simp [encode, digit_printable, pad_printable]
  | case3 a b => simp [encode, digit_printable, pad_printable]
  | case4 a b c bytes ih => simpa [encode, digit_printable] using ih

/-- A group is four characters. -/
theorem length_encode (bytes : List UInt8) : (encode bytes).length % 4 = 0 := by
  induction bytes using encode.induct with
  | case1 => rfl
  | case2 a => simp [encode]
  | case3 a b => simp [encode]
  | case4 a b c bytes ih =>
    simp only [encode, List.length_cons]
    omega

/-! ## Decoding

The decoder is a machine with a position in the group, the bits that are left
of it, and a count of the padding. The lemmas about one character say what it
does in each position, and with them the decoding of an encoded group is a
calculation with bytes. -/

/-- Decode from a position in a group of four: how many characters of the
group have been read, the bits that are left of them, and how many padding
characters came since. -/
def decodeFrom (position left pads : Nat) : List Char → Option (List UInt8)
  | [] => if position = 0 then some [] else none
  | c :: text =>
    if c = '=' then
      if 2 ≤ position then
        if 4 ≤ position + (pads + 1) then some []
        else decodeFrom position left (pads + 1) text
      else decodeFrom position left pads text
    else
      match value c with
      | none => decodeFrom position left pads text
      | some v =>
        match position with
        | 0 => decodeFrom 1 v 0 text
        | 1 => (decodeFrom 2 (v % 16) 0 text).map (UInt8.ofNat (left * 4 + v / 16) :: ·)
        | 2 => (decodeFrom 3 (v % 4) 0 text).map (UInt8.ofNat (left * 16 + v / 4) :: ·)
        | _ => (decodeFrom 0 0 0 text).map (UInt8.ofNat (left * 64 + v) :: ·)

/-- Decode a text. -/
def decode (text : List Char) : Option (List UInt8) := decodeFrom 0 0 0 text

section

variable {left pads v : Nat} {text : List Char} (hv : v < 64)

include hv

/-- A character of the alphabet is read. -/
theorem decodeFrom_digit (position : Nat) :
    decodeFrom position left pads (digit v :: text) =
      match position with
      | 0 => decodeFrom 1 v 0 text
      | 1 => (decodeFrom 2 (v % 16) 0 text).map (UInt8.ofNat (left * 4 + v / 16) :: ·)
      | 2 => (decodeFrom 3 (v % 4) 0 text).map (UInt8.ofNat (left * 16 + v / 4) :: ·)
      | _ => (decodeFrom 0 0 0 text).map (UInt8.ofNat (left * 64 + v) :: ·) := by
  rw [decodeFrom, if_neg (digit_ne_pad v), value_digit v hv]

theorem decodeFrom_zero :
    decodeFrom 0 left pads (digit v :: text) = decodeFrom 1 v 0 text := decodeFrom_digit hv 0

theorem decodeFrom_one :
    decodeFrom 1 left pads (digit v :: text) =
      (decodeFrom 2 (v % 16) 0 text).map (UInt8.ofNat (left * 4 + v / 16) :: ·) :=
  decodeFrom_digit hv 1

theorem decodeFrom_two :
    decodeFrom 2 left pads (digit v :: text) =
      (decodeFrom 3 (v % 4) 0 text).map (UInt8.ofNat (left * 16 + v / 4) :: ·) :=
  decodeFrom_digit hv 2

theorem decodeFrom_three :
    decodeFrom 3 left pads (digit v :: text) =
      (decodeFrom 0 0 0 text).map (UInt8.ofNat (left * 64 + v) :: ·) := decodeFrom_digit hv 3

end

/-- The first byte of a group, put together from its two characters. -/
theorem first_byte (a : UInt8) {low : Nat} (h : low < 16) :
    UInt8.ofNat (a.toNat / 4 * 4 + (a.toNat % 4 * 16 + low) / 16) = a := by
  have hval : a.toNat / 4 * 4 + (a.toNat % 4 * 16 + low) / 16 = a.toNat := by omega
  rw [hval, UInt8.ofNat_toNat]

theorem second_byte (b : UInt8) (high : Nat) {low : Nat} (h : low < 4) :
    UInt8.ofNat ((high * 16 + b.toNat / 16) % 16 * 16 + (b.toNat % 16 * 4 + low) / 4) = b := by
  have hb := b.toNat_lt
  have hval : (high * 16 + b.toNat / 16) % 16 * 16 + (b.toNat % 16 * 4 + low) / 4 =
      b.toNat := by omega
  rw [hval, UInt8.ofNat_toNat]

theorem third_byte (c : UInt8) (high : Nat) :
    UInt8.ofNat ((high * 4 + c.toNat / 64) % 4 * 64 + c.toNat % 64) = c := by
  have hc := c.toNat_lt
  have hval : (high * 4 + c.toNat / 64) % 4 * 64 + c.toNat % 64 = c.toNat := by omega
  rw [hval, UInt8.ofNat_toNat]

/-! ## Padding that is missing or too much

What the decoder makes of the characters of an encoding is settled by the
characters before the padding. The padding only has to be long enough, and the
characters that the decoder skips can be dropped before one looks. So the
decoder is understood on texts of the form *core and padding*, and the rest
follows by filtering. -/

/-- The decoder reads the alphabet and the padding. -/
def isRead (c : Char) : Bool := c = '=' || (value c).isSome

theorem isRead_digit {n : Nat} (h : n < 64) : isRead (digit n) = true := by
  simp [isRead, value_digit n h]

/-- What the decoder does not read makes no difference. -/
theorem decodeFrom_filter (text : List Char) (position left pads : Nat) :
    decodeFrom position left pads (text.filter isRead) = decodeFrom position left pads text := by
  induction text generalizing position left pads with
  | nil => rfl
  | cons c text ih =>
    by_cases hpad : c = '='
    · rw [List.filter_cons_of_pos (by simp [isRead, hpad]), decodeFrom, decodeFrom, if_pos hpad,
        if_pos hpad, ih, ih]
    cases hv : value c with
    | none =>
      rw [List.filter_cons_of_neg (by simp [isRead, hpad, hv]), ih, decodeFrom, if_neg hpad, hv]
    | some v =>
      rw [List.filter_cons_of_pos (by simp [isRead, hv]), decodeFrom, decodeFrom, if_neg hpad,
        if_neg hpad, hv]
      simp only [ih]

/-- The encoded bytes without their padding. -/
def core : List UInt8 → List Char
  | [] => []
  | [a] => [digit (a.toNat / 4), digit (a.toNat % 4 * 16)]
  | [a, b] =>
    [digit (a.toNat / 4), digit (a.toNat % 4 * 16 + b.toNat / 16), digit (b.toNat % 16 * 4)]
  | a :: b :: c :: bytes =>
    digit (a.toNat / 4) :: digit (a.toNat % 4 * 16 + b.toNat / 16) ::
      digit (b.toNat % 16 * 4 + c.toNat / 64) :: digit (c.toNat % 64) :: core bytes

/-- The length of the padding. -/
def padding : List UInt8 → Nat
  | [] => 0
  | [_] => 2
  | [_, _] => 1
  | _ :: _ :: _ :: bytes => padding bytes

theorem encode_eq (bytes : List UInt8) :
    encode bytes = core bytes ++ List.replicate (padding bytes) '=' := by
  induction bytes using encode.induct with
  | case1 => rfl
  | case2 a => rfl
  | case3 a b => rfl
  | case4 a b c bytes ih =>
    rw [encode, core, padding, ih]
    rfl

theorem core_isRead (bytes : List UInt8) : ∀ c ∈ core bytes, isRead c = true ∧ c ≠ '=' := by
  have hdigit : ∀ {n : Nat}, n < 64 → isRead (digit n) = true ∧ digit n ≠ '=' :=
    fun h => ⟨isRead_digit h, digit_ne_pad _⟩
  induction bytes using encode.induct with
  | case1 => exact fun _ hc => nomatch hc
  | case2 a =>
    have ha := a.toNat_lt
    simp only [core, List.forall_mem_cons]
    exact ⟨hdigit (by omega), hdigit (by omega), fun _ hc => nomatch hc⟩
  | case3 a b =>
    have ha := a.toNat_lt
    have hb := b.toNat_lt
    simp only [core, List.forall_mem_cons]
    exact ⟨hdigit (by omega), hdigit (by omega), hdigit (by omega), fun _ hc => nomatch hc⟩
  | case4 a b c bytes ih =>
    have ha := a.toNat_lt
    have hb := b.toNat_lt
    have hc := c.toNat_lt
    simp only [core, List.forall_mem_cons]
    exact ⟨hdigit (by omega), hdigit (by omega), hdigit (by omega), hdigit (by omega), ih⟩

/-- Some of the padding is removed. -/
theorem encode_eq_append {bytes : List UInt8} {text : List Char} {removed : Nat}
    (h : encode bytes = text ++ List.replicate removed '=') :
    removed ≤ padding bytes ∧
      text = core bytes ++ List.replicate (padding bytes - removed) '=' := by
  rw [encode_eq] at h
  have hcount := congrArg (List.count '=') h
  rw [List.count_append, List.count_append, List.count_replicate_self, List.count_replicate_self,
    List.count_eq_zero_of_not_mem fun hc => (core_isRead bytes _ hc).2 rfl] at hcount
  have hle : removed ≤ padding bytes := by omega
  have hpadded : text ++ List.replicate removed '=' =
      (core bytes ++ List.replicate (padding bytes - removed) '=') ++
        List.replicate removed '=' := by
    rw [← h, List.append_assoc, List.replicate_append_replicate, Nat.sub_add_cancel hle]
  exact ⟨hle, List.append_cancel_right hpadded⟩

/-- At the start of a group padding is skipped. -/
theorem decodeFrom_start (left pads q : Nat) :
    decodeFrom 0 left pads (List.replicate q '=') = some [] := by
  induction q with
  | zero => rfl
  | succ q ih =>
    rw [List.replicate_succ, decodeFrom, if_pos rfl, if_neg (by omega)]
    exact ih

/-- Two characters into a group, two padding characters complete it. -/
theorem decodeFrom_two_pads (left q : Nat) :
    decodeFrom 2 left 0 (List.replicate q '=') = if 2 ≤ q then some [] else none := by
  match q with
  | 0 => rfl
  | 1 => rfl
  | q + 2 => rw [if_pos (by omega)]; rfl

theorem decodeFrom_three_pads (left q : Nat) :
    decodeFrom 3 left 0 (List.replicate q '=') = if 1 ≤ q then some [] else none := by
  match q with
  | 0 => rfl
  | q + 1 => rw [if_pos (by omega)]; rfl

/-- **The padding is enough or it is not**, and what is too much makes no
difference. -/
theorem decode_core (bytes : List UInt8) (q : Nat) :
    decode (core bytes ++ List.replicate q '=') =
      if padding bytes ≤ q then some bytes else none := by
  unfold decode
  induction bytes using encode.induct with
  | case1 =>
    show decodeFrom 0 0 0 (List.replicate q '=') = if 0 ≤ q then some [] else none
    rw [if_pos (Nat.zero_le q), decodeFrom_start]
  | case2 a =>
    have ha := a.toNat_lt
    have hfirst := first_byte a (Nat.zero_lt_succ 15)
    rw [Nat.add_zero] at hfirst
    simp only [core, padding, List.cons_append, List.nil_append]
    rw [decodeFrom_zero (by omega), decodeFrom_one (by omega), decodeFrom_two_pads, hfirst]
    by_cases hq : 2 ≤ q <;> simp [hq]
  | case3 a b =>
    have ha := a.toNat_lt
    have hb := b.toNat_lt
    have hsecond := second_byte b (a.toNat % 4) (Nat.zero_lt_succ 3)
    rw [Nat.add_zero] at hsecond
    simp only [core, padding, List.cons_append, List.nil_append]
    rw [decodeFrom_zero (by omega), decodeFrom_one (by omega), decodeFrom_two (by omega),
      decodeFrom_three_pads, first_byte a (by omega), hsecond]
    by_cases hq : 1 ≤ q <;> simp [hq]
  | case4 a b c bytes ih =>
    have ha := a.toNat_lt
    have hb := b.toNat_lt
    have hc := c.toNat_lt
    simp only [core, padding, List.cons_append]
    rw [decodeFrom_zero (by omega), decodeFrom_one (by omega), decodeFrom_two (by omega),
      decodeFrom_three (by omega), ih, first_byte a (by omega), second_byte b _ (by omega),
      third_byte c]
    by_cases hq : padding bytes ≤ q <;> simp [hq]

/-- **The decoder undoes the encoder.** It is the case of `decode_core` in which the
padding is the one that was made. -/
theorem decode_encode (bytes : List UInt8) : decode (encode bytes) = some bytes := by
  rw [encode_eq, decode_core, if_pos (Nat.le_refl _)]

/-- The characters of the alphabet in a text. -/
def digits (text : List Char) : Nat := text.countP fun c => (value c).isSome

/-- **What is decoded is shorter than the text**: at the start of a group,
strictly, since the first character of a group completes no byte. -/
theorem length_decodeFrom (text : List Char) {position left pads : Nat} {bytes : List UInt8}
    (h : decodeFrom position left pads text = some bytes) :
    bytes.length ≤ digits text ∧ (position = 0 → bytes = [] ∨ bytes.length < digits text) := by
  induction text generalizing position left pads bytes with
  | nil =>
    rw [decodeFrom] at h
    split at h <;> cases h
    exact ⟨Nat.le_refl 0, fun _ => .inl rfl⟩
  | cons c text ih =>
    rw [decodeFrom] at h
    have hmono : digits text ≤ digits (c :: text) := by
      simp only [digits, List.countP_cons]
      exact Nat.le_add_right ..
    have hskip {p : Nat} (h : decodeFrom position left p text = some bytes) :
        bytes.length ≤ digits (c :: text) ∧
          (position = 0 → bytes = [] ∨ bytes.length < digits (c :: text)) := by
      obtain ⟨hle, hstart⟩ := ih h
      exact ⟨Nat.le_trans hle hmono,
        fun hp => (hstart hp).imp id fun hlt => Nat.lt_of_lt_of_le hlt hmono⟩
    split at h
    · split at h
      · split at h
        · cases h
          exact ⟨Nat.zero_le _, fun _ => .inl rfl⟩
        · exact hskip h
      · exact hskip h
    · split at h
      · exact hskip h
      · rename_i v hv
        have hone : digits (c :: text) = digits text + 1 := by
          simp [digits, hv]
        have hbyte {p l : Nat} {byte : UInt8}
            (h : (decodeFrom p l 0 text).map (byte :: ·) = some bytes) :
            bytes.length ≤ digits (c :: text) := by
          obtain ⟨rest, hrest, rfl⟩ := Option.map_eq_some_iff.mp h
          rw [hone, List.length_cons]
          exact Nat.succ_le_succ (ih hrest).1
        split at h
        · obtain ⟨hle, -⟩ := ih h
          rw [hone]
          exact ⟨Nat.le_succ_of_le hle, fun _ => .inr (Nat.lt_succ_of_le hle)⟩
        · exact ⟨hbyte h, fun hp => nomatch hp⟩
        · exact ⟨hbyte h, fun hp => nomatch hp⟩
        · rename_i h₀ _ _
          exact ⟨hbyte h, fun hp => absurd hp h₀⟩

theorem length_decode {text : List Char} {bytes : List UInt8}
    (h : decode text = some bytes) : bytes = [] ∨ bytes.length < digits text :=
  (length_decodeFrom text h).2 rfl

end Codec
