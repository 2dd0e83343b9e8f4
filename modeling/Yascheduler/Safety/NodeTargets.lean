import Yascheduler.Application.NodeTarget

/-!
# The grammar of node targets

On the command line a node is called by its id, a positive number, or by a
host specification `[user@]host[:port][~ncpus]`, and a number is a string of
the digits `0` to `9`. The parser follows this grammar except for how it reads
numbers. `str.isdigit` and `int` know the digits of every script, and `int`
takes signs, white space and underscores besides, but not more than 4300
digits. So a port `+22` is accepted, and a host named `²` is not.

What is accepted, plainly written or not, can be written out and read again.

## Acceptance and meaning

That the parser accepts a text and what it makes of it are settled together, by
what a text *denotes*. The second part of the law looks the other way. A target
is kept as its parts and not as the text it was given as, so it is only as good as
what can be written out again: a part that was dropped, or one that would be read
differently, shows there.
-/

namespace Yascheduler

open Spelling

/-! ## The grammar

The grammar is the one in the docstring of the parser, with numbers written the
way one would write them. It says of a text what it denotes, and it is not a
second parser: several parts may be left out, and where brackets are needed is
said by the parts and not by an order in which they are read. -/

/-- **What a text says.** Digits are an id, and no host. It is the grammar of the
docstring, with the numerals that one would write; it does not mention `int`. -/
inductive Denotes (s : String) : NodeTarget → Prop
  | nodeId (id : NodeId) : Text.IsNumeral s.toList → Text.value s.toList = id.value →
      Denotes s (.nodeId id)
  | hostSpec (p : Spelling) (spec : HostSpec) : ¬Text.IsNumeral s.toList → p.Delimited →
      p.text = s.toList → p.read Text.numeral = some spec → Denotes s (.hostSpec spec)

/-- A host specification with its port. Brackets are where they are needed. -/
def spellingOf (spec : HostSpec) : Spelling where
  user := spec.username.map String.toList
  host := spec.host.toList
  bracketed := decide (':' ∈ spec.host.toList ∨ spec.host.toList.head? = some '[')
  port := some (Nat.toDigits 10 spec.port)
  ncpus := spec.ncpus.map (Nat.toDigits 10)

/-- A target, written in the grammar. The port is always written, so that nothing
depends on its default. -/
def NodeTarget.render : NodeTarget → String
  | .nodeId id => String.ofList (Nat.toDigits 10 id.value)
  | .hostSpec spec => String.ofList (spellingOf spec).text

/-- **The law of the parser**: it accepts what the grammar has, as what it says
there, and what it accepts can be written and read again. The second half does not
follow from the first, since a text may be accepted that is not in the grammar. -/
structure FollowsGrammar (s : String) : Prop where
  accepts : ∀ t, parseNodeTarget s = .ok t ↔ Denotes s t
  roundTrip : ∀ t, parseNodeTarget s = .ok t → parseNodeTarget t.render = .ok t

/-! ## Plain numbers

Whether the parser follows the grammar depends on the numbers in the text. The
condition is about these alone: as far as digits or `int` would read a number,
it has to be a numeral, and not a longer one than `int` reads. -/

/-- The numbers of a spelling. -/
def Spelling.numbers (p : Spelling) : List (List Char) := p.port.toList ++ p.ncpus.toList

/-- The numbers of a spelling are numbers for `num`, and the port is one of
the ports. -/
structure Spelling.InRange (num : List Char → Option Int) (p : Spelling) : Prop where
  port : ∀ w ∈ p.port, ∃ n, num w = some n ∧ 1 ≤ n ∧ n ≤ maxPort
  ncpus : ∀ w ∈ p.ncpus, ∃ n, num w = some n ∧ 0 ≤ n

/-- **The numbers of a text are plain.** A text of digits, of whatever script, is a
numeral. In another one, numbers that `int` reads are numerals; and neither here nor
there has a numeral too many digits to be read. It is a condition on the text, part
by part, and asks for nothing that is computed from it. -/
structure PlainNumbers (s : String) : Prop where
  nodeId : Text.isDigits s.toList = true → Text.IsNumeral s.toList ∧
    (s.toList.length ≤ Text.maxStrDigits ∨ Text.value s.toList = 0)
  hostSpec : Text.isDigits s.toList = false → ∀ p : Spelling, p.Delimited → p.text = s.toList →
    (p.InRange Text.int → ∀ w ∈ p.numbers, Text.IsNumeral w) ∧
      (p.InRange Text.numeral → ∀ w ∈ p.numbers, w.length ≤ Text.maxStrDigits)

/-! ## What a spelling says

A text has one spelling, and what the spelling says depends on how its numbers
are read. So two readings agree on a text if they agree on its numbers, and the
comparison of the parser with the grammar is brought down to a comparison of
`int` with numerals. -/

section

variable {num num' : List Char → Option Int} {p : Spelling} {spec : HostSpec}

/-- A number of cores is not negative, and none at all stands for unknown. -/
theorem ncpusOf_eq_some_iff {n : Int} {k : Option Nat} :
    ncpusOf n = some k ↔ 0 ≤ n ∧ k = if n = 0 then none else some n.toNat := by
  unfold ncpusOf
  split
  next hneg => exact iff_of_false nofun fun h => absurd h.1 (Int.not_le.mpr hneg)
  next hneg =>
    rw [Option.some_inj, eq_comm]
    exact (and_iff_right (Int.not_lt.mp hneg)).symm

/-- What is read, part by part. -/
theorem read_eq_some_iff :
    p.read num = some spec ↔
      ∃ port ncpus, readPort num p.port = some port ∧ 1 ≤ port ∧ port ≤ maxPort ∧
        readNcpus num p.ncpus = some ncpus ∧
        spec = { host := String.ofList p.host, port := port.toNat,
                 username := p.user.map String.ofList, ncpus := ncpus } := by
  simp only [Spelling.read, Option.bind_eq_bind, Option.bind_eq_some_iff]
  constructor
  · rintro ⟨ncpus, hncpus, port, hport, h⟩
    split at h
    · cases h
    next hrange =>
      cases h
      exact ⟨port, ncpus, hport, by omega, by omega, hncpus, rfl⟩
  · rintro ⟨port, ncpus, hport, hlow, hhigh, hncpus, rfl⟩
    exact ⟨ncpus, hncpus, port, hport, if_neg (by omega)⟩

/-- A spelling says something if its numbers are in range. -/
theorem exists_read_iff : (∃ spec, p.read num = some spec) ↔ p.InRange num := by
  constructor
  · rintro ⟨spec, hspec⟩
    obtain ⟨port, ncpus, hport, hlow, hhigh, hncpus, -⟩ := read_eq_some_iff.mp hspec
    constructor
    · intro w hw
      rw [Option.mem_def.mp hw] at hport
      exact ⟨port, hport, hlow, hhigh⟩
    · intro w hw
      rw [Option.mem_def.mp hw] at hncpus
      obtain ⟨n, hn, hk⟩ := Option.bind_eq_some_iff.mp hncpus
      exact ⟨n, hn, (ncpusOf_eq_some_iff.mp hk).1⟩
  · rintro ⟨hport, hncpus⟩
    obtain ⟨port, hport', hlow, hhigh⟩ :
        ∃ port, readPort num p.port = some port ∧ 1 ≤ port ∧ port ≤ maxPort := by
      cases h : p.port with
      | none => exact ⟨22, rfl, by decide, by decide⟩
      | some w => exact hport w h
    obtain ⟨ncpus, hncpus'⟩ : ∃ ncpus, readNcpus num p.ncpus = some ncpus := by
      cases h : p.ncpus with
      | none => exact ⟨none, rfl⟩
      | some w =>
        obtain ⟨n, hn, hpos⟩ := hncpus w h
        exact ⟨_, Option.bind_eq_some_iff.mpr ⟨n, hn, ncpusOf_eq_some_iff.mpr ⟨hpos, rfl⟩⟩⟩
    exact ⟨_, read_eq_some_iff.mpr ⟨port, ncpus, hport', hlow, hhigh, hncpus', rfl⟩⟩

/-- Readings that agree on the numbers of a spelling agree on it. So `int` and the
numerals of the grammar have to be compared on the numbers only. -/
theorem read_congr (h : ∀ w ∈ p.numbers, num w = num' w) : p.read num = p.read num' := by
  have hport : readPort num p.port = readPort num' p.port := by
    cases hp : p.port with
    | none => rfl
    | some w => exact h w (by simp [Spelling.numbers, hp])
  have hncpus : readNcpus num p.ncpus = readNcpus num' p.ncpus := by
    cases hn : p.ncpus with
    | none => rfl
    | some w => rw [readNcpus, readNcpus, h w (by simp [Spelling.numbers, hn])]
  rw [Spelling.read, hncpus, hport, Spelling.read]

/-- In a spelling in range every number is read. -/
theorem Spelling.InRange.exists_num (h : p.InRange num) :
    ∀ w ∈ p.numbers, ∃ n, num w = some n := by
  intro w hw
  rcases List.mem_append.mp hw with hport | hncpus
  · obtain ⟨n, hn, -⟩ := h.port w (Option.mem_toList.mp hport)
    exact ⟨n, hn⟩
  · obtain ⟨n, hn, -⟩ := h.ncpus w (Option.mem_toList.mp hncpus)
    exact ⟨n, hn⟩

end

/-! ## The ids -/

section

variable {s : String} {id : NodeId} {spec : HostSpec}

/-- An identifier is positive. -/
theorem nodeIdOf_eq_ok_iff {n : Int} : nodeIdOf n = .ok id ↔ n = id.value := by
  unfold nodeIdOf
  split
  next hpos =>
    rw [Except.ok.injEq, NodeId.mk.injEq]
    omega
  next hneg =>
    refine iff_of_false nofun fun h => hneg ?_
    rw [h]
    exact Int.natCast_pos.mpr id.pos

/-- An id is read from digits. -/
theorem parseNodeTarget_eq_nodeId :
    parseNodeTarget s = .ok (.nodeId id) ↔
      Text.isDigits s.toList = true ∧ Text.int s.toList = some (id.value : Int) := by
  unfold parseNodeTarget
  split
  next hdigits =>
    split
    next hnone => exact iff_of_false nofun fun h => by rw [hnone] at h; cases h.2
    next n hn =>
      rw [hn, Option.some_inj, ← nodeIdOf_eq_ok_iff]
      cases nodeIdOf n <;> simp [Except.map, hdigits]
  next hdigits =>
    refine iff_of_false (fun h => ?_) fun h => hdigits h.1
    cases hp : parseHostSpec s <;> simp [hp, Except.map] at h

/-- A host specification is read from what is not all digits, by its only delimited
spelling. -/
theorem parseNodeTarget_eq_hostSpec :
    parseNodeTarget s = .ok (.hostSpec spec) ↔
      Text.isDigits s.toList = false ∧
        ∃ p : Spelling, p.Delimited ∧ p.text = s.toList ∧ p.read Text.int = some spec := by
  rw [← hostSpecOf_eq_some_iff]
  unfold parseNodeTarget
  split
  next hdigits =>
    refine iff_of_false (fun h => ?_) fun h => by rw [hdigits] at h; cases h.1
    split at h
    · cases h
    next n _ => cases hn : nodeIdOf n <;> simp [hn, Except.map] at h
  next hdigits =>
    rw [parseHostSpec]
    cases hostSpecOf s.toList <;> simp [Except.map, hdigits]

end

/-! ## Plain numbers are read alike -/

section

variable {p : Spelling} {spec : HostSpec}

/-- Numerals that are not too long are read as what they are. -/
theorem read_int_eq_numeral (h : ∀ w ∈ p.numbers, Text.IsNumeral w)
    (hlen : ∀ w ∈ p.numbers, w.length ≤ Text.maxStrDigits) :
    p.read Text.int = p.read Text.numeral :=
  read_congr fun w hw => Text.int_eq_numeral (h w hw) (hlen w hw)

/-- What is in range as a numeral is one. -/
theorem Spelling.InRange.isNumeral (h : p.InRange Text.numeral) :
    ∀ w ∈ p.numbers, Text.IsNumeral w := fun w hw =>
  have ⟨_, hn⟩ := h.exists_num w hw
  Text.isNumeral_of_numeral hn

/-- What `int` reads does not have too many digits. -/
theorem Spelling.InRange.length_le (h : p.InRange Text.int)
    (hnum : ∀ w ∈ p.numbers, Text.IsNumeral w) :
    ∀ w ∈ p.numbers, w.length ≤ Text.maxStrDigits := fun w hw =>
  have ⟨_, hn⟩ := h.exists_num w hw
  Text.length_le_of_int (hnum w hw) hn

end

/-! ## Writing a target

A target is written with all its parts. What has to be shown is that the parts
are found again, which needs that no part has a separator in it that is not its
own. The host may have colons, and is put into brackets then. -/

section

/-- A character that is no digit is not in a number that is written. -/
theorem notMem_toDigits {c : Char} (h : c.isDigit = false) (n : Nat) : c ∉ Nat.toDigits 10 n :=
  fun hc => by
    rw [(Text.isNumeral_toDigits n).2 c hc] at h
    cases h

variable {p : Spelling} {spec : HostSpec}

/-- The host and the user of a specification are those of its spelling. -/
theorem read_parts {num : List Char → Option Int} (h : p.read num = some spec) :
    spec.host.toList = p.host ∧ spec.username.map String.toList = p.user := by
  obtain ⟨_, _, _, _, _, _, rfl⟩ := read_eq_some_iff.mp h
  refine ⟨String.toList_ofList, ?_⟩
  cases p.user with
  | none => rfl
  | some user => exact congrArg some String.toList_ofList

/-- What is written is delimited, if it was when it was read. -/
theorem delimited_spellingOf (hp : p.Delimited) (h : p.read Text.int = some spec) :
    (spellingOf spec).Delimited := by
  obtain ⟨hhost, huser⟩ := read_parts h
  have hport (c : Char) (hc : c.isDigit = false) : ∀ w ∈ (spellingOf spec).port, c ∉ w := by
    rintro w ⟨⟩
    exact notMem_toDigits hc spec.port
  have hncpus (c : Char) (hc : c.isDigit = false) : ∀ w ∈ (spellingOf spec).ncpus, c ∉ w := by
    intro w hw
    obtain ⟨n, -, rfl⟩ := Option.map_eq_some_iff.mp hw
    exact notMem_toDigits hc n
  refine
    { user := ?_, host_ne := ?_, host := ?_, enclosed := ?_,
      port := fun w hw => ⟨hport _ (by decide) w hw, hport _ (by decide) w hw,
        hport _ (by decide) w hw⟩,
      ncpus := fun w hw => ⟨hncpus _ (by decide) w hw, hncpus _ (by decide) w hw⟩ }
  · show ∀ w ∈ spec.username.map String.toList, _
    rw [huser]
    exact hp.user
  · show spec.host.toList ≠ []
    rw [hhost]
    exact hp.host_ne
  · show '@' ∉ spec.host.toList ∧ '~' ∉ spec.host.toList
    rw [hhost]
    exact hp.host
  · show Enclosed (decide (':' ∈ spec.host.toList ∨ spec.host.toList.head? = some '['))
      spec.host.toList
    rw [hhost]
    have henclosed := hp.enclosed
    unfold Enclosed at henclosed ⊢
    split at henclosed
    next hb =>
      split
      · exact henclosed
      next hplain => exact not_or.mp fun h => hplain (decide_eq_true h)
    next hb =>
      have hplain := decide_eq_false (not_or.mpr henclosed)
      rw [hplain]
      exact henclosed

/-- **What was read is written as what it is.** A number is written in decimal,
whatever it was read from. -/
theorem read_spellingOf (h : p.read Text.int = some spec) :
    (spellingOf spec).read Text.int = some spec := by
  obtain ⟨port, ncpus, hport, hlow, hhigh, hncpus, rfl⟩ := read_eq_some_iff.mp h
  refine read_eq_some_iff.mpr ⟨port, ncpus, ?_, hlow, hhigh, ?_, ?_⟩
  · have hcast : port = (port.toNat : Int) := by omega
    have hread : ∃ w, Text.int w = some (port.toNat : Int) := by
      rw [← hcast]
      cases hp : p.port with
      | none =>
        rw [hp] at hport
        cases hport
        exact ⟨['2', '2'], by decide⟩
      | some w =>
        rw [hp] at hport
        exact ⟨w, hport⟩
    obtain ⟨w, hw⟩ := hread
    show Text.int (Nat.toDigits 10 port.toNat) = some port
    rw [Text.int_toDigits hw, ← hcast]
  · cases hn : ncpus with
    | none => rfl
    | some k =>
      cases hw : p.ncpus with
      | none =>
        rw [hw, hn] at hncpus
        cases hncpus
      | some w =>
        rw [hw] at hncpus
        obtain ⟨n, hint, hk⟩ := Option.bind_eq_some_iff.mp hncpus
        obtain ⟨hpos, hval⟩ := ncpusOf_eq_some_iff.mp hk
        rw [hn] at hval
        split at hval
        · cases hval
        next hne =>
          cases hval
          have hcast : n = (n.toNat : Int) := by omega
          rw [hcast] at hint
          refine Option.bind_eq_some_iff.mpr ⟨n, ?_, ?_⟩
          · rw [Text.int_toDigits hint, ← hcast]
          · exact ncpusOf_eq_some_iff.mpr ⟨hpos, (if_neg hne).symm⟩
  · simp only [spellingOf, String.ofList_toList, Option.map_map, HostSpec.mk.injEq, true_and,
      and_true]
    cases p.user with
    | none => rfl
    | some user => exact congrArg some String.ofList_toList.symm

/-- A specification is written with a colon, which is no digit. -/
theorem isDigits_spellingOf (spec : HostSpec) :
    Text.isDigits (spellingOf spec).text = false := by
  have hmem : ':' ∈ (spellingOf spec).text := by
    simp [Spelling.text, Spelling.hostAndPort, spellingOf, Text.part]
  cases h : Text.isDigits (spellingOf spec).text with
  | false => rfl
  | true =>
    have hcolon := List.all_eq_true.mp (Bool.and_eq_true_iff.mp h).2 ':' hmem
    exact absurd hcolon (by decide)

/-- **What is accepted can be written and read again.** This holds of every text,
also where the grammar is not followed. -/
theorem parseNodeTarget_render {s : String} {t : NodeTarget} (h : parseNodeTarget s = .ok t) :
    parseNodeTarget t.render = .ok t := by
  cases t with
  | nodeId id =>
    obtain ⟨-, hint⟩ := parseNodeTarget_eq_nodeId.mp h
    refine parseNodeTarget_eq_nodeId.mpr ?_
    rw [NodeTarget.render, String.toList_ofList]
    exact ⟨Text.isDigits_of_isNumeral (Text.isNumeral_toDigits _), Text.int_toDigits hint⟩
  | hostSpec spec =>
    obtain ⟨-, p, hp, -, hread⟩ := parseNodeTarget_eq_hostSpec.mp h
    refine parseNodeTarget_eq_hostSpec.mpr ?_
    rw [NodeTarget.render, String.toList_ofList]
    exact ⟨isDigits_spellingOf spec, _, delimited_spellingOf hp hread, rfl, read_spellingOf hread⟩

end

/-! ## When the parser follows the grammar

Where the numbers are plain the two agree. Where they are not, the text shows a
difference: a text of foreign digits is an id or an error to the parser and a
host to the grammar, and a number that only `int` reads is accepted by the
parser and is not in the grammar. -/

section

variable {s : String}

/-- A text of digits that is no numeral is the name of a host for the grammar, but
not for the parser. -/
theorem denotes_foreignDigits (h : Text.isDigits s.toList = true)
    (hno : ¬Text.IsNumeral s.toList) : ∃ spec, Denotes s (.hostSpec spec) := by
  obtain ⟨hne, hall⟩ := Bool.and_eq_true_iff.mp h
  have hdigits := List.all_eq_true.mp hall
  have hnot {c : Char} (hc : Text.isDigit c = false) : c ∉ s.toList := fun hmem => by
    rw [hdigits c hmem] at hc
    cases hc
  let p : Spelling := ⟨none, s.toList, false, none, none⟩
  have hp : p.Delimited :=
    { user := nofun
      host_ne := fun he => by rw [show s.toList = [] from he] at hne; cases hne
      host := ⟨hnot (by decide), hnot (by decide)⟩
      enclosed := ⟨hnot (by decide), fun hhead => hnot (c := '[') (by decide)
        (List.mem_of_head? hhead)⟩
      port := nofun
      ncpus := nofun }
  obtain ⟨spec, hspec⟩ := exists_read_iff.mpr
    (show p.InRange Text.numeral from ⟨nofun, nofun⟩)
  have htext : p.text = s.toList := by
    show [] ++ (s.toList ++ [] ++ []) = s.toList
    simp only [List.append_nil, List.nil_append]
  exact ⟨spec, .hostSpec p spec hno hp htext hspec⟩

/-- Ids that are written plainly are read as the grammar has them. -/
theorem nodeId_accepts (h : Text.isDigits s.toList = true) (hnum : Text.IsNumeral s.toList)
    (hlen : s.toList.length ≤ Text.maxStrDigits ∨ Text.value s.toList = 0) (t : NodeTarget) :
    parseNodeTarget s = .ok t ↔ Denotes s t := by
  cases t with
  | nodeId id =>
    rw [parseNodeTarget_eq_nodeId]
    constructor
    · rintro ⟨-, hint⟩
      rw [Text.int_eq_numeral hnum (Text.length_le_of_int hnum hint), Text.numeral,
        if_pos hnum] at hint
      exact .nodeId id hnum (Int.ofNat_inj.mp (Option.some.inj hint))
    · intro hd
      cases hd with
      | nodeId _ _ hvalue =>
        have hpos := id.pos
        have hlen' : s.toList.length ≤ Text.maxStrDigits := hlen.resolve_right (by omega)
        refine ⟨h, ?_⟩
        rw [Text.int_eq_numeral hnum hlen', Text.numeral, if_pos hnum, hvalue]
  | hostSpec spec =>
    rw [parseNodeTarget_eq_hostSpec]
    refine iff_of_false (fun hno => ?_) fun hd => ?_
    · rw [h] at hno
      cases hno.1
    · cases hd with
      | hostSpec _ _ hno => exact hno hnum

/-- Host specifications whose numbers are plain are read as the grammar has them. -/
theorem hostSpec_accepts (h : Text.isDigits s.toList = false)
    (hplain : ∀ p : Spelling, p.Delimited → p.text = s.toList →
      (p.InRange Text.int → ∀ w ∈ p.numbers, Text.IsNumeral w) ∧
        (p.InRange Text.numeral → ∀ w ∈ p.numbers, w.length ≤ Text.maxStrDigits))
    (t : NodeTarget) : parseNodeTarget s = .ok t ↔ Denotes s t := by
  have hno : ¬Text.IsNumeral s.toList := fun hnum => by
    rw [Text.isDigits_of_isNumeral hnum] at h
    cases h
  cases t with
  | nodeId id =>
    rw [parseNodeTarget_eq_nodeId]
    refine iff_of_false (fun hyes => ?_) fun hd => ?_
    · rw [h] at hyes
      cases hyes.1
    · cases hd with
      | nodeId _ hnum _ => exact hno hnum
  | hostSpec spec =>
    rw [parseNodeTarget_eq_hostSpec]
    constructor
    · rintro ⟨-, p, hp, htext, hread⟩
      have hrange := exists_read_iff.mp ⟨spec, hread⟩
      have hnum := (hplain p hp htext).1 hrange
      rw [read_int_eq_numeral hnum (hrange.length_le hnum)] at hread
      exact .hostSpec p spec hno hp htext hread
    · intro hd
      cases hd with
      | hostSpec p _ _ hp htext hread =>
        have hrange := exists_read_iff.mp ⟨spec, hread⟩
        have hlen := (hplain p hp htext).2 hrange
        rw [← read_int_eq_numeral hrange.isNumeral hlen] at hread
        exact ⟨h, p, hp, htext, hread⟩

/-- **The parser follows its grammar where the numbers are plain.** Where they are
not, `int` accepts what nobody would write: signs, blanks, underscores and digits of
other scripts. -/
theorem followsGrammar_iff (s : String) : FollowsGrammar s ↔ PlainNumbers s := by
  constructor
  · intro h
    refine ⟨fun hdigits => ?_, fun hdigits p hp htext => ⟨fun hrange => ?_, fun hrange => ?_⟩⟩
    · -- otherwise the text is a host, or an id with too many digits
      by_cases hnum : Text.IsNumeral s.toList
      · refine ⟨hnum, ?_⟩
        by_contra hlong
        obtain ⟨hlen, hvalue⟩ := not_or.mp hlong
        have hid := (h.accepts (.nodeId ⟨_, Nat.pos_of_ne_zero hvalue⟩)).mpr (.nodeId _ hnum rfl)
        exact hlen (Text.length_le_of_int hnum (parseNodeTarget_eq_nodeId.mp hid).2)
      · obtain ⟨spec, hspec⟩ := denotes_foreignDigits hdigits hnum
        have hhost := parseNodeTarget_eq_hostSpec.mp ((h.accepts _).mpr hspec)
        rw [hdigits] at hhost
        cases hhost.1
    · obtain ⟨spec, hread⟩ := exists_read_iff.mpr hrange
      have hparse := parseNodeTarget_eq_hostSpec.mpr ⟨hdigits, p, hp, htext, hread⟩
      cases (h.accepts _).mp hparse with
      | hostSpec q _ _ hq hqtext hqread =>
        rw [text_injective hp hq (htext.trans hqtext.symm)]
        exact (exists_read_iff.mp ⟨spec, hqread⟩).isNumeral
    · obtain ⟨spec, hread⟩ := exists_read_iff.mpr hrange
      have hno : ¬Text.IsNumeral s.toList := fun hnum => by
        rw [Text.isDigits_of_isNumeral hnum] at hdigits
        cases hdigits
      have hparse := (h.accepts _).mpr (.hostSpec p spec hno hp htext hread)
      obtain ⟨-, q, hq, hqtext, hqread⟩ := parseNodeTarget_eq_hostSpec.mp hparse
      rw [text_injective hp hq (htext.trans hqtext.symm)] at hrange ⊢
      exact (exists_read_iff.mp ⟨spec, hqread⟩).length_le hrange.isNumeral
  · intro h
    refine ⟨fun t => ?_, fun t => parseNodeTarget_render⟩
    cases hdigits : Text.isDigits s.toList with
    | true => exact nodeId_accepts hdigits (h.nodeId hdigits).1 (h.nodeId hdigits).2 t
    | false => exact hostSpec_accepts hdigits (h.hostSpec hdigits) t

/-- A port with a sign is accepted, although it is not in the grammar. -/
theorem not_followsGrammar_signedPort : ¬∀ s, FollowsGrammar s := by
  intro h
  have hparse : parseNodeTarget "node:+22" = .ok (.hostSpec { host := "node" }) := by decide
  cases ((h _).accepts _).mp hparse with
  | hostSpec q _ _ hq hqtext hqread =>
    let p : Spelling := ⟨none, ['n', 'o', 'd', 'e'], false, some ['+', '2', '2'], none⟩
    have hp : p.Delimited :=
      { user := nofun
        host_ne := by decide
        host := by decide
        enclosed := ⟨by decide, by decide⟩
        port := by
          rintro w ⟨⟩
          decide
        ncpus := nofun }
    have hpq := text_injective hp hq hqtext.symm
    rw [← hpq] at hqread
    have hnum := (exists_read_iff.mp ⟨_, hqread⟩).isNumeral ['+', '2', '2'] List.mem_cons_self
    exact absurd (hnum.2 '+' List.mem_cons_self) (by decide)

end

end Yascheduler
