import Yascheduler.Application.ManageNode
import Yascheduler.Codec.Text

/-!
# `yasetnode`: its argument

The argument is the id of a node if it is all digits, and otherwise a host
specification `[user@]host[:port][~ncpus]`. The parser takes the parts off one
after the other: the user from the front, the number of CPUs from the end, and
the port from what is left, which depends on brackets around the host.

A specification that is written out is a `Spelling`, and `Spelling.read` is
what it says. It depends on how numbers are read, which is a parameter: the
parser reads them with `Text.int` (`hostSpecOf_eq_some_iff`), and a grammar of
plain digits would read them with `Text.numeral`.

A specification is ambiguous in three places: an `@` may be part of a password in
other formats, a `:` is part of an IPv6 address, and a `~` may stand in a host
name. The parser decides all three by the order in which it takes the parts off.
A grammar would decide them by saying what a host may contain. That the two come
to the same is what the second half of this module is for.
-/

namespace Yascheduler

/-- `MAX_PORT`. -/
def maxPort : Nat := 65535

/-- A parsed argument. Exactly one of the two. -/
inductive NodeTarget where
  | nodeId (id : NodeId)
  | hostSpec (spec : HostSpec)
deriving DecidableEq

/-- Why an argument is rejected: `MalformedHostSpecError`, or the `ValueError`
of `int` or of `NodeId`. -/
inductive TargetError where
  | malformedHostSpec (raw : String)
  | valueError
deriving DecidableEq

/-! ## The parser

In the blocks of `_parse_host_spec`, `none` is a `MalformedHostSpecError`. All
of them carry the same text, the whole argument. -/

/-- `BLOCK_parse_user`. -/
def parseUser (s : List Char) : Option (Option (List Char) × List Char) :=
  match Text.cut '@' s with
  | none => none
  | some (_, none) => some (none, s)
  | some (userPart, some rest) => if userPart = [] then none else some (some userPart, rest)

/-- A number of CPUs: not negative, and zero is none. -/
def ncpusOf (n : Int) : Option (Option Nat) :=
  if n < 0 then none else some (if n = 0 then none else some n.toNat)

/-- `BLOCK_parse_ncpus`. -/
def parseNcpus (s : List Char) : Option (Option Nat × List Char) :=
  match Text.cut '~' s with
  | none => none
  | some (_, none) => some (none, s)
  | some (hostPart, some ncpusPart) =>
    if ncpusPart = [] then none
    else ((Text.int ncpusPart).bind ncpusOf).map (·, hostPart)

/-- `BLOCK_parse_host_and_port`, up to its checks. -/
def parseHostAndPort (s : List Char) : Option (List Char × Int) :=
  match s with
  | '[' :: inner =>
    if ']' ∉ inner then none
    else
      let (host, remainder) := Text.partition ']' inner
      match remainder with
      | [] => some (host, 22)
      | ':' :: portStr => if ':' ∈ portStr then none else (Text.int portStr).map (host, ·)
      | _ => none
  | s =>
    match Text.cut ':' s with
    | none => none
    | some (host, some portStr) => (Text.int portStr).map (host, ·)
    | some (_, none) => some (s, 22)

/-- The body of `_parse_host_spec`. -/
def hostSpecOf (s : List Char) : Option HostSpec := do
  let (username, s) ← parseUser s
  let (ncpus, s) ← parseNcpus s
  let (host, port) ← parseHostAndPort s
  if host = [] then none
  else if port < 1 ∨ maxPort < port then none
  else
    some
      { host := String.ofList host
        port := port.toNat
        username := username.map String.ofList
        ncpus := ncpus }

/-- `_parse_host_spec`. -/
def parseHostSpec (raw : String) : Except TargetError HostSpec :=
  match hostSpecOf raw.toList with
  | none => .error (.malformedHostSpec raw)
  | some spec => .ok spec

/-- `NodeId(n)`. -/
def nodeIdOf (n : Int) : Except TargetError NodeId :=
  if h : 0 < n then .ok ⟨n.toNat, Int.pos_iff_toNat_pos.mp h⟩ else .error .valueError

/-- **`_parse_node_target`.** -/
def parseNodeTarget (s : String) : Except TargetError NodeTarget :=
  if Text.isDigits s.toList then
    match Text.int s.toList with
    | none => .error .valueError
    | some n => (nodeIdOf n).map .nodeId
  else (parseHostSpec s).map .hostSpec

example : parseNodeTarget "deploy@[fe80::1]:2222~4" =
    .ok (.hostSpec { host := "fe80::1", port := 2222, username := "deploy", ncpus := some 4 }) := by
  decide

/-! ## Spellings

A spelling has the parts of a specification as texts, with nothing read yet.
Its own text is made by putting them together, and it is *delimited* if they
can be told apart again. What the numbers mean comes afterwards. -/

/-- **A host specification as it is written.** Its parts are texts, and a part that
is left out is not the same as one that is empty. -/
structure Spelling where
  user : Option (List Char)
  host : List Char
  bracketed : Bool
  port : Option (List Char)
  ncpus : Option (List Char)

namespace Spelling

/-- The user, with the `@` after it. -/
def userText : Option (List Char) → List Char
  | none => []
  | some user => user ++ ['@']

/-- The host, in brackets or not. -/
def hostText (bracketed : Bool) (host : List Char) : List Char :=
  if bracketed then '[' :: (host ++ [']']) else host

/-- The host and the port. -/
def hostAndPort (p : Spelling) : List Char := hostText p.bracketed p.host ++ Text.part ':' p.port

/-- `[user@]host[:port][~ncpus]`. -/
def text (p : Spelling) : List Char :=
  userText p.user ++ (p.hostAndPort ++ Text.part '~' p.ncpus)

/-- A bracket ends the host in brackets; without them it is the port that
ends it, and it begins with no bracket. -/
def Enclosed (bracketed : Bool) (host : List Char) : Prop :=
  if bracketed then ']' ∉ host else ':' ∉ host ∧ host.head? ≠ some '['

/-- **The parts of a spelling are delimited**: none contains what separates it
from the others. -/
structure Delimited (p : Spelling) : Prop where
  user : ∀ w ∈ p.user, w ≠ [] ∧ '@' ∉ w
  host_ne : p.host ≠ []
  host : '@' ∉ p.host ∧ '~' ∉ p.host
  enclosed : Enclosed p.bracketed p.host
  port : ∀ w ∈ p.port, '@' ∉ w ∧ '~' ∉ w ∧ ':' ∉ w
  ncpus : ∀ w ∈ p.ncpus, '@' ∉ w ∧ '~' ∉ w

/-! What a spelling says, if its numbers are read by `num`. -/

variable (num : List Char → Option Int)

/-- The port, which defaults to 22. -/
def readPort : Option (List Char) → Option Int
  | none => some 22
  | some w => num w

/-- The number of CPUs, where zero is none. -/
def readNcpus : Option (List Char) → Option (Option Nat)
  | none => some none
  | some w => (num w).bind ncpusOf

/-- The specification that a spelling stands for. -/
def read (p : Spelling) : Option HostSpec := do
  let ncpus ← readNcpus num p.ncpus
  let port ← readPort num p.port
  if port < 1 ∨ maxPort < port then none
  else
    some
      { host := String.ofList p.host
        port := port.toNat
        username := p.user.map String.ofList
        ncpus := ncpus }

end Spelling

/-! ## What the parser reads

One lemma for each block, and from them what the whole reads. -/

open Spelling

variable {s rest : List Char}

/-- **What the user of a specification is**: the text before the `@`, if there is
one. It is not empty, and there is no second `@`. -/
theorem parseUser_eq_some_iff {user : Option (List Char)} :
    parseUser s = some (user, rest) ↔
      s = userText user ++ rest ∧ '@' ∉ rest ∧ ∀ w ∈ user, w ≠ [] ∧ '@' ∉ w := by
  constructor
  · intro h
    unfold parseUser at h
    split at h
    · cases h
    next before hcut =>
      obtain ⟨hs, hbefore, -⟩ := Text.cut_eq_some_iff.mp hcut
      cases h
      refine ⟨rfl, ?_, nofun⟩
      rwa [hs, Text.part, List.append_nil]
    next w after hcut =>
      obtain ⟨hs, hw, hafter⟩ := Text.cut_eq_some_iff.mp hcut
      split at h
      · cases h
      next hne =>
        cases h
        refine ⟨?_, hafter _ rfl, fun _ h => by cases h; exact ⟨hne, hw⟩⟩
        rw [hs, userText, List.append_assoc]
        rfl
  · rintro ⟨rfl, hrest, huser⟩
    cases user with
    | none => rw [userText, List.nil_append, parseUser, Text.cut_of_notMem hrest]
    | some w =>
      obtain ⟨hne, hw⟩ := huser w rfl
      have hcut : Text.cut '@' (userText (some w) ++ rest) = some (w, some rest) := by
        rw [userText, List.append_assoc]
        exact Text.cut_append hw hrest
      rw [parseUser, hcut]
      exact if_neg hne

/-- **What the number of its cores is**: the text behind the `~`, read as a number.
-/
theorem parseNcpus_eq_some_iff {n : Option Nat} :
    parseNcpus s = some (n, rest) ↔
      ∃ w, s = rest ++ Text.part '~' w ∧ '~' ∉ rest ∧ (∀ x ∈ w, '~' ∉ x) ∧
        readNcpus Text.int w = some n := by
  constructor
  · intro h
    unfold parseNcpus at h
    split at h
    · cases h
    next before hcut =>
      obtain ⟨hs, hbefore, -⟩ := Text.cut_eq_some_iff.mp hcut
      rw [Text.part, List.append_nil] at hs
      subst hs
      cases h
      exact ⟨none, (List.append_nil _).symm, hbefore, by rintro _ ⟨⟩, rfl⟩
    next before w hcut =>
      obtain ⟨hs, hbefore, hw⟩ := Text.cut_eq_some_iff.mp hcut
      split at h
      · cases h
      · obtain ⟨m, hm, he⟩ := Option.map_eq_some_iff.mp h
        cases he
        exact ⟨some w, hs, hbefore, hw, hm⟩
  · rintro ⟨w, rfl, hrest, hw, hread⟩
    cases w with
    | none =>
      cases hread
      rw [Text.part, List.append_nil, parseNcpus, Text.cut_of_notMem hrest]
    | some w =>
      have hne : w ≠ [] := by
        rintro rfl
        cases hread
      have hnumber : (Text.int w).bind ncpusOf = some n := hread
      have hcut : Text.cut '~' (rest ++ Text.part '~' (some w)) = some (rest, some w) :=
        Text.cut_append hrest (hw w rfl)
      rw [parseNcpus, hcut]
      show (if w = [] then none else ((Text.int w).bind ncpusOf).map (·, rest)) = some (n, rest)
      rw [if_neg hne, hnumber]
      rfl

/-- Text that does not begin with a bracket. -/
theorem parseHostAndPort_bare (h : s.head? ≠ some '[') :
    parseHostAndPort s =
      (Text.cut ':' s).bind fun p => (readPort Text.int p.2).map (p.1, ·) := by
  unfold parseHostAndPort
  split
  · exact absurd rfl h
  · split
    next hcut => rw [hcut]; rfl
    next hcut => rw [hcut]; rfl
    next before hcut =>
      obtain ⟨hs, -, -⟩ := Text.cut_eq_some_iff.mp hcut
      rw [Text.part, List.append_nil] at hs
      rw [hcut, hs]
      rfl

/-- Text that begins with a bracket, as far as the closing one. -/
theorem parseHostAndPort_bracket {host remainder : List Char} (h : ']' ∉ host) :
    parseHostAndPort ('[' :: (host ++ ']' :: remainder)) =
      match remainder with
      | [] => some (host, 22)
      | ':' :: portStr => if ':' ∈ portStr then none else (Text.int portStr).map (host, ·)
      | _ => none := by
  have hmem : ¬ ']' ∉ host ++ ']' :: remainder := fun hno =>
    hno (List.mem_append_right host List.mem_cons_self)
  rw [parseHostAndPort, if_neg hmem, Text.partition_append h]

/-- A host that begins with no bracket still does not with its port. -/
theorem head?_append_part {host : List Char} {w : Option (List Char)}
    (h : host.head? ≠ some '[') : (host ++ Text.part ':' w).head? ≠ some '[' := by
  cases host with
  | nil => cases w <;> simp [Text.part]
  | cons c host => exact h

/-- **What its host and port are.** A host in brackets may have colons in it. -/
theorem parseHostAndPort_eq_some_iff {host : List Char} {port : Int} :
    parseHostAndPort s = some (host, port) ↔
      ∃ bracketed w, s = hostText bracketed host ++ Text.part ':' w ∧ Enclosed bracketed host ∧
        (∀ x ∈ w, ':' ∉ x) ∧ readPort Text.int w = some port := by
  constructor
  · intro h
    by_cases hbracket : s.head? = some '['
    · obtain ⟨inner, rfl⟩ := List.head?_eq_some_iff.mp hbracket
      by_cases hmem : ']' ∈ inner
      · obtain ⟨name, remainder, rfl, hname⟩ := List.eq_append_cons_of_mem hmem
        rw [parseHostAndPort_bracket hname] at h
        split at h
        · cases h
          exact ⟨true, none, by simp [hostText, Text.part], hname, nofun, rfl⟩
        next portStr =>
          split at h
          · cases h
          next hcolon =>
            obtain ⟨n, hn, he⟩ := Option.map_eq_some_iff.mp h
            cases he
            exact ⟨true, some portStr, by simp [hostText, Text.part], hname,
              fun _ h => by cases h; exact hcolon, hn⟩
        · cases h
      · have hnone : parseHostAndPort ('[' :: inner) = none := if_pos hmem
        rw [hnone] at h
        cases h
    · rw [parseHostAndPort_bare hbracket] at h
      obtain ⟨⟨name, w⟩, hcut, hread⟩ := Option.bind_eq_some_iff.mp h
      obtain ⟨rfl, hname, hw⟩ := Text.cut_eq_some_iff.mp hcut
      obtain ⟨n, hn, he⟩ := Option.map_eq_some_iff.mp hread
      cases he
      refine ⟨false, w, rfl, ⟨hname, fun hhead => hbracket ?_⟩, hw, hn⟩
      obtain ⟨inner, rfl⟩ := List.head?_eq_some_iff.mp hhead
      rfl
  · rintro ⟨bracketed, w, rfl, henclosed, hw, hread⟩
    cases bracketed with
    | true =>
      have htext : hostText true host ++ Text.part ':' w =
          '[' :: (host ++ ']' :: Text.part ':' w) := by simp [hostText]
      rw [htext, parseHostAndPort_bracket henclosed]
      cases w with
      | none =>
        cases hread
        rfl
      | some w =>
        have hport : Text.int w = some port := hread
        show (if ':' ∈ w then none else (Text.int w).map (host, ·)) = some (host, port)
        rw [if_neg (hw w rfl), hport]
        rfl
    | false =>
      obtain ⟨hcolon, hhead⟩ := henclosed
      have hcut : Text.cut ':' (host ++ Text.part ':' w) = some (host, w) :=
        Text.cut_eq_some_iff.mpr ⟨rfl, hcolon, hw⟩
      show parseHostAndPort (host ++ Text.part ':' w) = some (host, port)
      rw [parseHostAndPort_bare (head?_append_part hhead), hcut, Option.bind_some, hread]
      rfl

/-- The brackets are all that is added to a host. -/
theorem mem_hostText {c : Char} {bracketed : Bool} {host : List Char} (h : c ≠ '[' ∧ c ≠ ']') :
    c ∈ hostText bracketed host ↔ c ∈ host := by
  cases bracketed with
  | false => exact Iff.rfl
  | true => simp [hostText, h]

/-- The same for host and port, up to the colon between them. -/
theorem mem_hostAndPort {c : Char} {p : Spelling} (h : c ≠ '[' ∧ c ≠ ']' ∧ c ≠ ':') :
    c ∉ p.hostAndPort ↔ c ∉ p.host ∧ ∀ x ∈ p.port, c ∉ x := by
  rw [hostAndPort, List.mem_append, not_or, mem_hostText ⟨h.1, h.2.1⟩, Text.notMem_part h.2.2]

/-- After the user there is no `@`. -/
theorem Spelling.Delimited.at_notMem {p : Spelling} (h : p.Delimited) :
    '@' ∉ p.hostAndPort ++ Text.part '~' p.ncpus := by
  rw [List.mem_append, not_or, Text.notMem_part (by decide), mem_hostAndPort (by decide)]
  exact ⟨⟨h.host.1, fun x hx => (h.port x hx).1⟩, fun x hx => (h.ncpus x hx).1⟩

/-- The user of a spelling is found. -/
theorem Spelling.Delimited.parseUser_text {p : Spelling} (h : p.Delimited) :
    parseUser p.text = some (p.user, p.hostAndPort ++ Text.part '~' p.ncpus) :=
  parseUser_eq_some_iff.mpr ⟨rfl, h.at_notMem, h.user⟩

/-- Before the number of CPUs there is no `~`. -/
theorem Spelling.Delimited.tilde_notMem {p : Spelling} (h : p.Delimited) :
    '~' ∉ p.hostAndPort :=
  (mem_hostAndPort (by decide)).mpr ⟨h.host.2, fun x hx => (h.port x hx).2.1⟩

/-- **What is read as a host specification is a spelling of it**, with numbers
as `int` reads them, and every spelling is read. -/
theorem hostSpecOf_eq_some_iff {spec : HostSpec} :
    hostSpecOf s = some spec ↔
      ∃ p : Spelling, p.Delimited ∧ p.text = s ∧ p.read Text.int = some spec := by
  constructor
  · intro h
    simp only [hostSpecOf, Option.bind_eq_bind, Option.bind_eq_some_iff] at h
    obtain ⟨⟨user, s₁⟩, huser, ⟨n, s₂⟩, hncpus, ⟨host, port⟩, hport, h⟩ := h
    obtain ⟨rfl, hat, hu⟩ := parseUser_eq_some_iff.mp huser
    obtain ⟨w, rfl, htilde, hw, hn⟩ := parseNcpus_eq_some_iff.mp hncpus
    obtain ⟨bracketed, v, rfl, henclosed, hv, hread⟩ := parseHostAndPort_eq_some_iff.mp hport
    split at h
    · cases h
    next hne =>
      let p : Spelling := ⟨user, host, bracketed, v, w⟩
      rw [List.mem_append, not_or, Text.notMem_part (by decide)] at hat
      have hat' := (mem_hostAndPort (p := p) (by decide)).mp hat.1
      have htilde' := (mem_hostAndPort (p := p) (by decide)).mp htilde
      refine ⟨p, ?_, rfl, ?_⟩
      · exact
          { user := hu
            host_ne := hne
            host := ⟨hat'.1, htilde'.1⟩
            enclosed := henclosed
            port := fun x hx => ⟨hat'.2 x hx, htilde'.2 x hx, hv x hx⟩
            ncpus := fun x hx => ⟨hat.2 x hx, hw x hx⟩ }
      · show (readNcpus Text.int w).bind _ = _
        rw [hn, Option.bind_some]
        show (readPort Text.int v).bind _ = _
        rwa [hread, Option.bind_some]
  · rintro ⟨p, hp, rfl, h⟩
    simp only [Spelling.read, Option.bind_eq_bind, Option.bind_eq_some_iff] at h
    obtain ⟨n, hn, port, hport, h⟩ := h
    have hncpus := parseNcpus_eq_some_iff.mpr
      ⟨p.ncpus, rfl, hp.tilde_notMem, fun x hx => (hp.ncpus x hx).2, hn⟩
    have hhost := parseHostAndPort_eq_some_iff.mpr
      ⟨p.bracketed, p.port, rfl, hp.enclosed, fun x hx => (hp.port x hx).2.2, hport⟩
    rw [hostSpecOf, hp.parseUser_text]
    show (parseNcpus (p.hostAndPort ++ _)).bind _ = _
    rw [hncpus, Option.bind_some]
    show (parseHostAndPort (hostText _ _ ++ _)).bind _ = _
    rw [hhost, Option.bind_some]
    exact (if_neg hp.host_ne).trans h

/-! ## One spelling for one text

A text that could be taken apart in two ways would make the grammar ambiguous.
It cannot: each separator is found from the outside to the inside, and a
delimited part does not contain the separator that is looked for next. -/

/-- Host and port can be told from their text. -/
theorem hostText_append_part_inj {bracketed bracketed' : Bool} {host host' : List Char}
    {w w' : Option (List Char)} (hh : Enclosed bracketed host) (hh' : Enclosed bracketed' host')
    (hw : ∀ x ∈ w, ':' ∉ x) (hw' : ∀ x ∈ w', ':' ∉ x)
    (h : hostText bracketed host ++ Text.part ':' w =
      hostText bracketed' host' ++ Text.part ':' w') :
    bracketed = bracketed' ∧ host = host' ∧ w = w' := by
  cases bracketed with
  | true =>
    cases bracketed' with
    | true =>
      have h' : host ++ ']' :: Text.part ':' w = host' ++ ']' :: Text.part ':' w' := by
        simpa [hostText] using h
      have hpart := congrArg (Text.partition ']') h'
      rw [Text.partition_append hh, Text.partition_append hh'] at hpart
      obtain ⟨hhost, hport⟩ := Prod.mk.inj hpart
      have hempty : ([] : List Char) ++ Text.part ':' w = [] ++ Text.part ':' w' := hport
      exact ⟨rfl, hhost, (Text.append_part_inj List.not_mem_nil hw List.not_mem_nil hw' hempty).2⟩
    | false =>
      refine absurd ?_ (head?_append_part (w := w') hh'.2)
      exact (congrArg List.head? h).symm
  | false =>
    cases bracketed' with
    | true => exact absurd (congrArg List.head? h) (head?_append_part hh.2)
    | false => exact ⟨rfl, Text.append_part_inj hh.1 hw hh'.1 hw' h⟩

/-- **A text has one spelling.** The user, the CPUs, and the port are cut off
where the parser cuts them off. -/
theorem text_injective {p q : Spelling} (hp : p.Delimited) (hq : q.Delimited)
    (h : p.text = q.text) : p = q := by
  have huser := hp.parseUser_text
  rw [h, hq.parseUser_text] at huser
  obtain ⟨hu, hrest⟩ := Prod.mk.inj (Option.some.inj huser)
  obtain ⟨hhost, hn⟩ := Text.append_part_inj hq.tilde_notMem (fun x hx => (hq.ncpus x hx).2)
    hp.tilde_notMem (fun x hx => (hp.ncpus x hx).2) hrest
  obtain ⟨hb, hname, hport⟩ := hostText_append_part_inj hq.enclosed hp.enclosed
    (fun x hx => (hq.port x hx).2.2) (fun x hx => (hp.port x hx).2.2) hhost
  cases p
  cases q
  cases hu
  cases hn
  cases hb
  cases hname
  cases hport
  rfl

end Yascheduler
