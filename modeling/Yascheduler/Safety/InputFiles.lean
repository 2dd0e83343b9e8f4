import Yascheduler.Application.InputFiles
import Yascheduler.Safety.Metadata

/-!
# Which input files arrive byte for byte

A file is stored under its own name among the metadata, as text if it is UTF-8
and in base64 otherwise. What the machine gets is the file itself exactly when

* its name is none of the keys with a column of their own, which are taken out
  of `extra`;
* it is `fort.9`, which is decoded, and not UTF-8 – or empty;
* it has another name, which is written as it is stored, and is UTF-8 without a
  carriage return, which reading replaces, and without the character zero,
  which the database refuses.

The last of these is about the submission and not about the machine: a file with
a zero never gets there. So the statement is about both at once. It takes for
granted that the submission is accepted with *some* contents in place of these,
which says that everything else about it is in order – the engine, the label,
the folder – and nothing about the contents. Then the submission is accepted and
every file arrives, if and only if every file is of the kind above.
-/

namespace Yascheduler

open Store
open PosixPath (joinPath)

/-! ## Text

Reading a text in Python changes its line endings, and it loses nothing else.
So the bytes that are written are those of the file exactly if there was no
carriage return in it. The converse direction rests on the length: replacing
`CR LF` makes a text shorter, and replacing a lone one changes it. -/

/-- No carriage return is left in a text that was read. -/
theorem mem_universalNewlines {text : List Char} : '\r' ∉ universalNewlines text := by
  induction text using universalNewlines.induct with
  | case1 => simp [universalNewlines]
  | case2 text ih => simpa [universalNewlines] using ih
  | case3 text hcrlf ih =>
    rw [universalNewlines]
    · simpa using ih
    · exact hcrlf
  | case4 c text hcrlf hcr ih =>
    rw [universalNewlines]
    · rw [List.mem_cons, not_or]
      exact ⟨fun h => hcr h.symm, ih⟩
    · exact hcrlf
    · exact hcr

/-- A text does not become longer by being read. -/
theorem length_universalNewlines (text : List Char) :
    (universalNewlines text).length ≤ text.length := by
  induction text using universalNewlines.induct with
  | case1 => exact Nat.le_refl _
  | case2 text ih =>
    simp only [universalNewlines, List.length_cons]
    omega
  | case3 text hcrlf ih =>
    rw [universalNewlines]
    · simpa using ih
    · exact hcrlf
  | case4 c text hcrlf hcr ih =>
    rw [universalNewlines]
    · simpa using ih
    · exact hcrlf
    · exact hcr

/-- Text without carriage returns is read as it is, and no other text is. This is
why text files of one kind arrive and others do not. -/
theorem universalNewlines_eq_iff {text : List Char} :
    universalNewlines text = text ↔ '\r' ∉ text := by
  constructor
  · intro h
    rw [← h]
    exact mem_universalNewlines
  · intro h
    induction text with
    | nil => rfl
    | cons c text ih =>
      rw [List.mem_cons, not_or] at h
      obtain ⟨hc, htext⟩ := h
      rw [universalNewlines, ih htext]
      · rintro _ rfl -
        exact hc rfl
      · rintro rfl
        exact hc rfl

/-- Bytes that are decoded are the bytes of the text. -/
theorem fromUTF8?_eq_some {bytes : ByteArray} {s : String} :
    String.fromUTF8? bytes = some s ↔ s.toUTF8 = bytes := by
  unfold String.fromUTF8?
  constructor
  · intro h
    split at h
    · rw [← Option.some.inj h]
      rfl
    · cases h
  · rintro rfl
    rw [dif_pos (show s.toUTF8.IsValidUTF8 from s.isValidUTF8)]
    rfl

/-- A text has no more characters than bytes. So a text that is decoded as base64 to
its own bytes would be longer than itself. -/
theorem length_le_size (s : String) : s.toList.length ≤ s.toUTF8.size := by
  rw [String.toUTF8_eq_toByteArray]
  show s.toList.length ≤ s.utf8ByteSize
  rw [← String.ofList_toList (s := s)]
  generalize s.toList = text
  rw [String.toList_ofList]
  induction text with
  | nil => exact Nat.zero_le _
  | cons c text ih =>
    have hcons : String.ofList (c :: text) = String.singleton c ++ String.ofList text := by
      apply String.toList_inj.mp
      simp
    have hpos := c.utf8Size_pos
    rw [hcons, String.utf8ByteSize_append, String.utf8ByteSize_singleton, List.length_cons]
    omega

/-! ## Base64

A text that is decoded although it was not encoded might by chance give back
its own bytes. It cannot, because what is decoded is shorter than the text,
unless both are empty. This is why only the empty text file can be called
`fort.9`. -/

/-- A printable character is no blank, and one byte. -/
theorem printable_plain {c : Char} (h : Codec.Printable c) :
    Text.isSpace c = false ∧ c ≠ '\n' ∧ c ≠ ' ' ∧ c.toNat < 128 := by
  obtain ⟨hlow, hhigh⟩ := h
  refine ⟨?_, ?_, ?_, Nat.lt_succ_of_lt hhigh⟩
  · simp only [Text.isSpace, decide_eq_false_iff_not]
    omega
  · rintro rfl
    exact absurd hlow (by decide)
  · rintro rfl
    exact absurd hlow (by decide)

/-- **The daemon decodes what the client encodes.** There is no white space in it
and no padding is missing, so nothing of what makes the decoder lenient comes into
play. -/
theorem safeB64decode_encode (bytes : List UInt8) :
    safeB64decode (String.ofList (Codec.encode bytes)) = .ok bytes := by
  have hplain : ∀ c ∈ Codec.encode bytes,
      Text.isSpace c = false ∧ c ≠ '\n' ∧ c ≠ ' ' ∧ c.toNat < 128 := fun c hc =>
    printable_plain (Codec.encode_printable bytes c hc)
  have hstrip : Text.strip (Codec.encode bytes) = Codec.encode bytes :=
    Text.stripBy_of_forall fun c hc => (hplain c hc).1
  have hfilter : ((Codec.encode bytes).filter fun c => c ≠ '\n' ∧ c ≠ ' ') =
      Codec.encode bytes := by
    refine List.filter_eq_self.mpr fun c hc => ?_
    obtain ⟨-, hnewline, hspace, -⟩ := hplain c hc
    simp [hnewline, hspace]
  have hpadded : padded (Codec.encode bytes) = Codec.encode bytes := by
    unfold padded
    rw [if_pos (Codec.length_encode bytes)]
  have hascii : ((Codec.encode bytes).any fun c => 128 ≤ c.toNat) = false := by
    refine List.any_eq_false.mpr fun c hc => ?_
    simpa using (hplain c hc).2.2.2
  unfold safeB64decode
  rw [String.toList_ofList, hstrip, hfilter, hpadded]
  simp only [hascii, Codec.decode_encode]
  rfl

/-- What is left of a stripped text was in it. -/
theorem strip_sublist (text : List Char) : (Text.strip text).Sublist text := by
  unfold Text.strip Text.stripBy
  rw [← List.reverse_sublist, List.reverse_reverse]
  exact (List.dropWhile_sublist _).trans (List.dropWhile_sublist _).reverse

/-- Padding adds no digits. -/
theorem digits_padded (text : List Char) : Codec.digits (padded text) = Codec.digits text := by
  unfold padded
  split
  · rfl
  · simp [Codec.digits, List.countP_append, List.countP_replicate, Codec.value_pad]

/-- **What is decoded is shorter than the text.** Four characters stand for three
bytes. -/
theorem length_safeB64decode {data : String} {bytes : List UInt8}
    (h : safeB64decode data = .ok bytes) :
    bytes = [] ∨ bytes.length < data.toList.length := by
  unfold safeB64decode at h
  simp only at h
  split at h
  · cases h
  · split at h
    · cases h
    · rename_i decoded hdecoded
      obtain rfl : decoded = bytes := Except.ok.inj h
      refine (Codec.length_decode hdecoded).imp id fun hlt => ?_
      rw [digits_padded] at hlt
      refine Nat.lt_of_lt_of_le hlt (Nat.le_trans List.countP_le_length ?_)
      exact (List.filter_sublist.trans (strip_sublist _)).length_le

/-! ## One file

There are four cases, by the name and by the content. The client looks at one
of the two and the daemon at the other, and the file arrives where they come to
the same, if reading and storing it as a text has not changed it before. -/

/-- **A file that arrives**: whether the database takes what is stored of it, and
the end that writes reads it the way the end that stored it wrote it. The client
decides by the content, and the daemon by the name. -/
def Arrives (file : String) (bytes : ByteArray) : Prop :=
  if file = "fort.9" then bytes = ByteArray.empty ∨ String.fromUTF8? bytes = none
  else ∃ s, String.fromUTF8? bytes = some s ∧ '\r' ∉ s.toList ∧ nul ∉ s.toList

section

variable {bytes : ByteArray} {s : String}

/-- A file that is UTF-8 is stored as its text, with the line endings that Python
gives it. -/
theorem readText_some (h : String.fromUTF8? bytes = some s) :
    storedText bytes = String.ofList (universalNewlines s.toList) := by
  unfold storedText readText
  rw [h]
  rfl

/-- Any other file is stored as base64. -/
theorem readText_none (h : String.fromUTF8? bytes = none) :
    storedText bytes = String.ofList (Codec.encode bytes.data.toList) := by
  unfold storedText readText
  rw [h]
  rfl

/-- `fort.9` is decoded, whatever it was stored as. A text that was stored as it is
would have to be the base64 of itself. -/
theorem delivered_fort9 : delivered "fort.9" (storedText bytes) = .ok bytes ↔
    bytes = ByteArray.empty ∨ String.fromUTF8? bytes = none := by
  unfold delivered
  rw [if_pos rfl]
  cases hs : String.fromUTF8? bytes with
  | none =>
    rw [readText_none hs, safeB64decode_encode]
    exact iff_of_true rfl (.inr rfl)
  | some s =>
    have hutf8 := fromUTF8?_eq_some.mp hs
    rw [readText_some hs]
    constructor
    · intro h
      left
      obtain ⟨decoded, hdecoded, hbytes⟩ : ∃ decoded,
          safeB64decode (String.ofList (universalNewlines s.toList)) = .ok decoded ∧
            (⟨decoded.toArray⟩ : ByteArray) = bytes := by
        cases hd : safeB64decode (String.ofList (universalNewlines s.toList)) with
        | error e => rw [hd] at h; cases h
        | ok decoded => rw [hd] at h; exact ⟨decoded, rfl, Except.ok.inj h⟩
      rcases length_safeB64decode hdecoded with rfl | hlt
      · exact hbytes.symm
      · -- fewer bytes come out than the file has characters
        rw [String.toList_ofList] at hlt
        have hsize : decoded.length = s.toUTF8.size := by
          rw [hutf8, ← hbytes]
          rfl
        have hle := length_universalNewlines s.toList
        have hchars := length_le_size s
        omega
    · rintro (rfl | h)
      · have hempty : String.fromUTF8? ByteArray.empty = some "" :=
          fromUTF8?_eq_some.mpr rfl
        rw [hempty] at hs
        rw [← Option.some.inj hs]
        rfl
      · cases h

/-- Every other file is written as it was stored, and base64 is no exception. -/
theorem delivered_text {file : String} (hfile : file ≠ "fort.9") :
    delivered file (storedText bytes) = .ok bytes ↔
      ∃ s, String.fromUTF8? bytes = some s ∧ '\r' ∉ s.toList := by
  unfold delivered
  rw [if_neg hfile]
  constructor
  · intro h
    have hutf8 := fromUTF8?_eq_some.mpr (Except.ok.inj h)
    refine ⟨_, hutf8, ?_⟩
    rw [readText_some hutf8] at hutf8 ⊢
    rw [String.toList_ofList]
    exact mem_universalNewlines
  · rintro ⟨s, hs, hcr⟩
    rw [readText_some hs, universalNewlines_eq_iff.mpr hcr, String.ofList_toList,
      fromUTF8?_eq_some.mp hs]

/-- The database takes base64, which has no null character. -/
theorem storable_encode (bytes : List UInt8) :
    storable (String.ofList (Codec.encode bytes)) = true := by
  refine decide_eq_true fun hmem => ?_
  rw [String.toList_ofList] at hmem
  exact absurd (Codec.encode_printable bytes nul hmem).1 (by decide)

/-- **A file is stored, and written byte for byte, exactly when it is one that
arrives.** Whether it is `fort.9` and whether it is UTF-8 are the cases. -/
theorem arrives_iff {file : String} : Arrives file bytes ↔
    storable (storedText bytes) = true ∧ delivered file (storedText bytes) = .ok bytes := by
  unfold Arrives
  by_cases hfile : file = "fort.9"
  · subst hfile
    rw [if_pos rfl, delivered_fort9, iff_and_self]
    rintro (rfl | hnone)
    · decide
    · rw [readText_none hnone]
      exact storable_encode _
  · rw [if_neg hfile, delivered_text hfile]
    constructor
    · rintro ⟨s, hs, hcr, hnul⟩
      rw [readText_some hs, universalNewlines_eq_iff.mpr hcr, String.ofList_toList]
      exact ⟨decide_eq_true hnul, s, hs, hcr⟩
    · rintro ⟨hstorable, s, hs, hcr⟩
      rw [readText_some hs, universalNewlines_eq_iff.mpr hcr, String.ofList_toList] at hstorable
      exact ⟨s, hs, hcr, of_decide_eq_true hstorable⟩

end

/-! ## All files

The files share one mapping with the keys of the webhook and of the client, so
a name may be taken. What the mapping holds under a name is decided by who
writes last, and the lemmas follow the order in which it is built. -/

section

variable {d : JsonDriver} {script : Dict String String} {config : ClientConfig}
  {cwd createdAt remoteDir : String} {folder : String → Option ByteArray} {t : TaskId}
  {engine : Engine} {metadata : Metadata} {row : JsonRow} {task : JsonTask}
  {repr : Json → String} {server : String → Except Exc Unit}

/-- What `_build_metadata` sets for the webhook, after the input files. -/
def webhookEntries (script : Dict String String) (config : ClientConfig) : Metadata :=
  match script.get "PARENT", config.webhookUrl with
  | some parent, some url =>
    if url = "" then []
    else [("webhook_url", .string url), ("webhook_custom_params", .object [("parent", .string parent)])]
  | _, _ => []

/-- It sets no other key. -/
theorem webhookEntries_none {k : String} (h : k ≠ "webhook_url") (h' : k ≠ "webhook_custom_params") :
    Dict.get (webhookEntries script config) k = none := by
  unfold webhookEntries
  split
  · split
    · rfl
    · simp [Ne.symm h, Ne.symm h']
  · rfl

/-- The files can be read if all of them are there. -/
theorem readInputFiles_ok {files : List String} (h : ∀ file ∈ files, (folder file).isSome = true)
    (metadata : Metadata) : ∃ metadata', readInputFiles folder files metadata = .ok metadata' := by
  induction files generalizing metadata with
  | nil => exact ⟨metadata, rfl⟩
  | cons file files ih =>
    obtain ⟨hfile, hfiles⟩ := List.forall_mem_cons.mp h
    obtain ⟨bytes, hbytes⟩ := Option.isSome_iff_exists.mp hfile
    unfold readInputFiles
    rw [hbytes]
    exact ih hfiles _

/-- The metadata can be built if every file is there. -/
theorem buildMetadata_eq
    (hengine : config.engines.get ((script.get "ENGINE").getD "") = some engine) :
    buildMetadata script config cwd folder =
      (readInputFiles folder engine.inputFiles []).map fun files =>
        (Dict.update [("local_folder", Json.string cwd)] files).update
          (webhookEntries script config) := by
  unfold buildMetadata webhookEntries
  rw [hengine]
  dsimp only
  cases readInputFiles folder engine.inputFiles [] with
  | error e => rfl
  | ok files =>
    cases script.get "PARENT" with
    | none => rfl
    | some parent =>
      cases config.webhookUrl with
      | none => rfl
      | some url =>
        by_cases hurl : url = ""
        · simp only [if_pos hurl]
          rfl
        · simp only [if_neg hurl]
          rfl

/-- **What the metadata holds**: what is set for the webhook, or else the input
files under their names, or else the folder of the client. -/
theorem buildMetadata_spec
    (hengine : config.engines.get ((script.get "ENGINE").getD "") = some engine)
    (h : buildMetadata script config cwd folder = .ok metadata) :
    (∀ file ∈ engine.inputFiles, (folder file).isSome = true) ∧
      (metadata.map Prod.fst).Nodup ∧
      ∀ k, metadata.get k = (Dict.get (webhookEntries script config) k).or
        (if k ∈ engine.inputFiles then some (storedUnder folder k)
          else Dict.get [("local_folder", .string cwd)] k) := by
  rw [buildMetadata_eq hengine] at h
  obtain ⟨files, hfiles, rfl⟩ : ∃ files, readInputFiles folder engine.inputFiles [] = .ok files ∧
      (Dict.update [("local_folder", Json.string cwd)] files).update
        (webhookEntries script config) = metadata := by
    cases hread : readInputFiles folder engine.inputFiles [] with
    | error e =>
      rw [hread] at h
      cases h
    | ok files =>
      rw [hread] at h
      exact ⟨files, rfl, Except.ok.inj h⟩
  obtain ⟨hall, hsome, hkeys⟩ := readInputFiles_spec hfiles (by simp)
  refine ⟨hsome, ?_, fun k => ?_⟩
  · exact Dict.nodup_keys_update (Dict.nodup_keys_update (List.nodup_singleton _))
  · have hread : Dict.get (Dict.update [("local_folder", Json.string cwd)] files) k =
        if k ∈ engine.inputFiles then some (storedUnder folder k)
          else Dict.get [("local_folder", .string cwd)] k := by
      have hkey : k ∈ files.map Prod.fst ↔ k ∈ engine.inputFiles :=
        (hkeys k).trans (or_iff_left List.not_mem_nil)
      rw [Dict.get_update hall]
      simp only [hkey]
    rw [← hread]
    unfold webhookEntries
    split
    · split
      · rfl
      · show Dict.get (Dict.set (Dict.set _ _ _) _ _) k = _
        rw [Dict.get_set, Dict.get_set, Dict.get_cons, Dict.get_cons, Dict.get_nil]
        by_cases hparams : k = "webhook_custom_params"
        · subst hparams
          rfl
        · rw [if_neg hparams, if_neg (Ne.symm hparams)]
          by_cases hurl : k = "webhook_url"
          · rw [if_pos hurl, if_pos hurl.symm, Option.some_or]
          · rw [if_neg hurl, if_neg (Ne.symm hurl), Option.none_or]
    · rfl

/-- What is submitted is what was built. -/
theorem yasubmit_spec
    (hengine : config.engines.get ((script.get "ENGINE").getD "") = some engine)
    (h : yasubmit d script config cwd folder t createdAt = .ok row) :
    ∃ metadata, buildMetadata script config cwd folder = .ok metadata ∧
      submitTask d ((script.get "LABEL").getD "AiiDA job") metadata engine.name
        config.engines t createdAt = .ok row := by
  unfold yasubmit at h
  simp only at h
  split at h
  · cases h
  · rw [hengine] at h
    exact bind_eq_ok h

/-- **The files that were written**: each under its path, with the bytes it has in
the folder. Nothing else is written, and none is left out. -/
def Arrived (folder : String → Option ByteArray) (remoteDir : String)
    (files : List String) (written : List (String × ByteArray)) : Prop :=
  List.Forall₂ (fun file w => w.1 = joinPath remoteDir file ∧ folder file = some w.2)
    files written

/-- One file after the other. -/
theorem uploadInputs_iff {files : List String}
    (hserver : ∀ file ∈ files, server (joinPath remoteDir file) = .ok ())
    (hextra : ∀ file ∈ files, ∃ bytes, folder file = some bytes ∧
      task.extra.get file =
        (if file ∉ knownTypedKeys then some (.string (storedText bytes)) else none) ∧
      (file ∉ knownTypedKeys → storable (storedText bytes) = true)) :
    (∃ written, uploadInputs repr server task remoteDir files = .ok written ∧
      Arrived folder remoteDir files written) ↔
    ∀ file ∈ files, file ∉ knownTypedKeys ∧
      ∃ bytes, folder file = some bytes ∧ Arrives file bytes := by
  induction files with
  | nil => exact iff_of_true ⟨[], rfl, .nil⟩ (by simp)
  | cons file files ih =>
    obtain ⟨hopen, hserver⟩ := List.forall_mem_cons.mp hserver
    obtain ⟨⟨bytes, hbytes, hget, hstorable⟩, hextra⟩ := List.forall_mem_cons.mp hextra
    rw [List.forall_mem_cons, ← ih hserver hextra]
    by_cases hknown : file ∈ knownTypedKeys
    · -- the key was taken out of `extra`
      rw [if_neg (not_not_intro hknown)] at hget
      refine iff_of_false ?_ fun h => h.1.1 hknown
      rintro ⟨written, hwritten, -⟩
      unfold uploadInputs at hwritten
      rw [hget] at hwritten
      cases hwritten
    · rw [if_pos hknown] at hget
      have hstep : uploadInputs repr server task remoteDir (file :: files) = (do
          let bytes ← delivered file (storedText bytes)
          let written ← uploadInputs repr server task remoteDir files
          return (joinPath remoteDir file, bytes) :: written) := by
        rw [uploadInputs, hget]
        show (delivered file (storedText bytes) >>= fun bytes => _) = _
        rw [hopen]
        rfl
      constructor
      · rintro ⟨written, hwritten, harrived⟩
        rw [hstep] at hwritten
        obtain ⟨out, hout, hthen⟩ := bind_eq_ok hwritten
        obtain ⟨rest, hrest, hret⟩ := bind_eq_ok hthen
        obtain rfl := Except.ok.inj hret
        obtain ⟨⟨-, hsame⟩, htail⟩ := List.forall₂_cons.mp harrived
        obtain rfl : bytes = out := Option.some.inj (hbytes.symm.trans hsame)
        exact ⟨⟨hknown, bytes, hbytes, arrives_iff.mpr ⟨hstorable hknown, hout⟩⟩, rest, hrest, htail⟩
      · rintro ⟨⟨-, bytes', hbytes', harrives⟩, rest, hrest, harrived⟩
        obtain rfl : bytes = bytes' := Option.some.inj (hbytes.symm.trans hbytes')
        refine ⟨(joinPath remoteDir file, bytes) :: rest, ?_, .cons ⟨rfl, hbytes⟩ harrived⟩
        rw [hstep, (arrives_iff.mp harrives).2, hrest]
        rfl

end

/-! ## The submission

The files are read by the client and written by the daemon much later, and in
between they are in the row of the task. That the row keeps them is the
statement of `Metadata`; here it is used for the keys that are files. A later
row may be that of a running task or of a finished one, and the files are the
same in all of them. -/

section

variable {d : JsonDriver} {script : Dict String String} {config : ClientConfig}
  {cwd createdAt remoteDir : String} {folder folder' : String → Option ByteArray} {t : TaskId}
  {engine : Engine} {row₀ row : JsonRow} {finalised : Bool} {repr : Json → String}
  {server : String → Except Exc Unit}

/-- What every later row of an accepted submission has of the input files. The keys
with columns of their own do not come back as files. -/
theorem extra_of_accepted
    (hengine : config.engines.get ((script.get "ENGINE").getD "") = some engine)
    (hsubmit : yasubmit d script config cwd folder t createdAt = .ok row₀)
    (hlater : Later d t row₀ row finalised) :
    ∀ file ∈ engine.inputFiles, ∃ bytes, folder file = some bytes ∧
      row.extra.get file =
        (if file ∉ knownTypedKeys then some (.string (storedText bytes)) else none) ∧
      (file ∉ knownTypedKeys → storable (storedText bytes) = true) := by
  obtain ⟨metadata, hbuild, hsubmitted⟩ := yasubmit_spec hengine hsubmit
  obtain ⟨hsome, -, hget⟩ := buildMetadata_spec hengine hbuild
  have hholds : Holds d metadata row finalised := (Holds.submitted hsubmitted).later hlater
  intro file hfile
  obtain ⟨bytes, hbytes⟩ := Option.isSome_iff_exists.mp (hsome file hfile)
  refine ⟨bytes, hbytes, ?_⟩
  have hstored := get_storedFields hholds.extra file
  rw [get_extraOf] at hstored
  by_cases hknown : file ∈ knownTypedKeys
  · rw [if_neg (not_not_intro hknown)] at hstored ⊢
    exact ⟨Option.map_eq_none_iff.mp hstored.symm, fun hnot => absurd hknown hnot⟩
  · have hne {k : String} (hk : k ∈ knownTypedKeys) : file ≠ k := fun heq => hknown (heq ▸ hk)
    have htext : storedUnder folder file = .string (storedText bytes) := by
      rw [storedUnder, hbytes, Option.getD_some]
    rw [if_pos hknown, hget, webhookEntries_none (hne (by decide)) (hne (by decide)),
      Option.none_or, if_pos hfile, htext] at hstored
    obtain ⟨w, hw, heq⟩ := Option.map_eq_some_iff.mp hstored.symm
    have htaken : (if storable (storedText bytes) then some (Json.string (storedText bytes))
        else none) = some w := heq.symm
    split at htaken
    · next hstorable =>
      rw [if_pos hknown, hw, ← htaken]
      exact ⟨rfl, fun _ => hstorable⟩
    · cases htaken

/-- Among the submissions that are accepted, those arrive whose files do: in
every later state of the task. -/
theorem arrives_of_accepted
    (hengine : config.engines.get ((script.get "ENGINE").getD "") = some engine)
    (hsubmit : yasubmit d script config cwd folder t createdAt = .ok row₀)
    (hlater : Later d t row₀ row finalised)
    (hserver : ∀ file ∈ engine.inputFiles, server (joinPath remoteDir file) = .ok ()) :
    (∃ task written, row.load d t = .ok task ∧
      uploadInputs repr server task remoteDir engine.inputFiles = .ok written ∧
      Arrived folder remoteDir engine.inputFiles written) ↔
    ∀ file ∈ engine.inputFiles, file ∉ knownTypedKeys ∧
      ∃ bytes, folder file = some bytes ∧ Arrives file bytes := by
  have hrow := extra_of_accepted hengine hsubmit hlater
  obtain ⟨metadata, hbuild, hsubmitted⟩ := yasubmit_spec hengine hsubmit
  obtain ⟨-, -, hget⟩ := buildMetadata_spec hengine hbuild
  have hholds : Holds d metadata row finalised := (Holds.submitted hsubmitted).later hlater
  have hextra {task : JsonTask} (hload : row.load d t = .ok task) : task.extra = row.extra :=
    (load_spec hholds.check hload).2.2.2
  constructor
  · rintro ⟨task, written, hload, hwritten, harrived⟩
    exact (uploadInputs_iff hserver (hextra hload ▸ hrow)).mp ⟨written, hwritten, harrived⟩
  · intro h
    have hparams : ∀ s, metadata.get "webhook_custom_params" ≠ some (.string s) := by
      intro s
      have hfree : "webhook_custom_params" ∉ engine.inputFiles := fun hmem =>
        (h _ hmem).1 (by decide)
      rw [hget, if_neg hfree]
      unfold webhookEntries
      split
      · split <;> simp
      · simp
    obtain ⟨task, hload⟩ := hholds.loads (t := t) hparams
    obtain ⟨written, hwritten, harrived⟩ := (uploadInputs_iff hserver (hextra hload ▸ hrow)).mpr h
    exact ⟨task, written, hload, hwritten, harrived⟩

/-- A JSON column takes a mapping if it takes every entry of it. -/
theorem storedFields_isSome {fields : List (String × Json)} :
    (storedFields fields).isSome = true ↔
      ∀ e ∈ fields, storable e.1 = true ∧ e.2.stored.isSome = true := by
  induction fields with
  | nil => exact iff_of_true rfl fun _ he => nomatch he
  | cons e fields ih =>
    obtain ⟨k, v⟩ := e
    rw [storedFields, List.forall_mem_cons, ← ih]
    cases storable k <;> cases v.stored <;> cases storedFields fields <;> simp

/-- **What a submission is accepted for**: the keys, the values of the three keys
with columns of their own, and whether the JSON column takes the rest. -/
theorem submitTask_ok_of {label engineName : String} {engines : EngineRepository}
    {metadata metadata' : Metadata}
    (h : submitTask d label metadata' engineName engines t createdAt = .ok row)
    (hkeys : ∀ k, (metadata.get k).isNone = (metadata'.get k).isNone)
    (htyped : ∀ k ∈ knownTypedKeys, metadata.get k = metadata'.get k)
    (hextra : (storedFields (extraOf metadata)).isSome = true) :
    ∃ row, submitTask d label metadata engineName engines t createdAt = .ok row := by
  obtain ⟨extra, hextra⟩ := Option.isSome_iff_exists.mp hextra
  have hparams : customParamsOf metadata = customParamsOf metadata' := by
    unfold customParamsOf
    rw [htyped _ (by decide)]
  unfold submitTask at h ⊢
  cases hengine : engines.get engineName with
  | none =>
    rw [hengine] at h
    cases h
  | some engine =>
    rw [hengine] at h
    simp only [hkeys, htyped "local_folder" (by decide), htyped "webhook_url" (by decide),
      hparams, hextra] at h ⊢
    split at h
    · cases h
    · obtain ⟨⟨columns, inserted⟩, hinsert, h⟩ := bind_eq_ok h
      obtain ⟨params, htoJsonb, h⟩ := bind_eq_ok h
      obtain ⟨extra', -, h⟩ := bind_eq_ok h
      obtain ⟨task, hload, hsave⟩ := bind_eq_ok h
      obtain ⟨loaded, hcolumns, hload⟩ := bind_eq_ok hload
      obtain ⟨params', hofJsonb, hload⟩ := bind_eq_ok hload
      obtain rfl := Except.ok.inj hload
      obtain ⟨columns', hupdate, hsave⟩ := bind_eq_ok hsave
      obtain ⟨params'', hagain, -⟩ := bind_eq_ok hsave
      refine ⟨{ columns := columns', webhookCustomParams := params'', extra := extra }, ?_⟩
      rw [hinsert]
      show (d.toJsonb (customParamsOf metadata') >>= _) = _
      rw [htoJsonb]
      show ((columns.rowToTask t >>= fun task => _) >>= _) = _
      rw [hcolumns]
      show ((d.ofJsonb params >>= fun params => _) >>= _) = _
      rw [hofJsonb]
      show (columns.updateById loaded >>= fun columns => _) = _
      rw [hupdate]
      show (d.toJsonb params' >>= fun params => _) = _
      rw [hagain]
      show (JsonDriver.spelled (storedFields extra) >>= fun extra => _) = _
      rw [storedFields_stored hextra]
      rfl

/-- A submission is accepted with other contents, if the database takes what is
stored of them. -/
theorem yasubmit_ok_of
    (hengine : config.engines.get ((script.get "ENGINE").getD "") = some engine)
    (h : yasubmit d script config cwd folder' t createdAt = .ok row)
    (hfiles : ∀ file ∈ engine.inputFiles, file ∉ knownTypedKeys ∧
      ∃ bytes, folder file = some bytes ∧ storable (storedText bytes) = true) :
    ∃ row₀, yasubmit d script config cwd folder t createdAt = .ok row₀ := by
  obtain ⟨metadata', hbuild', hsubmit'⟩ := yasubmit_spec hengine h
  obtain ⟨-, hnodup', hget'⟩ := buildMetadata_spec hengine hbuild'
  obtain ⟨metadata, hbuild⟩ : ∃ metadata, buildMetadata script config cwd folder = .ok metadata := by
    have hpresent : ∀ file ∈ engine.inputFiles, (folder file).isSome = true := by
      intro file hfile
      obtain ⟨-, bytes, hbytes, -⟩ := hfiles file hfile
      rw [hbytes]
      rfl
    obtain ⟨files, hread⟩ := readInputFiles_ok hpresent []
    rw [buildMetadata_eq hengine, hread]
    exact ⟨_, rfl⟩
  obtain ⟨-, hnodup, hget⟩ := buildMetadata_spec hengine hbuild
  have htyped : ∀ k ∈ knownTypedKeys, metadata.get k = metadata'.get k := by
    intro k hk
    rw [hget, hget', if_neg fun hmem => (hfiles k hmem).1 hk,
      if_neg fun hmem => (hfiles k hmem).1 hk]
  have hkeys : ∀ k, (metadata.get k).isNone = (metadata'.get k).isNone := by
    intro k
    rw [hget, hget']
    split <;> cases Dict.get (webhookEntries script config) k <;> rfl
  -- the names of the files were stored with the other contents
  have hnames : ∀ file ∈ engine.inputFiles, storable file = true := by
    intro file hfile
    have hstored := Option.isSome_iff_exists.mpr ⟨_, (Holds.submitted hsubmit').extra⟩
    have hsome : metadata'.get file ≠ none := by
      rw [hget', if_pos hfile]
      cases Dict.get (webhookEntries script config) file <;> simp
    obtain ⟨v, hv⟩ := Option.ne_none_iff_exists'.mp hsome
    exact (storedFields_isSome.mp hstored _ (List.mem_filter.mpr
      ⟨Dict.mem_of_get hv, decide_eq_true (hfiles file hfile).1⟩)).1
  have hextra : (storedFields (extraOf metadata)).isSome = true := by
    refine storedFields_isSome.mpr fun e he => ?_
    obtain ⟨hmem, hknown⟩ := List.mem_filter.mp he
    have hknown := of_decide_eq_true hknown
    have hne {k : String} (hk : k ∈ knownTypedKeys) : e.1 ≠ k := fun heq => hknown (heq ▸ hk)
    have hvalue := hget e.1
    rw [Dict.get_of_mem hnodup hmem, webhookEntries_none (hne (by decide)) (hne (by decide)),
      Option.none_or] at hvalue
    by_cases hfile : e.1 ∈ engine.inputFiles
    · obtain ⟨-, bytes, hbytes, hstorable⟩ := hfiles e.1 hfile
      rw [if_pos hfile, storedUnder, hbytes, Option.getD_some] at hvalue
      refine ⟨hnames e.1 hfile, ?_⟩
      rw [Option.some.inj hvalue, Json.stored, if_pos hstorable]
      rfl
    · have hfolder : ("local_folder" : String) ≠ e.1 := (hne (by decide)).symm
      rw [if_neg hfile, Dict.get_cons, if_neg hfolder] at hvalue
      cases hvalue
  obtain ⟨row₀, hrow₀⟩ := submitTask_ok_of hsubmit' hkeys htyped hextra
  refine ⟨row₀, ?_⟩
  unfold yasubmit at h ⊢
  simp only at h ⊢
  split at h
  · cases h
  · next hname =>
    rw [if_neg hname, hengine]
    show (buildMetadata script config cwd folder >>= fun metadata => _) = _
    rw [hbuild]
    exact hrow₀

end

namespace InputFiles

open Metadata

def script : Dict String String := [("ENGINE", "dummy"), ("LABEL", "water")]

def config : ClientConfig where
  engines := engines

/-- A folder with one input file. -/
def folder (bytes : List UInt8) (file : String) : Option ByteArray :=
  if file = "1.input" then some ⟨bytes.toArray⟩ else none

/-- The row of the task that is submitted from it. -/
def submitted (text : String) : JsonRow :=
  row (some "/data") (.object []) [("1.input", .string text)]

end InputFiles

open InputFiles in
theorem yasubmit_unix : yasubmit Metadata.driver script config "/data" (folder [97, 10]) 1
    "20240101_000000" = .ok (submitted "a\n") := by
  rfl

open InputFiles in
theorem yasubmit_dos : yasubmit Metadata.driver script config "/data" (folder [97, 13, 10]) 1
    "20240101_000000" = .ok (submitted "a\n") := by
  rfl

end Yascheduler
