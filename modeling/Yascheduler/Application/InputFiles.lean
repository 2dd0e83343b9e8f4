import Yascheduler.Application.StartTask
import Yascheduler.Application.SubmitTask
import Yascheduler.Codec.Base64
import Yascheduler.Codec.Text

/-!
# Input files, from the client's folder to the machine

`yasubmit` reads the input files of the engine into the metadata: as text, or
in base64 when they are no UTF-8. The metadata becomes the column `extra` of
the task. At the deployment each file is looked up there and written to the
task's directory on the machine.

The two ends do not agree on what is in base64: the client goes by the content,
the daemon by the name of the file.

A text in base64 is itself a text, and nothing in the metadata says which of the
two it is. As long as both ends decided by the same rule this would not be
needed. They do not, and the files for which it makes a difference are exactly
the ones that do not arrive.
-/

namespace Yascheduler

open Store
open PosixPath (joinPath)

/-! ## Reading

Whether a file is a text is found out by decoding it. A text is read with
universal newlines, as is every text file that Python reads without being told
otherwise, and what was replaced is not recorded. -/

/-- Universal newlines: what a text file is read as. -/
def universalNewlines : List Char → List Char
  | [] => []
  | '\r' :: '\n' :: text => '\n' :: universalNewlines text
  | '\r' :: text => '\n' :: universalNewlines text
  | c :: text => c :: universalNewlines text

/-- `path.read_text(encoding="utf-8")`. -/
def readText (bytes : ByteArray) : Option String :=
  (String.fromUTF8? bytes).map fun s => String.ofList (universalNewlines s.toList)

/-- What is stored of a file: its text, or base64 if it has none. -/
def storedText (bytes : ByteArray) : String :=
  match readText bytes with
  | some text => text
  | none => String.ofList (Codec.encode bytes.data.toList)

/-- `_read_input_files`, into the entries read so far. -/
def readInputFiles (folder : String → Option ByteArray) :
    List String → Metadata → Except Exc Metadata
  | [], metadata => .ok metadata
  | file :: files, metadata =>
    match folder file with
    | none => .error (.fileNotFound file)
    | some bytes =>
      readInputFiles folder files (metadata.set file (.string (storedText bytes)))

/-! ## Submitting

The input files are put into the mapping under their own names. It also has
keys of other kinds, and nothing keeps a file from being named like one of
them. -/

/-- The client's configuration, as far as a submission reads it. -/
structure ClientConfig where
  engines : EngineRepository
  webhookUrl : Option String := none

/-- `_build_metadata`. -/
def buildMetadata (script : Dict String String) (config : ClientConfig)
    (cwd : String) (folder : String → Option ByteArray) : Except Exc Metadata := do
  let metadata : Metadata := [("local_folder", .string cwd)]
  let metadata ←
    match config.engines.get ((script.get "ENGINE").getD "") with
    | none => pure metadata
    | some engine => do
      let files ← readInputFiles folder engine.inputFiles []
      pure (metadata.update files)
  match script.get "PARENT", config.webhookUrl with
  | some parent, some url =>
    if url = "" then
      return metadata
    return (metadata.set "webhook_url" (.string url)).set "webhook_custom_params"
      (.object [("parent", .string parent)])
  | _, _ => return metadata

/-- **`yasubmit`**: the row of the submitted task. -/
def yasubmit (d : JsonDriver) (script : Dict String String) (config : ClientConfig)
    (cwd : String) (folder : String → Option ByteArray) (t : TaskId) (createdAt : String) :
    Except Exc JsonRow :=
  let label := (script.get "LABEL").getD "AiiDA job"
  let engineName := (script.get "ENGINE").getD ""
  if engineName = "" then
    .error (.other "Script has not defined an engine")
  else
    match config.engines.get engineName with
    | none => .error (.other ("Engine " ++ engineName ++ " is not supported"))
    | some engine => do
      let metadata ← buildMetadata script config cwd folder
      submitTask d label metadata engine.name config.engines t createdAt

/-! ## Writing

The daemon looks a file up by its name and writes it as it is stored, with one
exception by name. The decoder that is used there is made for texts that were
damaged on the way, so it refuses little. -/

/-- Padding to a multiple of four. -/
def padded (text : List Char) : List Char :=
  if text.length % 4 = 0 then text
  else text ++ List.replicate (4 - text.length % 4) '='

/-- `_safe_b64decode`. -/
def safeB64decode (data : String) : Except Exc (List UInt8) :=
  let text := padded ((Text.strip data.toList).filter fun c => c ≠ '\n' ∧ c ≠ ' ')
  if text.any fun c => 128 ≤ c.toNat then
    .error (.other "string argument should contain only ASCII characters")
  else
    match Codec.decode text with
    | none => .error (.other "binascii.Error")
    | some bytes => .ok bytes

/-- What is written for a file. -/
def delivered (file data : String) : Except Exc ByteArray :=
  if file = "fort.9" then
    (safeB64decode data).map fun bytes => ⟨bytes.toArray⟩
  else
    .ok data.toUTF8

/-- `str(value)`. -/
def Json.str (repr : Json → String) : Json → String
  | .string s => s
  | v => repr v

/-- The loop of `_upload_task_data`: the paths written, with their bytes. The
server answers whether a path can be opened for writing. -/
def uploadInputs (repr : Json → String) (server : String → Except Exc Unit)
    (task : JsonTask) (remoteDir : String) :
    List String → Except Exc (List (String × ByteArray))
  | [] => .ok []
  | file :: files =>
    match task.extra.get file with
    | none => .error (.key file)
    | some data => do
      let bytes ← delivered file (data.str repr)
      server (joinPath remoteDir file)
      let written ← uploadInputs repr server task remoteDir files
      return (joinPath remoteDir file, bytes) :: written

/-! ## What the metadata holds -/

section

variable {folder : String → Option ByteArray}

/-- What is stored under the name of a file. -/
def storedUnder (folder : String → Option ByteArray) (file : String) : Json :=
  .string (storedText ((folder file).getD ByteArray.empty))

theorem readInputFiles_spec {files : List String} {metadata metadata' : Metadata}
    (h : readInputFiles folder files metadata = .ok metadata')
    (hstored : ∀ e ∈ metadata, e.2 = storedUnder folder e.1) :
    (∀ e ∈ metadata', e.2 = storedUnder folder e.1) ∧
      (∀ file ∈ files, (folder file).isSome = true) ∧
      ∀ k, k ∈ metadata'.map Prod.fst ↔ k ∈ files ∨ k ∈ metadata.map Prod.fst := by
  induction files generalizing metadata with
  | nil =>
    obtain rfl : metadata = metadata' := Except.ok.inj h
    exact ⟨hstored, by simp, by simp⟩
  | cons file files ih =>
    unfold readInputFiles at h
    split at h
    · cases h
    · rename_i bytes hbytes
      have hset : ∀ e ∈ metadata.set file (.string (storedText bytes)),
          e.2 = storedUnder folder e.1 := by
        intro e he
        rcases Dict.mem_set he with rfl | he
        · show Json.string (storedText bytes) = storedUnder folder file
          unfold storedUnder
          rw [hbytes, Option.getD_some]
        · exact hstored e he
      obtain ⟨hall, hsome, hkeys⟩ := ih h hset
      refine ⟨hall, ?_, fun k => ?_⟩
      · rw [List.forall_mem_cons]
        exact ⟨by rw [hbytes]; rfl, hsome⟩
      · rw [hkeys, Dict.mem_keys_set, List.mem_cons, or_left_comm, or_assoc]

end

end Yascheduler
