import Yascheduler.Application.UnitOfWork
import Yascheduler.Codec.PosixPath

/-!
# Consuming a finished task

The outputs of a task are downloaded one by one, each over an SFTP channel of
its own, and the errors are sorted into transient and permanent ones. The
remote directory is removed when there were none. Then the task is finalised
– completed, or failed if an error is permanent – or left running for another
attempt if all errors are transient.

## What comes before what

The remote directory is removed before the task is finalised in the database. If
the removal fails the task is left for another attempt, which downloads the files
again. In the other order a failure would leave a directory behind that no task
refers to any more.

An error over a channel is sorted when it is an error of SFTP or of the system,
and breaks the downloads off otherwise. The channel itself is outside of this: an
error when it is opened or closed always breaks them off.
-/

namespace Yascheduler

open Async
open PosixPath (joinPath)

/-- An error with the path it is about. -/
abbrev PathError := String × Exc

/-- The two lists of errors of a download. Transient ones are worth another attempt,
permanent ones end the task. -/
structure DownloadErrors where
  transient : List PathError := []
  permanent : List PathError := []

namespace DownloadErrors

/-- Both lists are empty, so that the remote directory may be removed. -/
def isClean (errors : DownloadErrors) : Bool :=
  errors.transient.isEmpty && errors.permanent.isEmpty

/-- Record the error of a file, by the kind of the error. The order within each list
is that of the files. -/
def classify (errors : DownloadErrors) (file : String) (e : Exc) : DownloadErrors :=
  if e.isSftpRetry then { errors with transient := errors.transient ++ [(file, e)] }
  else { errors with permanent := errors.permanent ++ [(file, e)] }

end DownloadErrors

/-! ## Downloading

Each file has a channel of its own, so that an error of one does not spoil the
others. What is raised while the channel is opened or closed is not an error of
the file, and it ends the loop with the errors so far. -/

/-- One file of `download_outputs`: the errors so far, and what is raised. Only the
errors of `sftp.get` are classified; the list keeps a classified error even when
closing the channel raises after it. The source appends to lists that its handler
further out still reads, which is why the errors are returned in either case. -/
def downloadFile (s : SessionId) (t : TaskId) (localDir file : String)
    (errors : DownloadErrors) : Prog (DownloadErrors × Except Exc Unit) := do
  match ← Co.attempt (await (.sftpOpen s)) with
  | .error e => return (errors, .error e)
  | .ok () =>
    let (errors, raised) := match ← Co.attempt (await (.sftpGet s t file localDir)) with
      | .ok () => (errors, Except.ok ())
      | .error e =>
        if Exc.isOSOrSftp e then (errors.classify file e, Except.ok ())
        else (errors, Except.error e)
    match ← Co.attempt (await (.sftpClose s)) with
    | .ok () => return (errors, raised)
    | .error e => return (errors, .error e)

/-- The loop over the files; what is raised ends it. -/
def downloadFiles (s : SessionId) (t : TaskId) (localDir : String) :
    List String → DownloadErrors → Prog (DownloadErrors × Except Exc Unit)
  | [], errors => return (errors, .ok ())
  | file :: files, errors => do
    match ← downloadFile s t localDir file errors with
    | (errors, .ok ()) => downloadFiles s t localDir files errors
    | (errors, .error e) => return (errors, .error e)

/-- Remove the remote directory, over a channel of its own. -/
def removeRemote (s : SessionId) (t : TaskId) (remoteDir : String) : Prog Unit :=
  Co.asyncWith (await (.sftpOpen s)) (fun _ _ => await (.sftpClose s)) fun _ =>
    await (.sftpRmtree s t remoteDir)

/-- `OutputDownloader.download_outputs`. The two folders it returns are its
arguments; here only the errors are returned. What breaks the downloads off is one
more transient error, under the name of the directory. -/
def downloadOutputs (s : SessionId) (t : TaskId) (remoteDir localDir : String)
    (files : List String) : Prog DownloadErrors := do
  let (errors, ended) ← downloadFiles s t localDir files {}
  let ended ← match ended with
    | .ok () =>
      if errors.isClean then Co.attempt (removeRemote s t remoteDir) else pure (.ok ())
    | .error e => pure (.error e)
  match ended with
  | .ok () => return errors
  | .error e =>
    if Exc.isException e then
      return { errors with transient := errors.transient ++ [(remoteDir, e)] }
    else raise e

/-! ## Finalising

What a task is finalised as depends on the two lists of errors, and a permanent
error decides: the task has failed, and the transient ones are only mentioned.
While there are transient ones only, nothing is written. -/

/-- `_format_download_error`. All errors in one line, which is all that the row of
the task will say about them. -/
def formatDownloadError (errors : List PathError) : String :=
  "Download error: " ++
    ", ".intercalate (errors.map fun pe => pe.1 ++ ": " ++ pe.2.str)

/-- `x or y` on strings. -/
def orElse (x y : String) : String := if x = "" then y else x

/-- `_decide_finalisation`: nothing while all errors are transient. The task then
stays RUNNING, and everything is downloaded again in a later cycle. -/
def decideFinalisation (task : RunningTask) (localFolder remoteFolder : String)
    (errors : DownloadErrors) (storeFolder : String) : Option DoneTask :=
  if !errors.transient.isEmpty && errors.permanent.isEmpty then none
  else
    let combined := errors.permanent ++ errors.transient
    let finalRemoteFolder := orElse remoteFolder task.state.remoteFolder
    if combined.isEmpty then
      some (task.complete storeFolder finalRemoteFolder)
    else
      some (task.fail (formatDownloadError combined) localFolder finalRemoteFolder)

/-- `_finalize_task`. Whether the task is finished. -/
def finalizeTask (cfg : Settings) (task : RunningTask)
    (localFolder remoteFolder : String) (errors : DownloadErrors)
    (storeFolder : String) : Prog Bool :=
  match decideFinalisation task localFolder remoteFolder errors storeFolder with
  | none => return false
  | some finalised => do
    Uow.within fun c => do
      Tasks.save c finalised.anyDone
      Uow.commit cfg c
    ask (.trackerDiscard finalised.taskId)
    return true

/-- `_fail_missing_engine`. Nothing is downloaded, because without the engine it is
not known what. -/
def failMissingEngine (cfg : Settings) (task : RunningTask) : Prog Bool := do
  let finalised := task.fail ("engine '" ++ task.engine ++ "' no longer in config")
    (task.localFolder.getD "") task.state.remoteFolder
  Uow.within fun c => do
    Tasks.save c finalised.anyDone
    Uow.commit cfg c
  ask (.trackerDiscard finalised.taskId)
  return true

/-- The folder the outputs are stored in, by `_prepare_store_folder`. -/
def storeFolder (cfg : Settings) (task : RunningTask) : PosixPath :=
  match task.localFolder with
  | some folder => if folder = "" then default else .ofString folder
  | none => default
where
  /-- without a folder of its own, or with an empty one -/
  default : PosixPath :=
    let name := String.ofList (PosixPath.ofString task.state.remoteFolder).name
    (PosixPath.ofString cfg.localTasksDir).join (.ofString name)

/-- The folder as it is passed on, and written into the row of the task. It is the
text of a path, so it can differ from the text that was submitted. -/
def storeFolderOf (cfg : Settings) (task : RunningTask) : String :=
  (storeFolder cfg task).toString

/-- The remote paths of the output files. An absolute one stands for itself. -/
def outputFilesOf (task : RunningTask) (engine : Engine) : List String :=
  engine.outputFiles.map fun x => joinPath task.state.remoteFolder x

/-- **The folder of a task is settled**: with the folder that was written into its
row, it would be the same. -/
theorem storeFolderOf_eq_self (cfg : Settings) (task : RunningTask) :
    storeFolderOf cfg { task with localFolder := some (storeFolderOf cfg task) } =
      storeFolderOf cfg task := by
  have hne : storeFolderOf cfg task ≠ "" := PosixPath.toString_ne_empty _
  show PosixPath.toString (if storeFolderOf cfg task = "" then _ else _) = _
  rw [if_neg hne]
  exact congrArg PosixPath.toString (PosixPath.ofString_toString _)

/-- `consume_task`, for a task whose engine is configured. -/
def consumeRunning (cfg : Settings) (s : SessionId) (task : RunningTask)
    (engine : Engine) : Prog Bool := do
  let storeFolder := storeFolderOf cfg task
  await (.mkdir storeFolder)
  let remoteFolder := task.state.remoteFolder
  let errors ← downloadOutputs s task.taskId remoteFolder storeFolder
    (outputFilesOf task engine)
  finalizeTask cfg task storeFolder remoteFolder errors storeFolder

/-- `consume_task`. A task that is not RUNNING any more counts as finished. -/
def consumeTask (cfg : Settings) (t : TaskId) (s : SessionId) : Prog Bool := do
  match ← Uow.within fun c => Tasks.getRunning c t with
  | none =>
    ask (.trackerDiscard t)
    return true
  | some task =>
    match cfg.engines.get task.engine with
    | none => failMissingEngine cfg task
    | some engine => consumeRunning cfg s task engine

end Yascheduler
