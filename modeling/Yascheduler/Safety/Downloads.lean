import Yascheduler.Application.Answers
import Yascheduler.Application.Footprints

/-!
# When a task is finalised, and its directory removed

An attempt to consume a task downloads the output files one by one and then
completes the task, fails it, or leaves it for another attempt. Whatever the
machine and the database answer:

* the directory on the machine is removed only after every output file has been
  downloaded, each once and in order;
* the task is completed only after that, and failed only after an error that
  another attempt cannot repair; the message lists the errors of all files;
* an attempt that is to be repeated changes nothing in the database.

## Why the message is computed

What a user is told about a failed task is the text in its row, and it is put
together from errors of several files that were collected on the way. To say of
such a text that it is *right* one has to say what it is. So it is computed here
from the answers alone: the errors of the files that were asked for, sorted, and
the error that broke the downloads off, if there was one (`brokenOff`). Only what
is on the last channel can have done that, because nothing is opened after it.

The folders in the row are compared as `pathlib` writes them. A task may have
been submitted with the same folder spelled in another way.
-/

namespace Yascheduler

open Store Async Footprint

/-! ## Downloads in a trace

A file is asked for with a name, a folder and the machine, and what is answered
is kept with it. The list of these is all that the result says about files:
that all were asked for, each once, in order and without an error, is that the
list is a certain one. -/

/-- A file that was asked for, and the answer. With the machine and the folder, since
a file of the wrong machine is no output of the task. -/
structure Fetch where
  session : SessionId
  task : TaskId
  file : String
  folder : String
  answer : Except Exc Unit

namespace Fetch

/-- The error if another attempt may succeed. Only errors of the file system and of
SFTP are sorted; any other breaks the downloads off. -/
def transient? (f : Fetch) : Option PathError :=
  match f.answer with
  | .ok () => none
  | .error e => if e.isOSOrSftp && e.isSftpRetry then some (f.file, e) else none

/-- The error if no other attempt will. -/
def permanent? (f : Fetch) : Option PathError :=
  match f.answer with
  | .ok () => none
  | .error e => if e.isOSOrSftp && !e.isSftpRetry then some (f.file, e) else none

/-- The answer is no error, or one that is sorted. -/
def Sorted (f : Fetch) : Prop := ∀ e, f.answer = .error e → e.isOSOrSftp = true

/-- What was asked for. -/
def request (f : Fetch) : SessionId × TaskId × String × String :=
  (f.session, f.task, f.file, f.folder)

/-- A file that was downloaded. -/
def retrieved (s : SessionId) (t : TaskId) (folder file : String) : Fetch where
  session := s
  task := t
  file := file
  folder := folder
  answer := .ok ()

/-- A download that was sorted and is in neither list has succeeded. -/
theorem answer_of_sorted {f : Fetch} (h : f.Sorted) (ht : f.transient? = none)
    (hp : f.permanent? = none) : f.answer = .ok () := by
  unfold transient? at ht
  unfold permanent? at hp
  cases ha : f.answer with
  | ok u => rfl
  | error e =>
    rw [ha] at ht hp
    cases hr : e.isSftpRetry <;> simp [h e ha, hr] at ht hp

/-- **All files were downloaded**, if all were asked for and none failed. This is
how an empty list of errors is turned into files that are there. -/
theorem eq_map_retrieved {s : SessionId} {t : TaskId} {folder : String} {files : List String}
    {fs : List Fetch} (hall : fs.map request = files.map fun file => (s, t, file, folder))
    (hok : ∀ f ∈ fs, f.answer = .ok ()) : fs = files.map (retrieved s t folder) := by
  have hself : fs.map (fun f => retrieved f.session f.task f.folder f.file) = fs := by
    refine (List.map_congr_left fun f hf => ?_).trans (List.map_id fs)
    unfold retrieved
    rw [← hok f hf]
    rfl
  calc fs = (fs.map request).map fun q => retrieved q.1 q.2.1 q.2.2.2 q.2.2.1 := by
        rw [List.map_map]
        exact hself.symm
    _ = files.map (retrieved s t folder) := by
        rw [hall, List.map_map]
        rfl

end Fetch

/-- The download that an answer is about. -/
def fetch? : Answer sig → Option Fetch
  | .op (.sftpGet s t file folder) r => some ⟨s, t, file, folder, r⟩
  | _ => none

/-- **The downloads of a trace**, in order. Everything that is claimed about files
is claimed about this list. -/
def fetches (tr : Trace sig) : List Fetch := tr.filterMap fetch?

@[simp] theorem fetches_nil : fetches [] = [] := rfl

@[simp] theorem fetches_append (tr₁ tr₂ : Trace sig) :
    fetches (tr₁ ++ tr₂) = fetches tr₁ ++ fetches tr₂ := List.filterMap_append

/-! ## What breaks a download off

An error that is neither one of the file system nor one of SFTP is not
collected but raised, and the loop ends. So it is the error of the last step,
and it can be found at the end of the list of steps, without looking at the
program. -/

/-- What happens on the channels over which files are downloaded. Each channel is
opened, used once and closed. -/
inductive ChannelStep where
  | opened (answer : Except Exc Unit)
  | got (answer : Except Exc Unit)
  | closed (answer : Except Exc Unit)

/-- The step that an answer is. -/
def channelStep? : Answer sig → Option ChannelStep
  | .op (.sftpOpen _) r => some (.opened r)
  | .op (.sftpGet _ _ _ _) r => some (.got r)
  | .op (.sftpClose _) r => some (.closed r)
  | _ => none

/-- **The steps of a trace**, in order. -/
def channelSteps (tr : Trace sig) : List ChannelStep := tr.filterMap channelStep?

@[simp] theorem channelSteps_append (tr₁ tr₂ : Trace sig) :
    channelSteps (tr₁ ++ tr₂) = channelSteps tr₁ ++ channelSteps tr₂ := List.filterMap_append

/-- An answer that is no step is no download. -/
theorem fetch?_of_channelStep? {a : Answer sig} (h : channelStep? a = none) : fetch? a = none := by
  unfold fetch?
  split
  · cases h
  · rfl

/-- **The error that breaks the downloads off**, if one does. It is raised on the
last channel: when it is opened, when it is closed, or over it and not sorted;
nothing follows it. It is read from the trace, so that the text of a failed task can
be pinned by what was answered. -/
def brokenOff (steps : List ChannelStep) : Option Exc :=
  match steps.reverse with
  | .opened (.error e) :: _ => some e
  | .closed (.error e) :: _ => some e
  | .closed (.ok ()) :: .got (.error e) :: _ => if e.isOSOrSftp then none else some e
  | _ => none

/-- The errors, with those of these downloads. -/
def DownloadErrors.add (errors : DownloadErrors) (fs : List Fetch) : DownloadErrors where
  transient := errors.transient ++ fs.filterMap Fetch.transient?
  permanent := errors.permanent ++ fs.filterMap Fetch.permanent?

@[simp] theorem DownloadErrors.add_nil (errors : DownloadErrors) : errors.add [] = errors := by
  simp [add]

/-- Errors can be added in two lots. -/
theorem DownloadErrors.add_append (errors : DownloadErrors) (fs gs : List Fetch) :
    errors.add (fs ++ gs) = (errors.add fs).add gs := by
  simp [add]

/-- A database row of a task is written. -/
def Writes (a : Answer sig) : Prop :=
  ∃ c task expected r, a = .op (.sql c (.taskUpdate task expected)) r

/-- The directory of a task is removed. -/
def Removes (a : Answer sig) : Prop :=
  ∃ s t folder r, a = .op (.sftpRmtree s t folder) r

section

variable {α : Type} {x : Prog α} {own : Set Nat} {K : Set Effect} {tr : Trace sig}
  {r : Except Exc α}

/-- A program that only downloads writes no row. -/
theorem not_writes (hx : (scope K).Inside own x) (hK : ∀ task expected, saveEffect task expected ∉ K)
    (hends : Finishes x tr r) {a : Answer sig} (ha : a ∈ tr) : ¬ Writes a := by
  rintro ⟨c, task, expected, r, rfl⟩
  exact hK task expected (hx.admits _ _ hends _ ha _ rfl)

end

/-- To save a row is not to fetch a file. -/
theorem saveEffect_ne_fetch (task : AnyTask) (expected : Option TaskStatus) :
    saveEffect task expected ∉ ({.fetch} : Set Effect) := by
  unfold saveEffect
  split
  · simp
  · split <;> simp
  · simp

/-! ## Downloading

The loop carries its errors with it, and each file adds to them. The lemma
about one file says what it adds for each answer, and the one about the loop
puts these together; after that the program is not looked at again.

Removing the directory comes after the loop, and only if there was no error.
With a loop that has no error every file is there, which is the reason why it
may be removed. -/

variable {s : SessionId} {t : TaskId} {folder file : String} {errors : DownloadErrors}

/-- A file that was downloaded adds no error. -/
theorem add_retrieved : errors.add [Fetch.retrieved s t folder file] = errors := by
  simp [DownloadErrors.add, Fetch.retrieved, List.filterMap_cons, Fetch.transient?,
    Fetch.permanent?]

/-- Nor does an error that is not sorted. -/
theorem add_unsorted {e : Exc} (h : ¬ e.isOSOrSftp = true) :
    errors.add [⟨s, t, file, folder, .error e⟩] = errors := by
  simp [DownloadErrors.add, Fetch.transient?, Fetch.permanent?, h]

/-- Sorting the error of a file. -/
theorem classify_eq {e : Exc} (h : e.isOSOrSftp = true) :
    errors.classify file e = errors.add [⟨s, t, file, folder, .error e⟩] := by
  unfold DownloadErrors.classify DownloadErrors.add
  cases hr : e.isSftpRetry <;> simp [Fetch.transient?, Fetch.permanent?, h, hr]

/-- How a file ends, given the answers to its download and to the closing of its
channel. -/
def afterFile (got closed : Except Exc Unit) : Except Exc Unit :=
  Except.bind closed fun _ =>
    match got with
    | .ok () => .ok ()
    | .error e => if e.isOSOrSftp then .ok () else .error e

/-- A channel that cannot be opened breaks the downloads off. -/
theorem brokenOff_opened (e : Exc) (earlier : List ChannelStep) :
    brokenOff (earlier ++ [.opened (.error e)]) = some e := by
  unfold brokenOff
  rw [List.reverse_append]
  rfl

/-- Otherwise the file and the closing of its channel decide. -/
theorem brokenOff_closed (u : Unit) (got closed : Except Exc Unit) (earlier : List ChannelStep) :
    brokenOff (earlier ++ [.opened (.ok u), .got got, .closed closed]) =
      Co.errorOf (S := sig) (afterFile got closed) := by
  unfold brokenOff
  rw [List.reverse_append]
  cases closed with
  | error e => rfl
  | ok v =>
    cases got with
    | ok u => rfl
    | error e =>
      show (if e.isOSOrSftp then none else some e) = _
      unfold afterFile
      by_cases he : e.isOSOrSftp = true <;> simp [he, Except.bind, Co.errorOf]

/-- Closing the channel of a file. -/
theorem finishes_closeFile {ended : Except Exc Unit} {tr : Trace sig}
    {r : Except Exc (DownloadErrors × Except Exc Unit)}
    (h : Finishes (do
      match ← Co.attempt (await (.sftpClose s)) with
      | .ok () => return (errors, ended)
      | .error e => return (errors, .error e)) tr r) :
    ∃ closed, tr = [.op (.sftpClose s) closed] ∧
      r = .ok (errors, Except.bind closed fun _ => ended) := by
  obtain ⟨closed, tr₁, tr₂, rfl, hclose, hrest⟩ := finishes_attempt_bind.1 h
  obtain rfl := finishes_op.1 hclose
  cases closed with
  | error e =>
    obtain ⟨rfl, rfl⟩ := hrest
    exact ⟨_, rfl, rfl⟩
  | ok u =>
    obtain ⟨rfl, rfl⟩ := hrest
    exact ⟨_, rfl, rfl⟩

/-- One file: the channel cannot be opened, or the file is asked for once. -/
theorem finishes_downloadFile {tr : Trace sig} {r : Except Exc (DownloadErrors × Except Exc Unit)}
    (h : Finishes (downloadFile s t folder file errors) tr r) :
    (∀ a ∈ tr, ¬ Removes a) ∧ ∃ errors' ended, r = .ok (errors', ended) ∧
      (∀ earlier, brokenOff (earlier ++ channelSteps tr) = Co.errorOf (S := sig) ended) ∧
      (fetches tr = [] ∧ errors' = errors ∧ (∃ e, ended = .error e) ∨
        ∃ got, fetches tr = [⟨s, t, file, folder, got⟩] ∧
          errors' = errors.add [⟨s, t, file, folder, got⟩] ∧
          (ended = .ok () → Fetch.Sorted ⟨s, t, file, folder, got⟩)) := by
  obtain ⟨opened, tr₁, tr₂, rfl, hopen, hrest⟩ := finishes_attempt_bind.1 h
  obtain rfl := finishes_op.1 hopen
  cases opened with
  | error e =>
    obtain ⟨rfl, rfl⟩ := hrest
    exact ⟨by simp [Removes], _, _, rfl, brokenOff_opened e, .inl ⟨rfl, rfl, e, rfl⟩⟩
  | ok u =>
    obtain ⟨got, tr₃, tr₄, rfl, hget, hclose⟩ := finishes_attempt_bind.1 hrest
    obtain rfl := finishes_op.1 hget
    have hend : ∃ (closed ended : Except Exc Unit), tr₄ = [.op (.sftpClose s) closed] ∧
        r = .ok (errors.add [⟨s, t, file, folder, got⟩], ended) ∧
        ended = afterFile got closed ∧
        (ended = .ok () → Fetch.Sorted ⟨s, t, file, folder, got⟩) := by
      cases got with
      | ok u =>
        obtain ⟨closed, rfl, rfl⟩ := finishes_closeFile hclose
        rw [show errors.add [⟨s, t, file, folder, .ok u⟩] = errors from add_retrieved]
        exact ⟨closed, _, rfl, rfl, rfl, by rintro _ _ ⟨⟩⟩
      | error e =>
        by_cases he : e.isOSOrSftp = true
        · dsimp only at hclose
          rw [if_pos he] at hclose
          obtain ⟨closed, rfl, rfl⟩ := finishes_closeFile hclose
          rw [classify_eq he]
          exact ⟨closed, _, rfl, rfl, by rw [afterFile, if_pos he],
            fun _ e' he' => Except.error.inj he' ▸ he⟩
        · dsimp only at hclose
          rw [if_neg he] at hclose
          obtain ⟨closed, rfl, rfl⟩ := finishes_closeFile hclose
          rw [add_unsorted he]
          refine ⟨closed, _, rfl, rfl, by rw [afterFile, if_neg he], fun hended => ?_⟩
          cases closed <;> cases hended
    obtain ⟨closed, ended, rfl, rfl, rfl, hsorted⟩ := hend
    exact ⟨by simp [Removes], _, _, rfl, brokenOff_closed u got closed,
      .inr ⟨_, rfl, rfl, hsorted⟩⟩

/-- **What the loop over the files has done**: it has asked for the files in
order, and sorted the errors. -/
structure Retrieval (s : SessionId) (t : TaskId) (folder : String) (files : List String)
    (errors errors' : DownloadErrors) (fs : List Fetch) (ended : Except Exc Unit) : Prop where
  asked : fs.map Fetch.request <+: files.map fun file => (s, t, file, folder)
  errors : errors' = errors.add fs
  all : ended = .ok () → fs.map Fetch.request = files.map fun file => (s, t, file, folder)
  sorted : ended = .ok () → ∀ f ∈ fs, f.Sorted

/-- The loop asks for the files in order, until one breaks it off. By induction on
the files. -/
theorem finishes_downloadFiles {files : List String} {tr : Trace sig}
    {r : Except Exc (DownloadErrors × Except Exc Unit)}
    (h : Finishes (downloadFiles s t folder files errors) tr r) :
    (∀ a ∈ tr, ¬ Removes a) ∧ ∃ errors' ended, r = .ok (errors', ended) ∧
      (∀ earlier, brokenOff earlier = none →
        brokenOff (earlier ++ channelSteps tr) = Co.errorOf (S := sig) ended) ∧
      Retrieval s t folder files errors errors' (fetches tr) ended := by
  induction files generalizing errors tr with
  | nil =>
    obtain ⟨rfl, rfl⟩ := h
    refine ⟨fun _ ha => absurd ha List.not_mem_nil, errors, .ok (), rfl, fun earlier hnone => ?_,
      List.prefix_rfl, errors.add_nil.symm, fun _ => rfl,
      fun _ _ hf => absurd hf List.not_mem_nil⟩
    exact (congrArg brokenOff (List.append_nil earlier)).trans hnone
  | cons file files ih =>
    rcases finishes_bind.1 h with ⟨e, rfl, hfile⟩ | ⟨a, tr₁, tr₂, rfl, hfile, hrest⟩
    · obtain ⟨-, _, _, hr, -⟩ := finishes_downloadFile hfile
      cases hr
    · obtain ⟨hremoves, errors₁, ended, hr, hbroken, hcases⟩ := finishes_downloadFile hfile
      cases hr
      cases ended with
      | error e =>
        obtain ⟨rfl, rfl⟩ := hrest
        rw [List.append_nil]
        refine ⟨hremoves, errors₁, .error e, rfl, fun earlier _ => hbroken earlier, ?_, ?_,
          by rintro ⟨⟩, by rintro ⟨⟩⟩
        · rcases hcases with ⟨hnone, -⟩ | ⟨got, hone, -⟩
          · rw [hnone]
            exact List.nil_prefix
          · rw [hone]
            exact List.cons_prefix_cons.mpr ⟨rfl, List.nil_prefix⟩
        · rcases hcases with ⟨hnone, rfl, -⟩ | ⟨got, hone, rfl, -⟩
          · rw [hnone, DownloadErrors.add_nil]
          · rw [hone]
      | ok u =>
        obtain ⟨hremoves', errors', ended, rfl, hlater, hgot⟩ := ih hrest
        rcases hcases with ⟨-, -, e, he⟩ | ⟨got, hone, rfl, hsorted⟩
        · cases he
        · refine ⟨fun a ha => (List.mem_append.mp ha).elim (hremoves a) (hremoves' a), errors',
            ended, rfl, fun earlier _ => ?_, ?_⟩
          · rw [channelSteps_append, ← List.append_assoc]
            exact hlater _ (hbroken earlier)
          rw [fetches_append, hone]
          refine ⟨List.cons_prefix_cons.mpr ⟨rfl, hgot.asked⟩, ?_, fun hended => ?_,
            fun hended => ?_⟩
          · rw [DownloadErrors.add_append, hgot.errors]
          · exact congrArg (List.cons _) (hgot.all hended)
          · exact List.forall_mem_cons.mpr ⟨hsorted rfl, hgot.sorted hended⟩

/-- What is left when no error was recorded: every file was downloaded, once and in
order. -/
theorem Retrieval.eq_map {files : List String} {errors' : DownloadErrors} {fs : List Fetch}
    (h : Retrieval s t folder files {} errors' fs (.ok ())) (hclean : errors'.isClean = true) :
    fs = files.map (Fetch.retrieved s t folder) := by
  obtain ⟨htransient, hpermanent⟩ := (Bool.and_eq_true _ _).mp hclean
  rw [h.errors] at htransient hpermanent
  have ht := List.filterMap_eq_nil_iff.mp (List.isEmpty_iff.mp htransient)
  have hp := List.filterMap_eq_nil_iff.mp (List.isEmpty_iff.mp hpermanent)
  exact Fetch.eq_map_retrieved (h.all rfl) fun f hf =>
    Fetch.answer_of_sorted (h.sorted rfl f hf) (ht f hf) (hp f hf)

/-- Only the directory of the task is removed, and nothing is downloaded
meanwhile. -/
theorem sees_removeRemote (remoteDir : String) : Sees (fun a => fetch? a = none ∧
    (Removes a → ∃ r, a = .op (.sftpRmtree s t remoteDir) r)) (removeRemote s t remoteDir) := by
  refine sees_asyncWith ?_ (fun _ => ?_) fun _ _ => ?_
  · exact sees_op fun _ => ⟨rfl, by rintro ⟨_, _, _, _, ⟨⟩⟩⟩
  · exact sees_op fun r => ⟨rfl, fun _ => ⟨r, rfl⟩⟩
  · exact sees_op fun _ => ⟨rfl, by rintro ⟨_, _, _, _, ⟨⟩⟩⟩

/-- The directory was removed. -/
theorem removed_of_finishes {remoteDir : String} {tr : Trace sig}
    (h : Finishes (removeRemote s t remoteDir) tr (.ok ())) :
    .op (.sftpRmtree s t remoteDir) (.ok ()) ∈ tr := by
  obtain ⟨_, tr₁, tr₂, tr₃, rfl, -, hbody, -⟩ := h.asyncWith_ok
  obtain rfl := finishes_op.1 hbody
  simp

/-- **What a download has done**: it has removed the directory only after all files
were there, and its errors are those of the files and the one that broke it off. A
directory that is removed too early cannot be had again. -/
structure Downloaded (s : SessionId) (t : TaskId) (remoteDir folder : String)
    (files : List String) (tr : Trace sig) (r : Except Exc DownloadErrors) : Prop where
  removes : ∀ before a after, tr = before ++ a :: after → Removes a →
    fetches before = files.map (Fetch.retrieved s t folder) ∧
      ∃ r, a = .op (.sftpRmtree s t remoteDir) r
  permanent : ∀ errors, r = .ok errors →
    errors.permanent = (fetches tr).filterMap Fetch.permanent?
  transient : ∀ errors, r = .ok errors → errors.permanent ≠ [] → errors.transient =
    (fetches tr).filterMap Fetch.transient? ++
      (brokenOff (channelSteps tr)).toList.map (remoteDir, ·)
  clean : ∀ errors, r = .ok errors → errors.isClean = true →
    fetches tr = files.map (Fetch.retrieved s t folder) ∧
      .op (.sftpRmtree s t remoteDir) (.ok ()) ∈ tr

/-- What is raised is one more error, or is raised again. -/
theorem finishes_trouble {remoteDir : String} {e : Exc} {tr : Trace sig}
    {r : Except Exc DownloadErrors}
    (h : Finishes (if Exc.isException e then
        pure { errors with transient := errors.transient ++ [(remoteDir, e)] }
      else raise e : Prog DownloadErrors) tr r) :
    tr = [] ∧ ∀ errors', r = .ok errors' →
      errors' = { errors with transient := errors.transient ++ [(remoteDir, e)] } := by
  split at h
  · obtain ⟨rfl, rfl⟩ := h
    exact ⟨rfl, fun _ heq => (Except.ok.inj heq).symm⟩
  · obtain ⟨rfl, rfl⟩ := h
    exact ⟨rfl, by rintro _ ⟨⟩⟩

/-- With one more error nothing is clean. -/
theorem not_clean_trouble {p : PathError} :
    ({ errors with transient := errors.transient ++ [p] } : DownloadErrors).isClean ≠ true := by
  simp [DownloadErrors.isClean]

/-- The end of a download: `tr₂` is what happens after the loop. -/
theorem Retrieval.downloaded {remoteDir : String} {files : List String} {tr₁ tr₂ : Trace sig}
    {ended : Except Exc Unit} {r : Except Exc DownloadErrors}
    (hgot : Retrieval s t folder files {} errors (fetches tr₁) ended)
    (hbefore : ∀ a ∈ tr₁, ¬ Removes a)
    (hafter : ∀ a ∈ tr₂, fetch? a = none ∧
      (Removes a → ∃ r, a = .op (.sftpRmtree s t remoteDir) r))
    (hall : tr₂ ≠ [] → fetches tr₁ = files.map (Fetch.retrieved s t folder))
    (hbroken : errors.permanent ≠ [] → channelSteps tr₂ = [] ∧
      brokenOff (channelSteps tr₁) = Co.errorOf (S := sig) ended)
    (hr : ∀ errors', r = .ok errors' → errors' = errors ∧ (errors.isClean = true →
        fetches tr₁ = files.map (Fetch.retrieved s t folder) ∧
          .op (.sftpRmtree s t remoteDir) (.ok ()) ∈ tr₂) ∧
        (errors.permanent ≠ [] → ended = .ok ()) ∨
      ∃ e, errors' = { errors with transient := errors.transient ++ [(remoteDir, e)] } ∧
        (errors.permanent ≠ [] → ended = .error e)) :
    Downloaded s t remoteDir folder files (tr₁ ++ tr₂) r := by
  have hnone : fetches tr₂ = [] := List.filterMap_eq_nil_iff.mpr fun a ha => (hafter a ha).1
  have herrors := hgot.errors
  constructor
  · intro before a after htr ha
    obtain ⟨mid, rfl, rfl⟩ := split_later htr fun hmem => hbefore a hmem ha
    rw [fetches_append, List.append_eq_nil_iff] at hnone
    rw [fetches_append, hnone.1, List.append_nil]
    exact ⟨hall (by simp), (hafter a (List.mem_append_right _ List.mem_cons_self)).2 ha⟩
  · intro errors' he
    rw [fetches_append, hnone, List.append_nil]
    rcases hr errors' he with ⟨rfl, -⟩ | ⟨e, rfl, -⟩
    · rw [herrors]
      rfl
    · rw [herrors]
      rfl
  · intro errors' he hpermanent
    rw [fetches_append, hnone, List.append_nil, channelSteps_append]
    rcases hr errors' he with ⟨rfl, -, hended⟩ | ⟨e, rfl, hended⟩
    · obtain ⟨hsteps, hbroken⟩ := hbroken hpermanent
      rw [hsteps, List.append_nil, hbroken, hended hpermanent, herrors]
      exact (List.append_nil _).symm
    · obtain ⟨hsteps, hbroken⟩ := hbroken hpermanent
      rw [hsteps, List.append_nil, hbroken, hended hpermanent, herrors]
      rfl
  · intro errors' he hclean
    rw [fetches_append, hnone, List.append_nil]
    rcases hr errors' he with ⟨rfl, hdone, -⟩ | ⟨e, rfl, -⟩
    · exact ⟨(hdone hclean).1, List.mem_append_right _ (hdone hclean).2⟩
    · exact absurd hclean not_clean_trouble

/-- A download does nothing else, however it ends. -/
theorem finishes_downloadOutputs {remoteDir : String} {files : List String} {tr : Trace sig}
    {r : Except Exc DownloadErrors}
    (h : Finishes (downloadOutputs s t remoteDir folder files) tr r) :
    Downloaded s t remoteDir folder files tr r := by
  rcases finishes_bind.1 h with ⟨e, rfl, hfiles⟩ | ⟨a, tr₁, tr₂, rfl, hfiles, hrest⟩
  · obtain ⟨-, _, _, hr, -⟩ := finishes_downloadFiles hfiles
    cases hr
  · obtain ⟨hremoves, errors, ended, hr, hsteps, hgot⟩ := finishes_downloadFiles hfiles
    have hbroken : brokenOff (channelSteps tr₁) = Co.errorOf (S := sig) ended := hsteps [] rfl
    cases hr
    cases ended with
    | error e =>
      obtain ⟨rfl, hraised⟩ := finishes_trouble hrest
      exact hgot.downloaded hremoves (fun _ ha => absurd ha List.not_mem_nil)
        (fun h => absurd rfl h) (fun _ => ⟨rfl, hbroken⟩)
        fun errors' he => .inr ⟨e, hraised errors' he, fun _ => rfl⟩
    | ok u =>
      by_cases hclean : errors.isClean = true
      · have hall := hgot.eq_map hclean
        have hnone : errors.permanent = [] :=
          List.isEmpty_iff.mp ((Bool.and_eq_true _ _).mp hclean).2
        dsimp only at hrest
        rw [if_pos hclean] at hrest
        obtain ⟨removed, tr₃, tr₄, rfl, hremove, hend⟩ := finishes_attempt_bind.1 hrest
        cases removed with
        | ok u =>
          obtain ⟨rfl, rfl⟩ := hend
          rw [List.append_nil]
          refine hgot.downloaded hremoves (sees_removeRemote remoteDir _ _ hremove)
            (fun _ => hall) (fun h => absurd hnone h)
            fun errors' he => .inl ⟨(Except.ok.inj he).symm, fun _ => ⟨hall, ?_⟩, fun _ => rfl⟩
          exact removed_of_finishes hremove
        | error e =>
          obtain ⟨rfl, hraised⟩ := finishes_trouble hend
          rw [List.append_nil]
          exact hgot.downloaded hremoves (sees_removeRemote remoteDir _ _ hremove)
            (fun _ => hall) (fun h => absurd hnone h)
            fun errors' he => .inr ⟨e, hraised errors' he, fun h => absurd hnone h⟩
      · dsimp only at hrest
        rw [if_neg hclean] at hrest
        obtain ⟨rfl, rfl⟩ := hrest
        exact hgot.downloaded hremoves (fun _ ha => absurd ha List.not_mem_nil)
          (fun h => absurd rfl h) (fun _ => ⟨rfl, hbroken⟩)
          fun errors' he => .inl ⟨(Except.ok.inj he).symm, fun h => absurd h hclean, fun _ => rfl⟩

/-! ## Finalising

What a task is finalised as is decided from the errors: with a permanent one it
fails, with none it is completed, and otherwise it is put off. Being put off
writes nothing, so another attempt starts from the same row.

A directory whose removal has failed counts as an error that may pass, and the
task is put off. The next attempt downloads everything again. -/

/-- A transaction has loaded the running task. -/
def Loads (tr : Trace sig) (t : TaskId) (task : RunningTask) : Prop :=
  ∃ c any, .op (.sql c (.taskGet t .running)) (.ok (some any)) ∈ tr ∧
    AnyTask.running? any = some task

/-- The downloads of all output files. -/
def retrievals (cfg : Settings) (s : SessionId) (task : RunningTask) (engine : Engine) :
    List Fetch :=
  (outputFilesOf task engine).map (Fetch.retrieved s task.taskId (storeFolderOf cfg task))

/-- **How a task may be finalised** after these answers: completed when its outputs
are there and its directory is gone, failed because of a permanent error, or because
its engine is. In the last two cases the text of the error is given by the answers.
-/
inductive Finalises (cfg : Settings) (s : SessionId) (task : RunningTask) (tr : Trace sig) :
    DoneTask → Prop
  | completed (engine : Engine) (hengine : cfg.engines.get task.engine = some engine)
      (hall : fetches tr = retrievals cfg s task engine)
      (hremoved : .op (.sftpRmtree s task.taskId task.state.remoteFolder) (.ok ()) ∈ tr) :
      Finalises cfg s task tr
        (task.complete (storeFolderOf cfg task) task.state.remoteFolder)
  | failed (engine : Engine) (hengine : cfg.engines.get task.engine = some engine)
      (hpermanent : (fetches tr).filterMap Fetch.permanent? ≠ []) :
      Finalises cfg s task tr (task.fail (formatDownloadError
        ((fetches tr).filterMap Fetch.permanent? ++
          ((fetches tr).filterMap Fetch.transient? ++
            (brokenOff (channelSteps tr)).toList.map (task.state.remoteFolder, ·))))
        (storeFolderOf cfg task) task.state.remoteFolder)
  | noEngine (hengine : cfg.engines.get task.engine = none) (hnone : fetches tr = []) :
      Finalises cfg s task tr
        (task.fail ("engine '" ++ task.engine ++ "' no longer in config")
          (task.localFolder.getD "") task.state.remoteFolder)

/-- The transaction that saves a finalised task. -/
def saveDone (cfg : Settings) (done : DoneTask) : Prog Unit :=
  Uow.within fun c => do
    Tasks.save c done.anyDone
    Uow.commit cfg c

/-- The answer has to do with no file, and with no row but that of the task. -/
def OnlySaves (task : AnyTask) : Answer sig → Prop
  | .op (.sftpOpen _) _ | .op (.sftpGet _ _ _ _) _ | .op (.sftpClose _) _
  | .op (.sftpRmtree _ _ _) _ => False
  | .op (.sql _ (.taskUpdate saved _)) _ => saved = task
  | _ => True

/-- Such an answer is no step on a channel. -/
theorem OnlySaves.channelStep?_eq {task : AnyTask} {a : Answer sig} (h : OnlySaves task a) :
    channelStep? a = none := by
  unfold channelStep?
  split
  · exact h.elim
  · exact h.elim
  · exact h.elim
  · rfl

/-- Nor is anything removed. -/
theorem OnlySaves.not_removes {task : AnyTask} {a : Answer sig} (h : OnlySaves task a) :
    ¬ Removes a := by
  rintro ⟨_, _, _, _, rfl⟩
  exact h

/-- Most operations are of this kind. -/
theorem unspecific_onlySaves (task : AnyTask) : Unspecific (OnlySaves task) where
  op o r ho := by cases o <;> trivial
  savedTake _ _ := trivial
  savedClear _ _ := trivial

/-- Saving a finalised task is about its own row. -/
theorem sees_saveDone (cfg : Settings) (done : DoneTask) :
    Sees (OnlySaves done.anyDone) (saveDone cfg done) := by
  have hq := unspecific_onlySaves done.anyDone
  refine sees_within hq fun c => sees_bind (sees_bind (sees_op fun r => rfl) fun found => ?_)
    fun _ => sees_commit hq cfg c
  cases found
  · exact sees_throw _
  · exact sees_sync fun _ => trivial

/-- A task that a transaction returns was loaded by it. -/
theorem loads_of_finishes {tr : Trace sig} {task : RunningTask}
    (h : Finishes (Uow.within fun c => Tasks.getRunning c t) tr (.ok (some task))) :
    Loads tr t task := by
  obtain ⟨c, tr₁, tr₂, tr₃, rfl, -, hbody, -⟩ := h.asyncWith_ok
  obtain ⟨row, tr₄, tr₅, rfl, hget, hrest⟩ := hbody.bind_ok
  obtain rfl := finishes_op.1 hget
  obtain ⟨rfl, hrow⟩ := hrest
  obtain ⟨any, rfl, hany⟩ := Option.bind_eq_some_iff.mp (Except.ok.inj hrow).symm
  exact ⟨c, any, by simp, hany⟩

/-- The answer has to do with neither files nor rows. -/
def Quiet (a : Answer sig) : Prop := channelStep? a = none ∧ ¬ Removes a ∧ ¬ Writes a

theorem unspecific_quiet : Unspecific Quiet where
  op o r ho := by
    refine ⟨?_, ?_, ?_⟩
    · cases o <;> first | rfl | cases ho
    · rintro ⟨s, t, folder, r, heq⟩
      cases heq
      cases ho
    · rintro ⟨c, task, expected, r, heq⟩
      cases heq
      cases ho
  savedTake _ _ := ⟨rfl, by rintro ⟨_, _, _, _, ⟨⟩⟩, by rintro ⟨_, _, _, _, ⟨⟩⟩⟩
  savedClear _ _ := ⟨rfl, by rintro ⟨_, _, _, _, ⟨⟩⟩, by rintro ⟨_, _, _, _, ⟨⟩⟩⟩

/-- Loading it touches neither files nor rows. -/
theorem sees_load : Sees Quiet (Uow.within fun c => Tasks.getRunning c t) := by
  refine sees_within unspecific_quiet fun c => sees_bind (sees_op fun r => ?_) fun row => sees_ret _
  exact ⟨rfl, by rintro ⟨_, _, _, _, ⟨⟩⟩, by rintro ⟨_, _, _, _, ⟨⟩⟩⟩

/-- Answers that are no steps on a channel. -/
theorem eq_nil_of_noSteps {tr : Trace sig} (h : ∀ a ∈ tr, channelStep? a = none) :
    channelSteps tr = [] ∧ fetches tr = [] :=
  ⟨List.filterMap_eq_nil_iff.mpr h,
    List.filterMap_eq_nil_iff.mpr fun a ha => fetch?_of_channelStep? (h a ha)⟩

/-- A finalised task is saved at the end. -/
theorem finishes_finish {cfg : Settings} {done : DoneTask} {tr : Trace sig} {r : Except Exc Bool}
    (h : Finishes (do
      saveDone cfg done
      ask (.trackerDiscard done.taskId)
      return true) tr r) :
    (∀ a ∈ tr, OnlySaves done.anyDone a) ∧ r ≠ .ok false := by
  have hsees : Sees (OnlySaves done.anyDone) (do
      saveDone cfg done
      ask (.trackerDiscard done.taskId)
      return true) :=
    sees_bind (sees_saveDone cfg done) fun _ =>
      sees_bind (sees_sync fun _ => trivial) fun _ => sees_ret true
  refine ⟨hsees tr r h, ?_⟩
  rintro rfl
  obtain ⟨_, _, _, -, -, hrest⟩ := h.bind_ok
  obtain ⟨_, _, _, -, -, -, htrue⟩ := hrest.bind_ok
  cases htrue

/-- Answers that are no steps on a channel do not matter. -/
theorem Finalises.mono {cfg : Settings} {task : RunningTask} {tr tr' : Trace sig}
    {done : DoneTask} (h : Finalises cfg s task tr done) (hsub : tr ⊆ tr')
    (hsame : fetches tr' = fetches tr) (hsteps : channelSteps tr' = channelSteps tr) :
    Finalises cfg s task tr' done := by
  cases h with
  | completed engine hengine hall hremoved =>
    exact .completed engine hengine (hsame.trans hall) (hsub hremoved)
  | failed engine hengine hpermanent =>
    rw [← hsame] at hpermanent ⊢
    rw [← hsteps]
    exact .failed engine hengine hpermanent
  | noEngine hengine hfetches => exact .noEngine hengine (hsame.trans hfetches)

/-- **What an attempt does to the task it has loaded.** It is what the result says,
for the part of an attempt that comes after the task was loaded. -/
structure Attempted (cfg : Settings) (s : SessionId) (task : RunningTask) (tr : Trace sig)
    (r : Except Exc Bool) : Prop where
  removes : ∀ before a after, tr = before ++ a :: after → Removes a →
    ∃ engine, cfg.engines.get task.engine = some engine ∧
      fetches before = retrievals cfg s task engine ∧
      ∃ r, a = .op (.sftpRmtree s task.taskId task.state.remoteFolder) r
  writes : ∀ before c saved expected res after,
    tr = before ++ .op (.sql c (.taskUpdate saved expected)) res :: after →
    ∃ done : DoneTask, saved = done.anyDone ∧ Finalises cfg s task before done
  deferred : r = .ok false →
    (∀ a ∈ tr, ¬ Writes a) ∧ (fetches tr).filterMap Fetch.permanent? = []

/-- A part before it that touches neither files nor rows. -/
theorem Attempted.prepend {cfg : Settings} {task : RunningTask} {tr₀ tr : Trace sig}
    {r : Except Exc Bool} (h : Attempted cfg s task tr r)
    (hquiet : ∀ a ∈ tr₀, Quiet a) : Attempted cfg s task (tr₀ ++ tr) r := by
  obtain ⟨hsteps, hnone⟩ := eq_nil_of_noSteps fun a ha => (hquiet a ha).1
  constructor
  · intro before a after htr ha
    obtain ⟨mid, rfl, rfl⟩ := split_later htr fun hmem => (hquiet a hmem).2.1 ha
    rw [fetches_append, hnone, List.nil_append]
    exact h.removes mid a after rfl ha
  · intro before c saved expected res after htr
    obtain ⟨mid, rfl, rfl⟩ := split_later htr fun hmem =>
      (hquiet _ hmem).2.2 ⟨c, saved, expected, res, rfl⟩
    obtain ⟨done, hsaved, hfinal⟩ := h.writes mid c saved expected res after rfl
    exact ⟨done, hsaved, hfinal.mono (List.subset_append_right _ _) (by simp [hnone])
      (by simp [hsteps])⟩
  · intro hr
    obtain ⟨hwrites, hpermanent⟩ := h.deferred hr
    rw [fetches_append, hnone, List.nil_append]
    exact ⟨fun a ha => (List.mem_append.mp ha).elim (fun ha => (hquiet a ha).2.2) (hwrites a),
      hpermanent⟩

/-- An attempt that only finalises the task. -/
theorem attempted_finish {cfg : Settings} {task : RunningTask} {done : DoneTask}
    {tr : Trace sig} {r : Except Exc Bool} (hsaves : ∀ a ∈ tr, OnlySaves done.anyDone a)
    (hr : r ≠ .ok false) (hfinal : Finalises cfg s task [] done) : Attempted cfg s task tr r := by
  constructor
  · rintro before a after rfl ha
    exact absurd ha (hsaves a (List.mem_append_right _ List.mem_cons_self)).not_removes
  · rintro before c saved expected res after rfl
    obtain ⟨hsteps, hbefore⟩ := eq_nil_of_noSteps fun a ha =>
      (hsaves a (List.mem_append_left _ ha)).channelStep?_eq
    have hsaved := hsaves _ (List.mem_append_right before List.mem_cons_self)
    exact ⟨done, hsaved, hfinal.mono (List.nil_subset _) hbefore hsteps⟩
  · exact fun h => absurd h hr

/-- A text stands for itself when it is empty. -/
theorem orElse_self (x : String) : orElse x x = x := ite_self x

/-- What is decided after a download. -/
theorem Downloaded.finalises {cfg : Settings} {task : RunningTask} {engine : Engine}
    {tr : Trace sig} {done : DoneTask}
    (h : Downloaded s task.taskId task.state.remoteFolder (storeFolderOf cfg task)
      (outputFilesOf task engine) tr (.ok errors))
    (hengine : cfg.engines.get task.engine = some engine)
    (hdone : decideFinalisation task (storeFolderOf cfg task) task.state.remoteFolder errors
      (storeFolderOf cfg task) = some done) : Finalises cfg s task tr done := by
  unfold decideFinalisation at hdone
  split at hdone
  · cases hdone
  · rename_i hdefer
    dsimp only at hdone
    rw [orElse_self] at hdone
    split at hdone
    · rename_i hempty
      have hboth := List.append_eq_nil_iff.mp (List.isEmpty_iff.mp hempty)
      have hclean : errors.isClean = true := by
        simp [DownloadErrors.isClean, hboth.1, hboth.2]
      obtain ⟨hall, hremoved⟩ := h.clean errors rfl hclean
      cases hdone
      exact .completed engine hengine hall hremoved
    · rename_i hempty
      have hpermanent : errors.permanent ≠ [] := by
        intro hnil
        rw [hnil] at hdefer hempty
        simp at hdefer hempty
        exact hempty hdefer
      rw [h.transient errors rfl hpermanent, h.permanent errors rfl] at hdone
      rw [h.permanent errors rfl] at hpermanent
      cases hdone
      exact .failed engine hengine hpermanent

/-- A download, and what follows it. -/
theorem Downloaded.attempted {cfg : Settings} {task : RunningTask} {engine : Engine}
    {tr₁ tr₂ : Trace sig} {rd : Except Exc DownloadErrors} {r : Except Exc Bool}
    (h : Downloaded s task.taskId task.state.remoteFolder (storeFolderOf cfg task)
      (outputFilesOf task engine) tr₁ rd)
    (hengine : cfg.engines.get task.engine = some engine) (hwrites : ∀ a ∈ tr₁, ¬ Writes a)
    (hafter : ∀ a ∈ tr₂, ∃ done : DoneTask,
      OnlySaves done.anyDone a ∧ Finalises cfg s task tr₁ done)
    (hdefer : r = .ok false →
      tr₂ = [] ∧ (fetches tr₁).filterMap Fetch.permanent? = []) :
    Attempted cfg s task (tr₁ ++ tr₂) r := by
  constructor
  · intro before a after htr ha
    obtain ⟨mid, hmid⟩ := split_earlier htr fun hmem =>
      (hafter a hmem).choose_spec.1.not_removes ha
    obtain ⟨hall, r, hr⟩ := h.removes before a mid hmid ha
    exact ⟨engine, hengine, hall, r, hr⟩
  · intro before c saved expected res after htr
    obtain ⟨mid, rfl, rfl⟩ := split_later htr fun hmem =>
      hwrites _ hmem ⟨c, saved, expected, res, rfl⟩
    obtain ⟨done, hsaved, hfinal⟩ := hafter _ (List.mem_append_right mid List.mem_cons_self)
    obtain ⟨hsteps, hmid⟩ := eq_nil_of_noSteps fun a ha =>
      (hafter a (List.mem_append_left _ ha)).choose_spec.1.channelStep?_eq
    exact ⟨done, hsaved, hfinal.mono (List.subset_append_left _ _) (by simp [hmid])
      (by simp [hsteps])⟩
  · intro hr
    obtain ⟨rfl, hpermanent⟩ := hdefer hr
    rw [List.append_nil]
    exact ⟨hwrites, hpermanent⟩

/-- An attempt that touches nothing, and raises. -/
theorem attempted_error {cfg : Settings} {task : RunningTask} {e : Exc} :
    Attempted cfg s task [] (.error e) where
  removes before a after htr := by simp at htr
  writes before c saved expected res after htr := by simp at htr
  deferred := by rintro ⟨⟩

/-- **An attempt on a task whose engine is known**: the folder, the downloads, and
what is decided about them. -/
theorem attempted_consumeRunning {cfg : Settings} {task : RunningTask} {engine : Engine}
    {tr : Trace sig} {r : Except Exc Bool}
    (h : Finishes (consumeRunning cfg s task engine) tr r)
    (hengine : cfg.engines.get task.engine = some engine) : Attempted cfg s task tr r := by
  have hmkdir : ∀ {tr r}, Finishes (await (.mkdir (storeFolderOf cfg task))) tr r →
      ∀ a ∈ tr, Quiet a := by
    intro tr r hends a ha
    obtain rfl := finishes_op.1 hends
    rw [List.mem_singleton.mp ha]
    exact ⟨rfl, by rintro ⟨_, _, _, _, ⟨⟩⟩, by rintro ⟨_, _, _, _, ⟨⟩⟩⟩
  have hwrites : ∀ {tr rd}, Finishes (downloadOutputs s task.taskId task.state.remoteFolder
      (storeFolderOf cfg task) (outputFilesOf task engine)) tr rd → ∀ a ∈ tr, ¬ Writes a :=
    fun hends a ha => by
      have hinside : (scope {.fetch}).Inside ∅ (downloadOutputs s task.taskId
          task.state.remoteFolder (storeFolderOf cfg task) (outputFilesOf task engine)) :=
        inside_downloadOutputs _ _ _ _ _ (Set.mem_singleton _)
      exact not_writes hinside saveEffect_ne_fetch hends ha
  rcases finishes_bind.1 h with ⟨e, rfl, hfolder⟩ | ⟨u, tr₀, tr', rfl, hfolder, hrest⟩
  · exact List.append_nil tr ▸ attempted_error.prepend (hmkdir hfolder)
  · refine Attempted.prepend ?_ (hmkdir hfolder)
    rcases finishes_bind.1 hrest with ⟨e, rfl, hfiles⟩ | ⟨errors, tr₁, tr₂, rfl, hfiles, hend⟩
    · rw [← List.append_nil tr']
      exact (finishes_downloadOutputs hfiles).attempted hengine (hwrites hfiles)
        (fun _ ha => absurd ha List.not_mem_nil) (by rintro ⟨⟩)
    · have hdownloaded := finishes_downloadOutputs hfiles
      unfold finalizeTask at hend
      split at hend
      · rename_i hdec
        obtain ⟨rfl, rfl⟩ := hend
        refine hdownloaded.attempted hengine (hwrites hfiles)
          (fun _ ha => absurd ha List.not_mem_nil) fun _ => ⟨rfl, ?_⟩
        rw [← hdownloaded.permanent errors rfl]
        unfold decideFinalisation at hdec
        split at hdec
        · rename_i hdefer
          exact List.isEmpty_iff.mp ((Bool.and_eq_true _ _).mp hdefer).2
        · dsimp only at hdec
          split at hdec <;> cases hdec
      · rename_i done hdec
        obtain ⟨hsaves, hr⟩ := finishes_finish hend
        exact hdownloaded.attempted hengine (hwrites hfiles)
          (fun a ha => ⟨done, hsaves a ha, hdownloaded.finalises hengine hdec⟩)
          fun h => absurd h hr

/-- An attempt finds nothing to do, or goes on with the task it has loaded. -/
theorem finishes_consumeTask {cfg : Settings} {tr : Trace sig} {r : Except Exc Bool}
    (h : Finishes (consumeTask cfg t s) tr r) :
    (∀ a ∈ tr, Quiet a) ∧ r ≠ .ok false ∨ ∃ task tr₁ tr₂, tr = tr₁ ++ tr₂ ∧
      Loads tr₁ t task ∧ (∀ a ∈ tr₁, Quiet a) ∧ Attempted cfg s task tr₂ r := by
  rcases finishes_bind.1 h with ⟨e, rfl, hload⟩ | ⟨found, tr₁, tr₂, rfl, hload, hrest⟩
  · exact .inl ⟨sees_load _ _ hload, by rintro ⟨⟩⟩
  · have hquiet := sees_load _ _ hload
    cases found with
    | none =>
      obtain ⟨_, _, rfl, rfl, rfl⟩ := hrest
      refine .inl ⟨fun a ha => (List.mem_append.mp ha).elim (hquiet a) fun ha => ?_, by rintro ⟨⟩⟩
      rw [List.mem_singleton.mp ha]
      exact ⟨rfl, by rintro ⟨_, _, _, _, ⟨⟩⟩, by rintro ⟨_, _, _, _, ⟨⟩⟩⟩
    | some task =>
      refine .inr ⟨task, tr₁, tr₂, rfl, loads_of_finishes hload, hquiet, ?_⟩
      dsimp only at hrest
      split at hrest
      · rename_i hengine
        obtain ⟨hsaves, hr⟩ := finishes_finish hrest
        exact attempted_finish hsaves hr (.noEngine hengine rfl)
      · rename_i engine hengine
        exact attempted_consumeRunning hrest hengine

theorem Loads.append {tr₁ : Trace sig} {task : RunningTask} (h : Loads tr₁ t task)
    (tr₂ : Trace sig) : Loads (tr₁ ++ tr₂) t task := by
  obtain ⟨c, any, hmem, hany⟩ := h
  exact ⟨c, any, List.mem_append_left tr₂ hmem, hany⟩

namespace Downloads

def settings : Settings where
  engines := [("pcrystal", { name := "pcrystal", outputFiles := ["OUTPUT", "fort.9"] })]

/-- A running task. -/
def task : RunningTask where
  taskId := 1
  engine := "pcrystal"
  state := { allocatedNodeId := 1, remoteFolder := "/root/tasks/1" }
  localFolder := some "data/tasks/1"

/-- Both files are downloaded. -/
def before : Trace sig :=
  [.op .connect (.ok 1), .op (.begin 1) (.ok ()),
    .op (.sql 1 (.taskGet 1 .running)) (.ok (some task.anyRunning)), .op (.close 1) (.ok ()),
    .op (.mkdir "data/tasks/1") (.ok ()),
    .op (.sftpOpen ⟨1, 0⟩) (.ok ()),
    .op (.sftpGet ⟨1, 0⟩ 1 "/root/tasks/1/OUTPUT" "data/tasks/1") (.ok ()),
    .op (.sftpClose ⟨1, 0⟩) (.ok ()),
    .op (.sftpOpen ⟨1, 0⟩) (.ok ()),
    .op (.sftpGet ⟨1, 0⟩ 1 "/root/tasks/1/fort.9" "data/tasks/1") (.ok ()),
    .op (.sftpClose ⟨1, 0⟩) (.ok ()),
    .op (.sftpOpen ⟨1, 0⟩) (.ok ())]

/-- The directory is removed, but the channel breaks. -/
def after : Trace sig :=
  [.op (.sftpClose ⟨1, 0⟩) (.error (.os "connection lost"))]

theorem finishes_attempt : Finishes (consumeTask settings 1 ⟨1, 0⟩)
    (before ++ .op (.sftpRmtree ⟨1, 0⟩ 1 "/root/tasks/1") (.ok ()) :: after) (.ok false) := by
  repeat refine ⟨_, _, rfl, ?_⟩
  exact ⟨rfl, rfl⟩

end Downloads

end Yascheduler
