import Yascheduler.Application.Reservation
import Yascheduler.Async.Contract

/-!
# What is passed on

A task is read from the database, handed from a producer to a worker, moved on
by the transitions of the domain, written back, and announced to the webhook
its user has named; its outputs go to the folder the user has named. A node is
read, queued, connected to and torn down, and a new one is filled in with what
the provider has returned for its VM. None of this may mix up two tasks or two
machines, or lose what was submitted.

The contract below says what that means for each operation, given the rows as
they were at the beginning and the machines that are known, and every program
meets it: each value that a program passes on comes from a row it has read,
from a message, or from a provider.

## The two parameters

What was submitted is a table of rows, and what is known of machines is a
predicate. Neither changes during a run: the rows are those at the beginning, and
a machine that is returned later is known from the start, since the predicate is
chosen with the whole run in view. A contract that had to grow with the run would
have to be monotone in it everywhere.

That a value belongs to its task is said of the value as a whole. A task carries
what was submitted for it under one identifier, and a message, a row and an event
are all compared with the submitted row under *that* identifier, so two tasks
cannot exchange even a single field.
-/

namespace Yascheduler

open Async Contract

/-! ## Submissions

A task is of several types on its way, each with fields of its own, and its row
has a column for all of them. What they share is named here once, so that a
task, a row and an event can be compared although they are of different types.

The local folder is not part of it, although the user names it. It is kept like
the rest while the task waits and runs, but the transition that finishes the
task writes the folder that was used. -/

/-- The part of a task that no transition touches. It is what the user has submitted
and has a right to find again. -/
structure Submission where
  label : String
  engine : String
  webhookUrl : Option String
  webhookCustomParams : Params
  extra : Params
deriving DecidableEq

/-- The submission of a task. -/
def Task.submission {σ : Type} (task : Task σ) : Submission where
  label := task.label
  engine := task.engine
  webhookUrl := task.webhookUrl
  webhookCustomParams := task.webhookCustomParams
  extra := task.extra

/-- The submission a row holds. -/
def TaskRow.submission (row : TaskRow) : Submission where
  label := row.title
  engine := row.engine
  webhookUrl := row.webhookUrl
  webhookCustomParams := row.webhookCustomParams
  extra := row.extra

@[simp] theorem TaskRow.submission_ofTask (task : AnyTask) (createdAt : String) :
    (TaskRow.ofTask task createdAt).submission = task.submission := rfl

@[simp] theorem TaskRow.submission_toTask (row : TaskRow) (t : TaskId) :
    (row.toTask t).submission = row.submission := rfl

section Kept

-- the rows at the beginning
variable (S : TaskId → Option TaskRow)

/-- The event goes to the webhook of its task, with its parameters. -/
def DomainEvent.Of (e : DomainEvent) : Prop :=
  ∃ row, S e.taskId = some row ∧ e.webhookUrl = row.webhookUrl ∧
    e.webhookCustomParams = row.webhookCustomParams

/-- **The task is the one of its row**: it has the submission of the row, its
folder until it is finished, and events that go to its webhook. -/
structure AnyTask.Of (task : AnyTask) : Prop where
  submission : ∃ row, S task.taskId = some row ∧ task.submission = row.submission ∧
    (task.state.status ≠ .done → task.localFolder = row.localFolder)
  events : ∀ e ∈ task.events, e.Of S

variable {S}

/-- **A transition keeps the submission**, and the folder unless it finishes
the task. -/
theorem AnyTask.Of.advance {σ τ : Type} {task : Task σ} {st : TaskState}
    (h : AnyTask.Of S (task.withState st)) (state : τ) (kind : EventKind)
    (localFolder : Option String) {st' : TaskState}
    (hst : st'.status = .done ∨ st.status ≠ .done ∧ localFolder = none) :
    AnyTask.Of S ((task.advance state kind localFolder).withState st') where
  submission := by
    obtain ⟨row, hrow, hsub, hfolder⟩ := h.submission
    refine ⟨row, hrow, hsub, fun hne => ?_⟩
    obtain ⟨hrun, rfl⟩ := hst.resolve_left hne
    exact hfolder hrun
  events e he := by
    rcases List.mem_append.mp he with he | he
    · exact h.events e he
    · obtain ⟨row, hrow, hsub, -⟩ := h.submission
      rw [List.mem_singleton.mp he]
      exact ⟨row, hrow, congrArg Submission.webhookUrl hsub,
        congrArg Submission.webhookCustomParams hsub⟩

theorem todo?_of {task : AnyTask} {t : TodoTask} (h : task.Of S)
    (ht : task.todo? = some t) : t.anyTodo.Of S := by
  have he : t.anyTodo = task := by
    unfold AnyTask.todo? at ht
    split at ht
    · rename_i st hst
      cases ht
      unfold Task.anyTodo Task.withState
      rw [← hst]
    · cases ht
  rw [he]
  exact h

theorem running?_of {task : AnyTask} {t : RunningTask} (h : task.Of S)
    (ht : task.running? = some t) : t.anyRunning.Of S := by
  have he : t.anyRunning = task := by
    unfold AnyTask.running? at ht
    split at ht
    · rename_i st hst
      cases ht
      unfold Task.anyRunning Task.withState
      rw [← hst]
    · cases ht
  rw [he]
  exact h

theorem run_of {task : TodoTask} (h : task.anyTodo.Of S) (n : NodeId) (folder : String) :
    (task.run n folder).anyRunning.Of S :=
  h.advance _ _ none (.inr ⟨by rintro ⟨⟩, rfl⟩)

theorem reject_of {task : TodoTask} (h : task.anyTodo.Of S) (reason : String) :
    (task.reject reason).anyDone.Of S :=
  h.advance _ _ none (.inl rfl)

theorem complete_of {task : RunningTask} (h : task.anyRunning.Of S)
    (localFolder remoteFolder : String) : (task.complete localFolder remoteFolder).anyDone.Of S :=
  h.advance _ _ _ (.inl rfl)

theorem fail_of {task : RunningTask} (h : task.anyRunning.Of S)
    (reason localFolder remoteFolder : String) :
    (task.fail reason localFolder remoteFolder).anyDone.Of S :=
  h.advance _ _ _ (.inl rfl)

theorem abandon_of {task : RunningTask} (h : task.anyRunning.Of S) :
    task.abandon.anyDone.Of S :=
  h.advance _ _ none (.inl rfl)

end Kept

/-! ## Endpoints

A node that a command line adds is reached under the host that was typed, a
node from the cloud under the address that its provider has returned. Before a
VM is created its row has no host yet, and it only reserves a place. Such a row
must not be connected to, and it is not, because it is never enabled. -/

/-- **How a machine is reached**, and the VM it is. The two belong together: to
delete the VM of one machine while connecting to another is what must not happen. -/
structure Endpoint where
  hostname : String
  username : String
  port : Nat
  jumpHost : Option String
  jumpPort : Nat
  jumpUsername : String
  cloud : Option String
  externalId : Option String
deriving DecidableEq

/-- The endpoint of a node. -/
def NewNode.endpoint (row : NewNode) : Endpoint where
  hostname := row.hostname
  username := row.username
  port := row.port
  jumpHost := row.jumpHost
  jumpPort := row.jumpPort
  jumpUsername := row.jumpUsername
  cloud := row.cloud
  externalId := row.externalId

/-- The endpoint of a VM that a provider has created. -/
def CloudCreateNodeDTO.endpoint (dto : CloudCreateNodeDTO) (provider : String) : Endpoint where
  hostname := dto.hostname
  username := dto.username
  port := dto.port
  jumpHost := dto.jumpHost
  jumpPort := dto.jumpPort
  jumpUsername := dto.jumpUsername
  cloud := some provider
  externalId := some dto.externalId

@[simp] theorem Node.endpoint_withVm (node : Node) (dto : CloudCreateNodeDTO)
    (adapter : String) : (node.withVm dto adapter).endpoint = dto.endpoint adapter := rfl

/-- The row that reserves a place at a provider. -/
def reservedRow (name : String) : NewNode := { cloud := some name, enabled := false }

/-- A row is a machine that is known, or it only reserves a place. -/
def NewNode.Valid (V : Endpoint → Prop) (row : NewNode) : Prop :=
  V row.endpoint ∨ ∃ name, row = reservedRow name

namespace NewNode.Valid

variable {V : Endpoint → Prop} {row : NewNode}

theorem disable (h : row.Valid V) : ({ row with enabled := false } : NewNode).Valid V := by
  rcases h with h | ⟨name, rfl⟩
  · exact .inl h
  · exact .inr ⟨name, rfl⟩

/-- A reserved place is never enabled. -/
theorem of_enabled (h : row.Valid V) (he : row.enabled = true) : V row.endpoint := by
  rcases h with h | ⟨name, rfl⟩
  · exact h
  · cases he

/-- A reserved place has no host. -/
theorem of_hostname (h : row.Valid V) (he : row.hostname ≠ "") : V row.endpoint := by
  rcases h with h | ⟨name, rfl⟩
  · exact h
  · exact absurd rfl he

end NewNode.Valid

/-! ## The contract

A contract says of each operation what may be asked and what may come back, and
nothing about the order. This is enough here: whether a value belongs to its
task can be seen from the value, without knowing what the program has done
before.

What comes back is promised by the other side, the database and the queues, and
it is proved elsewhere (`Holdings`) that they keep it. The programs below only
have to hand on what they were given. -/

/-- **Tasks and machines are not mixed up**: what is saved, queued, announced
and downloaded belongs to the task it is said to belong to, and what is
written, queued, connected to and deleted is a machine that is known, as a
whole. Only a row may reserve a place instead. -/
def dataContract (S : TaskId → Option TaskRow) (V : Endpoint → Prop) : Contract sig where
  call
    | .savedAppend _ task => task.Of S
    | _ => True
  ans
    | .savedTake _, tasks => ∀ task ∈ tasks, AnyTask.Of S task
    | _, _ => True
  op
    | .sql _ (.taskUpdate task _) => task.Of S
    | .sql _ (.nodeInsert row) => row.Valid V
    | .sql _ (.nodeUpdate node) => V node.endpoint
    | .queuePut .consume task => (Task.anyRunning task).Of S
    | .queuePut .connMachine node => V (Node.toNewNode node).endpoint
    | .queuePut .deallocate node => V (Node.toNewNode node).endpoint
    | .handler e => e.Of S
    | .sftpGet _ t _ dir => ∀ row folder, S t = some row →
        row.localFolder = some folder → folder ≠ "" →
        dir = (PosixPath.ofString folder).toString
    | .connectMachine node => V node.endpoint
    | .deleteNode provider externalId =>
        ∃ e, V e ∧ e.cloud = some provider ∧ e.externalId = some externalId
    | _ => True
  res
    | .sql _ (.taskGet _ _), found => ∀ task, found = some task → AnyTask.Of S task
    | .sql _ (.taskList _ _), tasks => ∀ task ∈ tasks, AnyTask.Of S task
    | .sql _ .nodeListEnabled, nodes => ∀ node ∈ nodes, V (Node.toNewNode node).endpoint
    | .sql _ .nodeListDisabled, nodes => ∀ node ∈ nodes, V (Node.toNewNode node).endpoint
    | .sql _ (.nodeInsert row), node => Node.toNewNode node = row
    | .queueGet .consume, task => (Task.anyRunning task).Of S
    | .queueGet .connMachine, node => V (Node.toNewNode node).endpoint
    | .queueGet .deallocate, node => V (Node.toNewNode node).endpoint
    | .createNode provider, dto => V (CloudCreateNodeDTO.endpoint dto provider)
    | _, _ => True

namespace DataFlow

variable {S : TaskId → Option TaskRow} {V : Endpoint → Prop} {α β : Type} {Q : α → Prop}

/-- The program meets the contract; what it returns does not matter. -/
abbrev Plain (S : TaskId → Option TaskRow) (V : Endpoint → Prop) (x : Prog α) : Prop :=
  (dataContract S V).Meets (fun _ => True) x

/-- A part whose result does not matter. -/
theorem meets_then {x : Prog α} {f : α → Prog β} {R : β → Prop} (hx : Plain S V x)
    (hf : ∀ a, (dataContract S V).Meets R (f a)) : (dataContract S V).Meets R (Co.bind x f) :=
  meets_bind hx fun a _ => hf a

theorem meets_ask {c : Call} (h : (dataContract S V).call c) :
    (dataContract S V).Meets ((dataContract S V).ans c) (ask c) :=
  meets_sync h

theorem meets_await {o : Op} (h : (dataContract S V).op o) :
    (dataContract S V).Meets ((dataContract S V).res o) (await o) :=
  meets_op h

theorem plain_ask {c : Call} (h : (dataContract S V).call c) : Plain S V (ask c) :=
  (meets_ask h).mono fun _ _ => trivial

theorem plain_await {o : Op} (h : (dataContract S V).op o) : Plain S V (await o) :=
  (meets_await h).mono fun _ _ => trivial

theorem plain_ofExcept (r : Except Exc α) : Plain S V (Co.ofExcept (S := sig) r) :=
  meets_ofExcept fun _ _ => trivial

theorem meets_exceptException {x : Prog α} {h : Exc → Prog α}
    (hx : (dataContract S V).Meets Q x) (hh : ∀ e, (dataContract S V).Meets Q (h e)) :
    (dataContract S V).Meets Q (exceptException x h) := by
  refine meets_tryCatch hx fun e => ?_
  by_cases he : e.isException
  · rw [if_pos he]
    exact hh e
  · rw [if_neg he]
    trivial

theorem plain_suppress {x : Prog Unit} (hx : Plain S V x) : Plain S V (suppress x) :=
  meets_exceptException hx fun _ => trivial

theorem plain_attempt {x : Prog α} (hx : Plain S V x) : Plain S V (Co.attempt x) :=
  (meets_attempt hx).mono fun _ _ => trivial

/-! ## Units of work

The repositories are where rows become tasks and tasks become rows. Once their
lemmas are there, no use case has to look at a row any more: a task that is
loaded belongs to its row, and a task may be saved because it was obtained by
transitions from one that was loaded. -/

theorem plain_rollback (c : Nat) : Plain S V (Uow.rollback c) :=
  meets_then (plain_await trivial) fun _ => plain_ask trivial

theorem meets_within {body : Nat → Prog α} (h : ∀ c, (dataContract S V).Meets Q (body c)) :
    (dataContract S V).Meets Q (Uow.within body) := by
  refine meets_asyncWith (P := fun _ => True) ?_ (fun c e _ => ?_) fun c _ => h c
  · refine meets_then (plain_await trivial) fun c => meets_tryCatch
      (meets_then (plain_await trivial) fun _ => trivial) fun e =>
        meets_then (plain_suppress (plain_await trivial)) fun _ => trivial
  · unfold Uow.exit
    cases e with
    | none => exact plain_suppress (plain_await trivial)
    | some e =>
      exact meets_then (plain_suppress (plain_rollback c)) fun _ =>
        plain_suppress (plain_await trivial)

/-- **The events of saved tasks go to their webhooks.** They were appended by
transitions, which copy the webhook of the task. -/
theorem plain_commit (cfg : Settings) (c : Nat) : Plain S V (Uow.commit cfg c) := by
  have hdispatch : ∀ es : List DomainEvent, (∀ e ∈ es, e.Of S) →
      Plain S V (Uow.dispatch cfg es) := by
    intro es hes
    induction es with
    | nil => trivial
    | cons e es ih =>
      have hrest := ih fun e he => hes e (List.mem_cons_of_mem _ he)
      unfold Uow.dispatch
      split
      · exact meets_then (plain_suppress (plain_await (hes e List.mem_cons_self)))
          fun _ => hrest
      · exact hrest
  refine meets_then (plain_await trivial) fun _ => plain_suppress ?_
  refine meets_bind (meets_ask (c := .savedTake c) trivial) fun tasks htasks => ?_
  refine meets_then (hdispatch _ fun e he => ?_) fun _ => plain_ask trivial
  obtain ⟨task, htask, he⟩ := List.mem_flatMap.mp he
  exact (htasks task htask).events e he

theorem plain_save (c : Nat) {task : AnyTask} (h : task.Of S)
    (expected : Option TaskStatus) : Plain S V (Tasks.save c task expected) := by
  refine meets_then (plain_await h) fun found => ?_
  cases found with
  | true => exact plain_ask h
  | false => trivial

theorem meets_getTodo (c : Nat) (t : TaskId) : (dataContract S V).Meets
    (fun r => ∀ task, r = some task → (Task.anyTodo task).Of S) (Tasks.getTodo c t) := by
  refine meets_bind (meets_await (o := .sql c (.taskGet t .toDo)) trivial) fun row hrow => ?_
  intro task ht
  obtain ⟨any, hany, htodo⟩ := Option.bind_eq_some_iff.mp ht
  exact todo?_of (hrow any hany) htodo

/-- A task that `get_running` finds is the one that was asked for. -/
theorem meets_getRunning (c : Nat) (t : TaskId) : (dataContract S V).Meets
    (fun r => ∀ task, r = some task → (Task.anyRunning task).Of S) (Tasks.getRunning c t) := by
  refine meets_bind (meets_await (o := .sql c (.taskGet t .running)) trivial) fun row hrow => ?_
  intro task ht
  obtain ⟨any, hany, hrunning⟩ := Option.bind_eq_some_iff.mp ht
  exact running?_of (hrow any hany) hrunning

theorem meets_listRunning (c : Nat) : (dataContract S V).Meets
    (fun tasks => ∀ task ∈ tasks, (Task.anyRunning task).Of S) (Tasks.listRunning c) := by
  refine meets_bind (meets_await (o := .sql c (.taskList .running none)) trivial)
    fun rows hrows => ?_
  intro task ht
  obtain ⟨any, hany, hrunning⟩ := List.mem_filterMap.mp ht
  exact running?_of (hrows any hany) hrunning

theorem plain_listRunning (c : Nat) : Plain S V (Tasks.listRunning c) :=
  (meets_listRunning c).mono fun _ _ => trivial

theorem plain_mustMatch (n : NodeId) (found : Bool) : Plain S V (Nodes.mustMatch n found) := by
  cases found <;> trivial

theorem plain_update (c : Nat) {node : Node} (h : V node.endpoint) :
    Plain S V (Nodes.update c node) :=
  meets_then (plain_await h) fun _ => plain_mustMatch _ _

theorem plain_disable (c : Nat) (n : NodeId) : Plain S V (Nodes.disable c n) :=
  meets_then (plain_await trivial) fun _ => plain_mustMatch _ _

theorem plain_remove (c : Nat) (n : NodeId) : Plain S V (Nodes.remove c n) :=
  meets_then (plain_await trivial) fun _ => plain_mustMatch _ _

/-- One step in a transaction of its own. -/
theorem plain_transaction (cfg : Settings) {body : Nat → Prog Unit}
    (h : ∀ c, Plain S V (body c)) : Plain S V (Uow.within fun c => do
      body c
      Uow.commit cfg c) :=
  meets_within fun c => meets_then (h c) fun _ => plain_commit cfg c

theorem plain_saveTransaction (cfg : Settings) {task : AnyTask} (h : task.Of S) :
    Plain S V (Uow.within fun c => do
      Tasks.save c task
      Uow.commit cfg c) :=
  plain_transaction cfg fun c => plain_save c h none

theorem plain_removeTransaction (cfg : Settings) (n : NodeId) :
    Plain S V (Uow.within fun c => do
      Nodes.remove c n
      Uow.commit cfg c) :=
  plain_transaction cfg fun c => plain_remove c n

/-! ## Machines and clouds

A VM is only deleted with the provider and the external id of one known
machine, both from the same node. The creation is the one place where an
endpoint comes from outside; from there on it is passed along as a whole, so
that no later step can pair the address of one VM with the id of another. -/

/-- What is done over a channel that is opened before and closed after. -/
theorem plain_channel {s : SessionId} {body : Unit → Prog α} (h : ∀ u, Plain S V (body u)) :
    Plain S V (Co.asyncWith (await (.sftpOpen s)) (fun _ _ => await (.sftpClose s)) body) :=
  meets_asyncWith (P := fun _ => True) (plain_await trivial)
    (fun _ _ _ => plain_await trivial) fun u _ => h u

theorem plain_disconnect (n : NodeId) : Plain S V (disconnect n) := by
  have hclose : ∀ s, Plain S V (do
      let wasOpen ← ask (.closeConn s)
      if wasOpen then await (.waitClosed s) : Prog Unit) := by
    intro s
    refine meets_then (plain_ask trivial) fun wasOpen => ?_
    cases wasOpen with
    | true => exact plain_await trivial
    | false => trivial
  refine meets_then (plain_ask trivial) fun s => ?_
  cases s with
  | none => trivial
  | some s =>
    refine meets_then (plain_ask trivial) fun monitored => ?_
    cases monitored with
    | none => trivial
    | some monitored =>
      cases monitored with
      | false => exact hclose s
      | true =>
        refine meets_then (meets_tryCatch (plain_await trivial) fun e => ?_)
          fun _ => hclose s
        by_cases he : e = Exc.cancelled
        · rw [if_pos he]; trivial
        · rw [if_neg he]; trivial

/-- **The VM of a known machine is deleted**, at its own provider. Its name and its
identifier come from one row. -/
theorem plain_cloudsDeallocate (cfg : Settings) {node : Node} (h : V node.endpoint) :
    Plain S V (cloudsDeallocate cfg node) := by
  unfold cloudsDeallocate
  split
  · trivial
  · rename_i cloud hcloud
    split
    · rename_i adapter _ externalId hadapter _ hid
      have hname : cloud = adapter := Settings.adapters_name (Store.Dict.mem_of_get hadapter)
      rw [hname] at hcloud
      exact plain_await (o := .deleteNode adapter externalId) ⟨_, h, hcloud, hid⟩
    · trivial

/-- **The node that is provisioned is the VM the provider has returned.** What
`allocate` puts into the row is copied from the answer, field by field. -/
theorem meets_cloudsAllocate (cfg : Settings) (provider : String) (node : Node) :
    (dataContract S V).Meets (fun node => V (Node.toNewNode node).endpoint)
      (cloudsAllocate cfg provider node) := by
  have hguarded : ∀ {α β : Type} {Q : β → Prop} (o : Op) (x : o.Res → Prog β) (h : Exc → Exc),
      (dataContract S V).op o → (∀ a, (dataContract S V).Meets Q (x a)) →
      (dataContract S V).Meets Q (Co.bind (exceptException (await o) fun e => raise (h e)) x) :=
    fun o x h ho hx => meets_then
      (meets_exceptException (plain_await ho) fun _ => trivial) hx
  have hsetup : ∀ (node : Node) (adapter : String), V node.endpoint →
      (dataContract S V).Meets (fun node => V (Node.toNewNode node).endpoint)
        (setupVm cfg node adapter) := by
    intro node adapter h
    have hconnect : Plain S V (connectToVm node) := meets_then (plain_await trivial) fun _ =>
      meets_exceptException (plain_await (o := .connectMachine node) h) fun _ => trivial
    refine meets_then hconnect fun s => ?_
    have hready := fun (s : SessionId) (x : Unit → Prog Node) hx => hguarded (α := Unit)
      (Q := fun node => V (Node.toNewNode node).endpoint) (.setupNode s) x
      (fun e => .cloudSetup ("Setup node " ++ node.hostname ++ " failed: " ++ e.str)) trivial hx
    split
    · refine hguarded (α := ProcessResult) (.cloudInit s) _ _ trivial fun code => ?_
      split
      · exact meets_then trivial fun _ => hready s _ fun _ => h
      · exact hready s _ fun _ => h
    · exact hready s _ fun _ => h
  have hteardown : ∀ (adapter : String) (node : Node) (dto : CloudCreateNodeDTO) (e : Exc),
      V (dto.endpoint adapter) →
      (dataContract S V).Meets (fun node => V (Node.toNewNode node).endpoint)
        (teardownVm adapter node dto e) := by
    intro adapter node dto e h
    have hdelete : (dataContract S V).op (.deleteNode adapter dto.externalId) :=
      ⟨_, h, rfl, rfl⟩
    refine meets_then (meets_tryCatch (plain_disconnect _) fun _ => trivial) fun _ =>
      meets_then (meets_tryCatch (plain_await hdelete) fun _ => trivial) fun _ => ?_
    split <;> trivial
  unfold cloudsAllocate
  split
  · trivial
  · trivial
  · rename_i adapter _ _ _
    refine meets_asyncWith (P := fun _ => True) (plain_await trivial)
      (fun _ _ _ => plain_ask trivial) fun _ _ => ?_
    have hcreate : (dataContract S V).Meets
        (fun dto => V (CloudCreateNodeDTO.endpoint dto adapter))
        (do await .sshKey; await (.createNode adapter) : Prog CloudCreateNodeDTO) :=
      meets_then (plain_await trivial) fun _ => meets_await (o := .createNode adapter) trivial
    refine meets_bind (meets_exceptException hcreate fun _ => trivial) fun dto hdto => ?_
    exact meets_tryCatch (hsetup _ _ hdto) fun e => hteardown _ _ _ e hdto

theorem plain_cleanupTmpNode (cfg : Settings) (n : NodeId) :
    Plain S V (cleanupTmpNode cfg n) :=
  meets_exceptException (plain_removeTransaction cfg n) fun _ => trivial

theorem plain_allocateCloud (cfg : Settings) (engine : Engine) (task : TodoTask) :
    Plain S V (allocateCloud cfg engine task) := by
  have hselect : Plain S V (selectAndInsertTmp cfg engine) := by
    refine meets_asyncWith (P := fun _ => True) (plain_await trivial)
      (fun _ _ _ => plain_ask trivial) fun _ _ => meets_within fun c => ?_
    refine meets_then (plain_await trivial) fun nodes => meets_then ?_ fun name => ?_
    · unfold selectProvider
      split
      · trivial
      · exact meets_then (plain_ask trivial) fun _ => trivial
    · cases name with
      | none => trivial
      | some name =>
        exact meets_then (plain_await (o := .sql c (.nodeInsert (reservedRow name)))
          (.inr ⟨name, rfl⟩)) fun _ => meets_then (plain_commit cfg c) fun _ => trivial
  have hnode : ∀ name tmp, (dataContract S V).Meets
      (fun node => V (Node.toNewNode node).endpoint) (allocateCloudNode cfg name tmp) :=
    fun name tmp => meets_exceptException (meets_cloudsAllocate cfg name tmp) fun _ =>
      meets_then (plain_cleanupTmpNode cfg _) fun _ => trivial
  have hpersist : ∀ (node : Node) n, V node.endpoint →
      Plain S V (persistNodeWithCleanup cfg node n) := fun node n h =>
    meets_tryCatch (plain_transaction cfg fun c => plain_update c h) fun _ =>
      meets_then (meets_exceptException (plain_cloudsDeallocate cfg h) fun _ => trivial)
        fun _ => meets_then (plain_cleanupTmpNode cfg n) fun _ => trivial
  have hsection : Plain S V (cloudSection cfg engine task) := by
    refine meets_then (plain_attempt hselect) fun r => ?_
    split
    · trivial
    · trivial
    · exact meets_then (plain_ask trivial) fun _ => meets_then (plain_attempt
        (meets_bind (hnode _ _) fun node h => hpersist node _ h)) fun _ => trivial
  have hend : ∀ r : Except Exc Unit,
      Plain S V (do Co.ofExcept (S := sig) r; return false : Prog Bool) :=
    fun r => meets_then (plain_ofExcept r) fun _ => trivial
  refine meets_then (plain_ask trivial) fun added => ?_
  cases added with
  | false => trivial
  | true =>
    refine meets_then hsection fun out => ?_
    obtain ⟨r, allocated, tmp⟩ := out
    cases allocated with
    | true => exact hend r
    | false =>
      refine meets_then (plain_ask trivial) fun _ => ?_
      cases tmp with
      | none => exact hend r
      | some n => exact meets_then (plain_cleanupTmpNode cfg n) fun _ => hend r

/-! ## Starting a task -/

theorem plain_startTaskOnMachine (cfg : Settings) (s : SessionId) (engine : Engine)
    (task : RunningTask) : Plain S V (startTaskOnMachine cfg s engine task) := by
  have hwrite : ∀ dir files, Plain S V (writeInputs s task dir files) := by
    intro dir files
    induction files with
    | nil => trivial
    | cons file files ih =>
      unfold writeInputs
      cases task.extra.lookup file with
      | none => trivial
      | some data => exact meets_then (plain_await trivial) fun _ => ih
  have hupload : ∀ dir, Plain S V (uploadTaskData s task dir engine.inputFiles) := fun dir =>
    plain_channel fun _ => meets_then (plain_await trivial) fun _ =>
      meets_then (hwrite dir _) fun _ => trivial
  have hrollback : ∀ e, Plain S V (rollbackBusy s e) := by
    intro e
    refine meets_then (plain_ask trivial) fun closed => ?_
    have hrelease : Plain S V (do
        let _ ← ask (.machineState s)
        ask (.release s)
        raise e : Prog Unit) :=
      meets_then (plain_ask trivial) fun _ => meets_then (plain_ask trivial) fun _ => trivial
    cases closed with
    | true => exact meets_then trivial fun _ => hrelease
    | false => exact hrelease
  have hdeploy : ∀ ncpus dir, Plain S V (deployerStart s engine task ncpus dir) := by
    intro ncpus dir
    refine meets_then (plain_ask trivial) fun r => meets_then (plain_ofExcept r) fun _ =>
      meets_then (meets_tryCatch (meets_then (plain_channel fun _ => ?_) fun dirs =>
        plain_await trivial) hrollback) fun _ => trivial
    exact meets_then (plain_await trivial) fun _ => meets_then (hupload _) fun _ => trivial
  refine meets_then (meets_within fun c => plain_await trivial) fun node => ?_
  split
  · exact meets_then trivial fun n => hdeploy n _
  · exact meets_then (plain_await trivial) fun n => hdeploy n _

/-- **A task is claimed as it was read.** The claim writes all columns, so a field of
another task would be written as well. -/
theorem plain_tryStartOnMachine (cfg : Settings) (s : SessionId) (node : Node)
    (engine : Engine) {task : TodoTask} (h : task.anyTodo.Of S) :
    Plain S V (tryStartOnMachine cfg s node engine task) := by
  refine meets_then (meets_within fun c => ?_) fun started => ?_
  · refine meets_then (plain_save c (run_of h _ _) _) fun _ =>
      meets_then (plain_startTaskOnMachine cfg s engine _) fun started => ?_
    cases started with
    | true => exact meets_then (plain_commit cfg c) fun _ => trivial
    | false => exact meets_then (plain_rollback c) fun _ => trivial
  · cases started with
    | true =>
      exact meets_then (plain_ask trivial) fun _ => meets_then (plain_ask trivial)
        fun _ => trivial
    | false => trivial

theorem plain_allocateTask (cfg : Settings) (t : TaskId) : Plain S V (allocateTask cfg t) := by
  refine meets_bind (meets_within fun c => meets_getTodo c t) fun task htask => ?_
  cases task with
  | none => trivial
  | some task =>
    have h := htask task rfl
    have hvalidate : Plain S V (validateEngine cfg task) := by
      unfold validateEngine
      split
      · trivial
      · exact meets_then (plain_saveTransaction cfg (reject_of h _)) fun _ => trivial
    have htry : ∀ engine pairs, Plain S V (tryMachines cfg engine task pairs) := by
      intro engine pairs
      induction pairs with
      | nil => trivial
      | cons pair pairs ih =>
        refine meets_then (meets_exceptException
          (plain_tryStartOnMachine cfg pair.1 pair.2 engine h) fun _ => trivial)
          fun started => ?_
        cases started with
        | true => trivial
        | false => exact ih
    have hfind : ∀ engine, Plain S V (findFreeMachines engine) := fun engine =>
      meets_then (meets_within fun c => meets_then (plain_listRunning c) fun _ =>
        meets_then (plain_await trivial) fun _ => trivial) fun _ =>
          meets_then (plain_ask trivial) fun _ => trivial
    refine meets_then hvalidate fun engine => ?_
    cases engine with
    | none => trivial
    | some engine =>
      refine meets_then (meets_then (hfind engine) fun pairs => htry engine pairs)
        fun started => ?_
      cases started with
      | true => trivial
      | false =>
        show Plain S V (if engine.platforms.isEmpty then pure false
          else allocateCloud cfg engine task)
        split
        · trivial
        · exact plain_allocateCloud cfg engine task

/-! ## Consuming a task

The folder of the outputs is the one that the user has named, if it is not
empty. Otherwise the scheduler chooses one from its settings, about which
nothing was submitted. The contract speaks about the first case only, and it
does so after the normalisation of paths, since that is what is written to the
row. -/

/-- **Outputs go to the folder the user has named**, if there is one. -/
theorem storeFolder_of (cfg : Settings) {task : RunningTask} (h : task.anyRunning.Of S)
    {row : TaskRow} {folder : String} (hrow : S task.taskId = some row)
    (hfolder : row.localFolder = some folder) (hne : folder ≠ "") :
    storeFolderOf cfg task = (PosixPath.ofString folder).toString := by
  obtain ⟨row', hrow', -, hkept⟩ := h.submission
  have hsame : row = row' := Option.some.inj (hrow.symm.trans hrow')
  have hlocal : task.localFolder = some folder := by
    rw [← hfolder, hsame]
    exact hkept (by rintro ⟨⟩)
  unfold storeFolderOf storeFolder
  rw [hlocal]
  exact congrArg PosixPath.toString (if_neg hne)

theorem plain_downloadOutputs (s : SessionId) (t : TaskId) (remoteDir localDir : String)
    (files : List String) (h : ∀ row folder, S t = some row →
      row.localFolder = some folder → folder ≠ "" →
        localDir = (PosixPath.ofString folder).toString) :
    Plain S V (downloadOutputs s t remoteDir localDir files) := by
  have hfile : ∀ file errors, Plain S V (downloadFile s t localDir file errors) := by
    intro file errors
    refine meets_then (plain_attempt (plain_await trivial)) fun r => ?_
    cases r with
    | error e => trivial
    | ok u =>
      refine meets_then (plain_attempt (plain_await (o := .sftpGet s t file localDir) h))
        fun r => meets_then (plain_attempt (plain_await trivial)) fun ended => ?_
      split <;> trivial
  have hfiles : ∀ files errors, Plain S V (downloadFiles s t localDir files errors) := by
    intro files
    induction files with
    | nil => exact fun _ => trivial
    | cons file files ih =>
      intro errors
      refine meets_then (hfile file errors) fun r => ?_
      split
      · exact ih _
      · trivial
  have hremove : Plain S V (removeRemote s t remoteDir) :=
    plain_channel fun _ => plain_await trivial
  have hend : ∀ (errors : DownloadErrors) (e : Exc), Plain S V (if Exc.isException e then
        pure { errors with transient := errors.transient ++ [(remoteDir, e)] }
      else raise e : Prog DownloadErrors) := by
    intro errors e
    split <;> trivial
  refine meets_then (hfiles files _) fun r => ?_
  obtain ⟨errors, ended⟩ := r
  cases ended with
  | error e => exact hend errors e
  | ok u =>
    dsimp only
    split
    · refine meets_then (plain_attempt hremove) fun ended => ?_
      cases ended with
      | ok u => trivial
      | error e => exact hend errors e
    · trivial

/-- A finalised task is the one that was running. -/
theorem decideFinalisation_of {task : RunningTask} (h : task.anyRunning.Of S)
    {localFolder remoteFolder : String} {errors : DownloadErrors} {storeFolder : String}
    {d : DoneTask}
    (hd : decideFinalisation task localFolder remoteFolder errors storeFolder = some d) :
    d.anyDone.Of S := by
  unfold decideFinalisation at hd
  split at hd
  · cases hd
  · dsimp only at hd
    split at hd
    · cases hd
      exact complete_of h _ _
    · cases hd
      exact fail_of h _ _ _

theorem plain_consumeTask (cfg : Settings) (t : TaskId) (s : SessionId) :
    Plain S V (consumeTask cfg t s) := by
  refine meets_bind (meets_within fun c => meets_getRunning c t) fun task htask => ?_
  cases task with
  | none => exact meets_then (plain_ask trivial) fun _ => trivial
  | some task =>
    have h := htask task rfl
    dsimp only
    split
    · exact meets_then (plain_saveTransaction cfg (fail_of h _ _ _)) fun _ =>
        meets_then (plain_ask trivial) fun _ => trivial
    · refine meets_then (plain_await trivial) fun _ =>
        meets_then (plain_downloadOutputs _ _ _ _ _ fun row folder hrow hfolder hne =>
          storeFolder_of cfg h hrow hfolder hne) fun errors => ?_
      unfold finalizeTask
      split
      · trivial
      · rename_i d hdec
        exact meets_then (plain_saveTransaction cfg (decideFinalisation_of h hdec))
          fun _ => meets_then (plain_ask trivial) fun _ => trivial

/-! ## Nodes -/

theorem plain_disableNode (cfg : Settings) (n : NodeId) : Plain S V (disableNode cfg n) :=
  plain_transaction cfg fun c => plain_disable c n

theorem plain_deallocateNode (cfg : Settings) {node : Node} (h : V node.endpoint) :
    Plain S V (deallocateNode cfg node) := by
  have hrow : Plain S V (removeNodeRow cfg node.nodeId) :=
    meets_exceptException (plain_removeTransaction cfg _) fun _ => trivial
  have hteardown : Plain S V (teardownNode cfg node) := by
    have hrest : Plain S V (do
        if node.hasCloud then
          disableNode cfg node.nodeId
          cloudsDeallocate cfg node
        removeNodeRow cfg node.nodeId : Prog Unit) := by
      dsimp only
      split
      · exact meets_then (plain_disableNode cfg _) fun _ =>
          meets_then (plain_cloudsDeallocate cfg h) fun _ => hrow
      · exact hrow
    refine meets_then (plain_ask trivial) fun connected => ?_
    cases connected with
    | true => exact meets_then (plain_disconnect _) fun _ => hrest
    | false => exact hrest
  refine meets_then (plain_ask trivial) fun s => ?_
  cases s with
  | none => exact hteardown
  | some s =>
    refine meets_then (plain_ask trivial) fun state => ?_
    split
    · trivial
    · exact hteardown

/-- The nodes to be torn down are rows. -/
theorem meets_deallocateNodes (cfg : Settings) (idle : Store.Dict NodeId Nat) :
    (dataContract S V).Meets (fun nodes => ∀ node ∈ nodes, V (Node.toNewNode node).endpoint)
      (deallocateNodes cfg idle) := by
  have hall : ∀ nodes, Plain S V (disableAll cfg nodes) := by
    intro nodes
    induction nodes with
    | nil => trivial
    | cons node nodes ih => exact meets_then (plain_disableNode cfg _) fun _ => ih
  have hidle : ∀ now enabled ccfgs, Plain S V (disableIdle cfg idle now enabled ccfgs) := by
    intro now enabled ccfgs
    induction ccfgs with
    | nil => trivial
    | cons ccfg ccfgs ih => exact meets_then (hall _) fun _ => ih
  refine meets_then (meets_within fun c => meets_then (plain_listRunning c) fun _ =>
    meets_then (plain_await trivial) fun _ => trivial) fun r => ?_
  exact meets_then (plain_ask trivial) fun now => meets_then (hidle now _ _) fun _ =>
    meets_within fun c => meets_bind (meets_await (o := .sql c .nodeListDisabled) trivial)
      fun disabled h node hnode => h node (List.mem_of_mem_filter hnode)

theorem plain_abandonNode (cfg : Settings) {node : Node} (h : V node.endpoint) :
    Plain S V (abandonNode cfg node) := by
  have hrow : Plain S V (abandonRow cfg node.nodeId) :=
    meets_exceptException (plain_removeTransaction cfg _) fun e => by split <;> trivial
  refine meets_tryFinally (P := fun _ => True) ?_
    (meets_then (plain_ask trivial) fun _ => trivial)
  split
  · exact meets_then (plain_disableNode cfg _) fun _ =>
      meets_then (plain_cloudsDeallocate cfg h) fun _ => hrow
  · exact hrow

theorem plain_connectMachineConsumer (cfg : Settings) {node : Node} (h : V node.endpoint) :
    Plain S V (connectMachineConsumer cfg node) := by
  have herror : Plain S V (onConnectionError cfg node) := by
    unfold onConnectionError
    split
    · trivial
    · refine meets_then (plain_ask trivial) fun first =>
        meets_then (plain_ask trivial) fun now => ?_
      split
      · trivial
      · exact meets_then (plain_suppress (plain_abandonNode cfg h)) fun _ =>
          plain_ask trivial
  refine meets_exceptException ?_ fun e => ?_
  · refine meets_then (meets_tryCatch (plain_await trivial) fun e => ?_) fun _ =>
      meets_then (plain_await (o := .connectMachine node) h) fun _ => plain_ask trivial
    split <;> trivial
  · split
    · exact herror
    · trivial

theorem plain_addNode (cfg : Settings) (spec : HostSpec) (skipSetup : Bool)
    (hV : V (tmpNodeOf cfg spec).endpoint) : Plain S V (addNode cfg spec skipSetup) := by
  have hinsert : (dataContract S V).Meets (fun node => V (Node.toNewNode node).endpoint)
      (Uow.within fun c => do
        let tmp ← Nodes.insert c (tmpNodeOf cfg spec)
        Uow.commit cfg c
        return tmp) :=
    meets_within fun c =>
      meets_bind (meets_await (o := .sql c (.nodeInsert (tmpNodeOf cfg spec)))
        (.inl hV))
        fun tmp htmp => meets_then (plain_commit cfg c) fun _ => by
          have hrow : tmp.toNewNode = tmpNodeOf cfg spec := htmp
          show V tmp.endpoint
          rw [hrow]
          exact hV
  refine meets_bind hinsert fun tmp h => ?_
  have hupdate : Plain S V (Uow.within fun c => do
      Nodes.update c { tmp with enabled := true }
      Uow.commit cfg c) :=
    plain_transaction cfg fun c => plain_update c h
  refine meets_tryFinally (P := fun _ => True) (meets_then ?_ fun s => ?_)
    (plain_disconnect _)
  · exact meets_exceptException (plain_await (o := .connectMachine tmp) h) fun _ =>
      meets_then (plain_suppress (plain_removeTransaction cfg _)) fun _ => trivial
  · cases skipSetup with
    | true => exact hupdate
    | false => exact meets_then (plain_await trivial) fun _ => hupdate

theorem plain_removeNodeHard (cfg : Settings) (node : Node) :
    Plain S V (removeNodeHard cfg node) := by
  have hall : ∀ c ids, Plain S V (abandonTasks c ids) := by
    intro c ids
    induction ids with
    | nil => trivial
    | cons t ids ih =>
      refine meets_bind (meets_getRunning c t) fun task htask => ?_
      cases task with
      | none => exact ih
      | some task =>
        exact meets_then (plain_save c (abandon_of (htask task rfl)) none) fun _ => ih
  exact meets_within fun c => meets_then (plain_await trivial) fun ids =>
    meets_then (hall c ids) fun _ => meets_then (plain_remove c _) fun _ => plain_commit cfg c

theorem plain_removeNodeSoft (cfg : Settings) (node : Node) :
    Plain S V (removeNodeSoft cfg node) := by
  refine meets_within fun c => meets_then (plain_await trivial) fun ids => ?_
  split
  · exact meets_then (plain_remove c _) fun _ => plain_commit cfg c
  · exact meets_then (plain_disable c _) fun _ => plain_commit cfg c

/-! ## The loops of the daemon

Producers put into a queue what they have read, and workers take it out at some
later time, when the row may have changed. A message therefore carries its task
or node as it was when it was read, and what is promised of it is what does not
change: the submission, and the endpoint of a machine that is known. -/

theorem plain_putAll (q : QueueName) (ms : List q.Payload)
    (h : ∀ m ∈ ms, (dataContract S V).op (.queuePut q m)) : Plain S V (putAll q ms) := by
  induction ms with
  | nil => trivial
  | cons m ms ih =>
    exact meets_then (plain_await (h m List.mem_cons_self)) fun _ =>
      ih fun m' hm => h m' (List.mem_cons_of_mem _ hm)

theorem plain_producerCycle {x : Prog Unit} (h : Plain S V x) : Plain S V (producerCycle x) :=
  meets_exceptException h fun _ => trivial

theorem plain_workerCycle (q : QueueName) {x : q.Payload → Prog Unit}
    (h : ∀ m, (dataContract S V).res (.queueGet q) m → Plain S V (x m)) :
    Plain S V (workerCycle q x) :=
  meets_bind (meets_await (o := .queueGet q) trivial) fun m hm =>
    meets_tryFinally (P := fun _ => True) (meets_exceptException (h m hm) fun _ => trivial)
      (plain_ask trivial)

/-- **The machines to be connected are rows.** A row that only reserves a place is
not enabled, and no task runs on it. -/
theorem plain_connectMachineProducer : Plain S V connectMachineProducer := by
  have hnew : ∀ nodes : List Node, (∀ node ∈ nodes, V node.endpoint) →
      (dataContract S V).Meets (fun new => ∀ node ∈ new, V (Node.toNewNode node).endpoint)
        (notConnected nodes) := by
    intro nodes h
    induction nodes with
    | nil => exact h
    | cons node nodes ih =>
      refine meets_then (plain_ask trivial) fun connected => meets_bind
        (ih fun n hn => h n (List.mem_cons_of_mem node hn)) fun rest hrest => ?_
      cases connected with
      | true => exact hrest
      | false => exact List.forall_mem_cons.mpr ⟨h node List.mem_cons_self, hrest⟩
  refine meets_bind (Q := fun nodes => ∀ node ∈ nodes, V (Node.toNewNode node).endpoint)
    (meets_within fun c => ?_) fun nodes h => meets_bind (hnew nodes h) fun new hn =>
      plain_putAll .connMachine new hn
  refine meets_bind (meets_await (o := .sql c .nodeListEnabled) trivial) fun enabled he =>
    meets_then (plain_listRunning c) fun _ =>
      meets_bind (meets_await (o := .sql c .nodeListDisabled) trivial) fun disabled hd => ?_
  exact List.forall_mem_append.mpr ⟨he, fun node hnode => hd node (List.mem_of_mem_filter hnode)⟩

theorem plain_allocatorProducer (cfg : Settings) : Plain S V (allocatorProducer cfg) := by
  have hcap : Plain S V (cloudsGetCapacity cfg) :=
    meets_then (meets_within fun c => plain_await trivial) fun _ => trivial
  exact meets_then hcap fun _ => meets_then (plain_ask trivial) fun _ =>
    meets_then (meets_within fun c => meets_then (plain_await trivial) fun _ => trivial)
      fun tasks => plain_putAll .allocate tasks fun _ _ => trivial

/-- **A running task is queued as it was read.** The worker that gets it may have it
for a long time, and relies on what does not change. -/
theorem plain_taskConsumerProducer : Plain S V taskConsumerProducer := by
  refine meets_bind (meets_within fun c => meets_listRunning c) fun tasks htasks => ?_
  induction tasks with
  | nil => trivial
  | cons task tasks ih =>
    have hrest := ih fun t ht => htasks t (List.mem_cons_of_mem _ ht)
    refine meets_then (plain_ask trivial) fun consuming => ?_
    cases consuming with
    | true => exact hrest
    | false =>
      exact meets_then (plain_await (o := .queuePut .consume task)
        (htasks task List.mem_cons_self)) fun _ => hrest

theorem plain_taskConsumerConsumer (cfg : Settings) {task : RunningTask}
    (h : task.anyRunning.Of S) : Plain S V (taskConsumerConsumer cfg task) := by
  have hguarded : ∀ t s, Plain S V (consumeGuarded cfg t s) := by
    intro t s
    refine meets_then (plain_ask trivial) fun _ => meets_then
      (meets_tryFinally (P := fun _ => True) (plain_consumeTask cfg t s) (plain_ask trivial))
      fun finalised => ?_
    cases finalised with
    | true => exact plain_ask trivial
    | false => trivial
  have hfree : ∀ t s, Plain S V (consumeIfFree cfg t s) := by
    intro t s
    refine meets_then (plain_ask trivial) fun state =>
      meets_then (plain_ask trivial) fun started => ?_
    split
    · exact hguarded t s
    · trivial
  rw [taskConsumerConsumer_eq]
  refine ⟨trivial, fun found _ => ?_⟩
  cases found with
  | none =>
    refine meets_then (plain_ask trivial) fun count => ?_
    split
    · exact meets_tryFinally (P := fun _ => True)
        (plain_saveTransaction cfg (abandon_of h)) (plain_ask trivial)
    · trivial
  | some s =>
    refine meets_then (plain_ask trivial) fun started => ?_
    cases started with
    | true => exact hfree _ s
    | false =>
      cases cfg.engines.get task.engine with
      | none => exact hfree _ s
      | some engine =>
        refine meets_then (plain_ask trivial) fun _ => meets_then (plain_ask trivial)
          fun _ => meets_then (plain_ask trivial) fun s' => ?_
        cases s' with
        | none => trivial
        | some s' => exact hfree _ s'

/-- **Every program meets the contract**, if the host of its command line is
known. -/
theorem plain_program (cfg : Settings) (j : Job)
    (hh : ∀ spec skipSetup, j = .addNode spec skipSetup → V (tmpNodeOf cfg spec).endpoint) :
    Plain S V (j.program cfg) := by
  cases j with
  | connectProducer => exact plain_producerCycle plain_connectMachineProducer
  | connectWorker =>
    exact plain_workerCycle .connMachine fun node h => plain_connectMachineConsumer cfg h
  | allocateProducer => exact plain_producerCycle (plain_allocatorProducer cfg)
  | allocateWorker =>
    exact plain_workerCycle .allocate fun task _ => meets_exceptException
      (meets_then (plain_allocateTask cfg task.taskId) fun _ => trivial) fun _ => trivial
  | consumeProducer => exact plain_producerCycle plain_taskConsumerProducer
  | consumeWorker =>
    exact plain_workerCycle .consume fun task h => plain_taskConsumerConsumer cfg h
  | deallocateProducer =>
    exact plain_producerCycle (meets_then (plain_ask trivial) fun _ =>
      meets_bind (meets_deallocateNodes cfg _) fun nodes h =>
        plain_putAll .deallocate nodes h)
  | deallocateWorker =>
    exact plain_workerCycle .deallocate fun node h =>
      plain_suppress (plain_deallocateNode cfg h)
  | addNode spec skipSetup => exact plain_addNode cfg spec skipSetup (hh spec skipSetup rfl)
  | removeHard node => exact plain_removeNodeHard cfg node
  | removeSoft node => exact plain_removeNodeSoft cfg node

end DataFlow

end Yascheduler
