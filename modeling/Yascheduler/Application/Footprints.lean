import Yascheduler.System
import Yascheduler.Async.Footprint

/-!
# What each program can do

Every use case runs its statements in units of work of its own, and touches
only a few of the things the results about the scheduler look at: claiming
and saving tasks, occupying machines and spawning on them, fetching outputs,
changing node rows, dropping sessions, deleting VMs. The footprint of a
program is the set of these effects it can have at all; nothing here says
when or in which order.

## Why effects and not operations

A footprint in terms of operations would have to name every statement of every
repository, and would change with each of them. What the results need is
coarser, and finer in one place: for most of them it only matters whether a
program saves a task at all, but saving a running task under a guard on its
status is what a start is, and must be told apart from every other save. So the
effects are those distinctions that some result depends on, and an operation
without an effect may be used by anybody.

The lemmas come in the order of the source, repositories before use cases and
use cases before loops. When a use case gets another statement, its own lemma is
the one that changes.
-/

namespace Yascheduler

open Async Footprint

/-! ## Effects

A save is told apart by what it saves and under which guard. To save a running
task under the guard that its row is TO_DO is to claim it, to save a task that
is done is to finish or to reject it, and which of the two depends on whether
it has a node. The results are about these, and the statement behind them is
the same `UPDATE`. -/

/-- The effects the results look at. -/
inductive Effect where
  /-- a status-guarded save of a running task -/
  | claim
  /-- an unguarded save of a task finished without ever running -/
  | reject
  /-- an unguarded save of a task finished after running -/
  | finish
  /-- any other save -/
  | rawSave
  | occupy
  /-- undoing the occupation of a machine -/
  | release
  /-- writing to the directory of a task on its machine -/
  | upload
  | spawn
  | startCheck
  | markStarted
  /-- downloading outputs and removing them from the machine -/
  | fetch
  /-- taking a node out of the deallocation queue -/
  | takeNode
  | insertNode
  | updateNode
  | disableNode
  | removeNode
  | dropSession
  | deleteVm
  /-- taking the allocation lock, or giving it back -/
  | lock
  /-- setting or clearing the time of a first connection failure -/
  | timer
  /-- counting a tick that misses the machine of a task -/
  | miss
  /-- putting a message into a queue -/
  | put
deriving DecidableEq

/-- The effect of saving a task. -/
def saveEffect (task : AnyTask) (expected : Option TaskStatus) : Effect :=
  match task.state, expected with
  | .running _, some .toDo => .claim
  | .done s, none => if s.allocatedNodeId.isSome then .finish else .reject
  | _, _ => .rawSave

/-- The effect of a statement. -/
def Stmt.effect : Stmt → Option Effect
  | .taskUpdate task expected => some (saveEffect task expected)
  | .nodeInsert _ => some .insertNode
  | .nodeUpdate _ => some .updateNode
  | .nodeDisable _ => some .disableNode
  | .nodeRemove _ => some .removeNode
  | _ => none

/-- The effect of an operation. -/
def Op.effect : Op → Option Effect
  | .sql _ st => st.effect
  | .sftpMakedirs _ _ | .sftpWrite _ _ _ => some .upload
  | .runBg _ _ _ => some .spawn
  | .sftpGet _ _ _ _ | .sftpRmtree _ _ _ => some .fetch
  | .deleteNode _ _ => some .deleteVm
  | .queueGet .deallocate => some .takeNode
  | .lockAcquire => some .lock
  | .queuePut _ _ => some .put
  | _ => none

/-- The effect of a call. -/
def Call.effect : Call → Option Effect
  | .occupy _ => some .occupy
  | .release _ | .isClosed _ => some .release
  | .startOccupancyCheck _ _ => some .startCheck
  | .startedAdd _ => some .markStarted
  | .popSession _ => some .dropSession
  | .lockRelease => some .lock
  | .failureSetdefault _ | .failurePop _ => some .timer
  | .notFoundUpdate _ => some .miss
  | _ => none

/-- The connection a result opens. -/
def Op.opened : (o : Op) → o.Res → Option Nat
  | .connect, c => some c
  | _, _ => none

/-- **The footprint of a set of effects**: these effects, on connections of
its own. -/
def scope (K : Set Effect) : Footprint sig Nat where
  call c := ∀ k, c.effect = some k → k ∈ K
  op o := ∀ k, o.effect = some k → k ∈ K
  uses := Op.conn
  opens := Op.opened

variable {K : Set Effect} {own : Set Nat} {α : Type}

/-- A call with an effect that is allowed. -/
theorem inside_ask {c : Call} (h : ∀ k, c.effect = some k → k ∈ K) :
    (scope K).Inside own (ask c) :=
  inside_sync.mpr h

/-- A call without an effect. -/
theorem inside_plainAsk {c : Call} (h : c.effect = none) :
    (scope K).Inside own (ask c) :=
  inside_ask fun k hk => by rw [h] at hk; cases hk

/-- An operation with an effect that is allowed. -/
theorem inside_await {o : Op} (h : ∀ k, o.effect = some k → k ∈ K)
    (hc : ∀ c, o.conn = some c → c ∈ own) : (scope K).Inside own (await o) :=
  inside_op.mpr ⟨h, hc⟩

/-- An operation without an effect, and not on a connection. -/
theorem inside_plainAwait {o : Op} (h : o.effect = none) (hc : o.conn = none) :
    (scope K).Inside own (await o) :=
  inside_await (fun k hk => by rw [h] at hk; cases hk)
    (fun c hk => by rw [hc] at hk; cases hk)

/-- A statement on a connection of its own. -/
theorem inside_sql {c : Nat} {st : Stmt} (hc : c ∈ own)
    (h : ∀ k, st.effect = some k → k ∈ K) : (scope K).Inside own (await (.sql c st)) :=
  inside_await h fun c' hk => by cases hk; exact hc

theorem inside_exceptException {x : Prog α} {h : Exc → Prog α}
    (hx : (scope K).Inside own x) (hh : ∀ e, (scope K).Inside own (h e)) :
    (scope K).Inside own (exceptException x h) := by
  refine inside_tryCatch hx fun e => ?_
  by_cases he : e.isException
  · rw [if_pos he]
    exact hh e
  · rw [if_neg he]
    trivial

theorem inside_suppress {x : Prog Unit} (hx : (scope K).Inside own x) :
    (scope K).Inside own (suppress x) :=
  inside_exceptException hx fun _ => trivial

/-! ## Units of work

A unit of work opens its connection itself and closes it on every way out. What
it owns is therefore decided in one lemma, and the bodies only have to be
inside the footprint on a connection that they are handed. -/

section Uow

variable {c : Nat}

theorem inside_rollback (hc : c ∈ own) : (scope K).Inside own (Uow.rollback c) :=
  inside_bind (inside_await (fun _ h => nomatch h) fun _ h => Option.some.inj h ▸ hc)
    fun _ => inside_plainAsk rfl

theorem inside_close (hc : c ∈ own) : (scope K).Inside own (await (.close c)) :=
  inside_await (fun _ h => nomatch h) fun _ h => Option.some.inj h ▸ hc

theorem inside_exit (hc : c ∈ own) (e : Option Exc) :
    (scope K).Inside own (Uow.exit c e) := by
  unfold Uow.exit
  cases e with
  | none => exact inside_suppress (inside_close hc)
  | some e =>
    exact inside_bind (inside_suppress (inside_rollback hc)) fun _ =>
      inside_suppress (inside_close hc)

/-- What follows the opening of a unit of work owns its connection. -/
theorem inside_enter {f : Nat → Prog α}
    (h : ∀ c, (scope K).Inside (insert c own) (f c)) :
    (scope K).Inside own (Co.bind Uow.enter f) := by
  refine ⟨⟨(fun _ h => nomatch h), (fun _ h => nomatch h)⟩, fun r => ?_⟩
  cases r with
  | error e => trivial
  | ok c =>
    have hown : insert c own ⊆ (scope K).gain own .connect (.ok c) := by
      rintro n (rfl | hn)
      · exact .inr rfl
      · exact .inl hn
    have hc : c ∈ (scope K).gain own .connect (.ok c) := .inr rfl
    refine ⟨⟨(fun _ h => nomatch h), fun _ h => Option.some.inj h ▸ hc⟩, fun r => ?_⟩
    cases r with
    | ok u => exact ((h c).mono hown).mono (subset_gain _ _)
    | error e =>
      show (scope K).Inside _ (Co.bind (Co.bind (suppress (await (.close c)))
        fun _ => raise e) f)
      rw [Co.bind_assoc]
      exact inside_bind (inside_suppress (inside_close hc)) fun _ => trivial

/-- **A unit of work owns its connection.** It opens it and closes it, so the body
has to be inside on a connection that it did not choose. -/
theorem inside_within {body : Nat → Prog α}
    (h : ∀ c, (scope K).Inside (insert c own) (body c)) :
    (scope K).Inside own (Uow.within body) :=
  inside_enter fun c => inside_bind (inside_attempt (h c)) fun r =>
    inside_bind (inside_exit (Set.mem_insert c own) _) fun _ => inside_ofExcept r

theorem inside_dispatch (cfg : Settings) (es : List DomainEvent) :
    (scope K).Inside own (Uow.dispatch cfg es) := by
  induction es with
  | nil => trivial
  | cons e es ih =>
    unfold Uow.dispatch
    split
    · exact inside_bind (inside_suppress (inside_plainAwait rfl rfl)) fun _ => ih
    · exact ih

theorem inside_commit (cfg : Settings) (hc : c ∈ own) :
    (scope K).Inside own (Uow.commit cfg c) :=
  inside_bind (inside_await (fun _ h => nomatch h) fun _ h => Option.some.inj h ▸ hc)
    fun _ => inside_suppress (inside_bind (inside_plainAsk rfl) fun _ =>
      inside_bind (inside_dispatch cfg _) fun _ => inside_plainAsk rfl)
end Uow

/-! ## Units of work in an ignored footprint

A protocol that knows nothing of a connection is not interested in its end
either. So a whole unit of work can be passed over at once, with its COMMIT,
its ROLLBACK and its closing, as long as no statement in it is an event of the
protocol. -/

section Ignored

variable {L : Type} {P : Protocol sig L} {D : Set Nat} {l : L}

/-- Opening a unit of work gives a connection the protocol knows nothing of. -/
theorem ignored_enter (h : (scope K).Ignored P D l) : wp P.logic Uow.enter
    (fun r l' => l' = l ∧ ∀ c, r = .ok c → c ∉ D) l := by
  have hconnect := h.op .connect (fun _ hk => nomatch hk) fun _ hk => nomatch hk
  unfold Uow.enter
  rw [Co.bind_eq, wp_bind]
  refine Protocol.wp_op.mpr ⟨⟨hconnect.1, h.rest⟩, fun ch r hr => ?_,
    fun ch r hr => ?_, hconnect.2.2, fun c hc => nomatch hc⟩
  · rw [hconnect.2.1 ch r hr]
    cases r with
    | error e => exact ⟨rfl, fun c hc => nomatch hc⟩
    | ok c =>
      have hown : ∀ n ∈ ({c} : Set Nat), n ∉ D := by
        rintro n rfl
        exact h.opens .connect ch n n (fun _ hk => nomatch hk) hr rfl
      have hbegin : (scope K).Inside {c} (await (.begin c)) :=
        inside_await (fun _ hk => nomatch hk) fun _ hk => Option.some.inj hk ▸ rfl
      have hclose : (scope K).Inside {c} (suppress (await (.close c))) :=
        inside_suppress (inside_close rfl)
      show wp P.logic (Co.tryCatch _ _) _ l
      rw [wp_tryCatch, Co.bind_eq, wp_bind]
      refine wp_mono (h.wp hbegin hown) ?_
      rintro (e | u) l' rfl
      · show wp P.logic (Co.bind (suppress (await (.close c))) fun _ => raise e) _ l'
        rw [wp_bind]
        refine wp_mono (h.wp hclose hown) ?_
        rintro (_ | _) l'' rfl <;> exact ⟨rfl, fun c hc => nomatch hc⟩
      · exact ⟨rfl, fun c' hc => by cases hc; exact hown c rfl⟩
  · rw [hconnect.2.1 ch r hr]
    exact ⟨hconnect.2.2, fun c hc => nomatch hc⟩

/-- **A unit of work** whose body leaves the local state alone on a connection
the protocol knows nothing of. -/
theorem ignored_within (h : (scope K).Ignored P D l) {body : Nat → Prog α}
    (hbody : ∀ c, c ∉ D → wp P.logic (body c) (fun _ l' => l' = l) l) :
    wp P.logic (Uow.within body) (fun _ l' => l' = l) l := by
  unfold Uow.within
  rw [wp_asyncWith]
  refine wp_mono (ignored_enter h) ?_
  rintro (e | c) l' ⟨rfl, hc⟩
  · rfl
  · have hown : ∀ n ∈ ({c} : Set Nat), n ∉ D := by
      rintro n rfl
      exact hc n rfl
    refine wp_mono (hbody c (hc c rfl)) ?_
    rintro r l'' rfl
    have hexit : (scope K).Inside {c} (Uow.exit c (Co.errorOf r)) :=
      inside_exit (Set.mem_singleton c) _
    refine wp_mono (h.wp hexit hown) ?_
    rintro (e | u) l''' rfl <;> rfl

end Ignored

/-! ## Repositories -/

section Repositories

variable {c : Nat} (hc : c ∈ own)
include hc

theorem inside_save (task : AnyTask) (expected : Option TaskStatus)
    (h : saveEffect task expected ∈ K) :
    (scope K).Inside own (Tasks.save c task expected) := by
  refine inside_bind (inside_sql hc fun k hk => Option.some.inj hk ▸ h) fun found => ?_
  cases found with
  | true => exact inside_plainAsk rfl
  | false => trivial

/-- A statement that only reads. -/
theorem inside_read {st : Stmt} (h : st.effect = none) :
    (scope K).Inside own (await (.sql c st)) :=
  inside_sql hc fun k hk => by rw [h] at hk; cases hk

theorem inside_getTodo (t : TaskId) : (scope K).Inside own (Tasks.getTodo c t) :=
  inside_bind (inside_read hc rfl) fun _ => trivial

theorem inside_getRunning (t : TaskId) : (scope K).Inside own (Tasks.getRunning c t) :=
  inside_bind (inside_read hc rfl) fun _ => trivial

theorem inside_listTodo (limit : Option Nat) :
    (scope K).Inside own (Tasks.listTodo c limit) :=
  inside_bind (inside_read hc rfl) fun _ => trivial

theorem inside_listRunning : (scope K).Inside own (Tasks.listRunning c) :=
  inside_bind (inside_read hc rfl) fun _ => trivial

omit hc in
theorem inside_mustMatch (n : NodeId) (found : Bool) :
    (scope K).Inside own (Nodes.mustMatch n found) := by
  cases found <;> trivial

theorem inside_insert (row : NewNode) (h : Effect.insertNode ∈ K) :
    (scope K).Inside own (Nodes.insert c row) :=
  inside_sql hc fun _ hk => Option.some.inj hk ▸ h

theorem inside_update (node : Node) (h : Effect.updateNode ∈ K) :
    (scope K).Inside own (Nodes.update c node) :=
  inside_bind (inside_sql hc fun _ hk => Option.some.inj hk ▸ h) fun _ =>
    inside_mustMatch _ _

theorem inside_disable (n : NodeId) (h : Effect.disableNode ∈ K) :
    (scope K).Inside own (Nodes.disable c n) :=
  inside_bind (inside_sql hc fun _ hk => Option.some.inj hk ▸ h) fun _ =>
    inside_mustMatch _ _

theorem inside_remove (n : NodeId) (h : Effect.removeNode ∈ K) :
    (scope K).Inside own (Nodes.remove c n) :=
  inside_bind (inside_sql hc fun _ hk => Option.some.inj hk ▸ h) fun _ =>
    inside_mustMatch _ _

end Repositories

/-- A unit of work that ends with its commit. -/
theorem inside_transaction (cfg : Settings) {body : Nat → Prog Unit}
    (h : ∀ c, (scope K).Inside (insert c own) (body c)) :
    (scope K).Inside own (Uow.within fun c => do body c; Uow.commit cfg c) :=
  inside_within fun c => inside_bind (h c) fun _ =>
    inside_commit cfg (Set.mem_insert c own)

theorem inside_saveTransaction (cfg : Settings) (task : AnyTask)
    (h : saveEffect task none ∈ K) : (scope K).Inside own
      (Uow.within fun c => do Tasks.save c task; Uow.commit cfg c) :=
  inside_transaction cfg fun c => inside_save (Set.mem_insert c own) task none h

theorem inside_removeTransaction (cfg : Settings) (n : NodeId)
    (h : Effect.removeNode ∈ K) : (scope K).Inside own
      (Uow.within fun c => do Nodes.remove c n; Uow.commit cfg c) :=
  inside_transaction cfg fun c => inside_remove (Set.mem_insert c own) n h

/-! ## Starting a task -/

theorem inside_writeInputs (s : SessionId) (task : RunningTask) (dir : String)
    (files : List String) (h : Effect.upload ∈ K) :
    (scope K).Inside own (writeInputs s task dir files) := by
  induction files with
  | nil => trivial
  | cons file files ih =>
    unfold writeInputs
    cases task.extra.lookup file with
    | none => trivial
    | some data =>
      exact inside_bind (inside_await (fun _ hk => Option.some.inj hk ▸ h)
        fun _ hk => nomatch hk) fun _ => ih

/-- What is done over a channel that is opened before and closed after. -/
theorem inside_channel {s : SessionId} {body : Unit → Prog α}
    (h : ∀ u, (scope K).Inside own (body u)) : (scope K).Inside own
      (Co.asyncWith (await (.sftpOpen s)) (fun _ _ => await (.sftpClose s)) body) :=
  inside_asyncWith (inside_plainAwait rfl rfl) (fun _ _ => inside_plainAwait rfl rfl) h

theorem inside_uploadTaskData (s : SessionId) (task : RunningTask) (dir : String)
    (files : List String) (h : Effect.upload ∈ K) :
    (scope K).Inside own (uploadTaskData s task dir files) :=
  inside_channel fun _ => inside_bind (inside_await
    (fun _ hk => Option.some.inj hk ▸ h) fun _ hk => nomatch hk) fun _ =>
      inside_bind (inside_writeInputs s task dir files h) fun _ => trivial

/-! ## Machines and clouds

Provisioning has more effects than one would think: a node that could not be
set up is given back at once, so its session is dropped and its VM is deleted
by the same use case that has created it. -/

theorem inside_closeSession (s : SessionId) : (scope K).Inside own (closeSession s) := by
  refine inside_bind (inside_plainAsk rfl) fun monitored => ?_
  have hclose : (scope K).Inside own (do
      let wasOpen ← ask (.closeConn s)
      if wasOpen then await (.waitClosed s) : Prog Unit) := by
    refine inside_bind (inside_plainAsk rfl) fun wasOpen => ?_
    cases wasOpen with
    | true => exact inside_plainAwait rfl rfl
    | false => trivial
  match monitored with
  | none => trivial
  | some false => exact hclose
  | some true =>
    refine inside_bind (inside_tryCatch (inside_plainAwait rfl rfl) fun e => ?_)
      fun _ => hclose
    by_cases he : e = Exc.cancelled
    · rw [if_pos he]; trivial
    · rw [if_neg he]; trivial

theorem inside_disconnect (n : NodeId) (h : Effect.dropSession ∈ K) :
    (scope K).Inside own (disconnect n) := by
  refine inside_bind (inside_ask fun _ hk => Option.some.inj hk ▸ h) fun s => ?_
  cases s with
  | none => trivial
  | some s => exact inside_closeSession s

theorem inside_cloudsDeallocate (cfg : Settings) (node : Node)
    (h : Effect.deleteVm ∈ K) : (scope K).Inside own (cloudsDeallocate cfg node) := by
  unfold cloudsDeallocate
  split
  · trivial
  · split
    · exact inside_await (fun _ hk => Option.some.inj hk ▸ h) fun _ hk => nomatch hk
    · trivial

theorem inside_setupVm (cfg : Settings) (node : Node) (adapter : String) :
    (scope K).Inside own (setupVm cfg node adapter) := by
  have hconnect : (scope K).Inside own (connectToVm node) :=
    inside_bind (inside_plainAwait rfl rfl) fun _ =>
      inside_exceptException (inside_plainAwait rfl rfl) fun _ => trivial
  refine inside_bind hconnect fun s => ?_
  have hsetup : (scope K).Inside own (do
      exceptException (await (.setupNode s)) fun e =>
        raise (.cloudSetup ("Setup node " ++ node.hostname ++ " failed: " ++ e.str))
      return { node with enabled := true } : Prog Node) :=
    inside_bind (inside_exceptException (inside_plainAwait rfl rfl) fun _ => trivial)
      fun _ => trivial
  split
  · refine inside_bind (inside_exceptException (inside_plainAwait rfl rfl)
      fun _ => trivial) fun code => ?_
    split
    · exact inside_bind trivial fun _ => hsetup
    · exact hsetup
  · exact hsetup

theorem inside_cloudsAllocate (cfg : Settings) (provider : String) (node : Node)
    (hd : Effect.deleteVm ∈ K) (hs : Effect.dropSession ∈ K) :
    (scope K).Inside own (cloudsAllocate cfg provider node) := by
  have hteardown : ∀ adapter (node : Node) dto e,
      (scope K).Inside own (teardownVm adapter node dto e) := by
    intro adapter node dto e
    refine inside_bind (inside_tryCatch (inside_disconnect _ hs) fun _ => trivial)
      fun _ => inside_bind (inside_tryCatch (inside_await
        (fun _ hk => Option.some.inj hk ▸ hd) fun _ hk => nomatch hk)
        fun _ => trivial) fun _ => ?_
    split <;> trivial
  unfold cloudsAllocate
  split
  · trivial
  · trivial
  · refine inside_asyncWith (inside_plainAwait rfl rfl)
      (fun _ _ => inside_plainAsk rfl) fun _ => ?_
    refine inside_bind (inside_exceptException (inside_bind (inside_plainAwait rfl rfl)
      fun _ => inside_plainAwait rfl rfl) fun _ => trivial) fun dto => ?_
    exact inside_tryCatch (inside_setupVm _ _ _) (hteardown _ _ _)

/-! ## Consuming a task -/

theorem inside_downloadFile (s : SessionId) (t : TaskId) (dir file : String)
    (errors : DownloadErrors) (h : Effect.fetch ∈ K) :
    (scope K).Inside own (downloadFile s t dir file errors) := by
  refine inside_bind (inside_attempt (inside_plainAwait rfl rfl)) fun r => ?_
  cases r with
  | error e => trivial
  | ok u =>
    refine inside_bind (inside_attempt (inside_await
      (fun _ hk => Option.some.inj hk ▸ h) (by rintro _ ⟨⟩))) fun r => ?_
    refine inside_bind (inside_attempt (inside_plainAwait rfl rfl)) fun ended => ?_
    split <;> trivial

theorem inside_downloadFiles (s : SessionId) (t : TaskId) (dir : String)
    (files : List String) (errors : DownloadErrors) (h : Effect.fetch ∈ K) :
    (scope K).Inside own (downloadFiles s t dir files errors) := by
  induction files generalizing errors with
  | nil => trivial
  | cons file files ih =>
    refine inside_bind (inside_downloadFile s t dir file errors h) fun r => ?_
    split
    · exact ih _
    · trivial

theorem inside_downloadOutputs (s : SessionId) (t : TaskId)
    (remoteDir localDir : String) (files : List String) (h : Effect.fetch ∈ K) :
    (scope K).Inside own (downloadOutputs s t remoteDir localDir files) := by
  have hremove : (scope K).Inside own (removeRemote s t remoteDir) :=
    inside_channel fun _ => inside_await (fun _ hk => Option.some.inj hk ▸ h)
      (by rintro _ ⟨⟩)
  refine inside_bind (inside_downloadFiles s t localDir files _ h) fun r => ?_
  have hend : ∀ (errors : DownloadErrors) (e : Exc),
      (scope K).Inside own (if Exc.isException e then
          pure { errors with transient := errors.transient ++ [(remoteDir, e)] }
        else raise e : Prog DownloadErrors) := by
    intro errors e
    split <;> trivial
  obtain ⟨errors, ended⟩ := r
  cases ended with
  | error e => exact hend errors e
  | ok u =>
    dsimp only
    split
    · refine inside_bind (inside_attempt hremove) fun ended => ?_
      cases ended with
      | ok u => trivial
      | error e => exact hend errors e
    · trivial

/-- A task finished after running still has its node. -/
theorem finish_mem (task : RunningTask) (d : DoneTask)
    (hd : d.state.allocatedNodeId = some task.state.allocatedNodeId)
    (h : Effect.finish ∈ K) : saveEffect d.anyDone none ∈ K := by
  have he : saveEffect d.anyDone none = .finish := by
    simp only [saveEffect, Task.anyDone, Task.withState, hd, Option.isSome_some, if_true]
  rw [he]
  exact h

theorem decideFinalisation_node {task : RunningTask} {localFolder remoteFolder : String}
    {errors : DownloadErrors} {storeFolder : String} {d : DoneTask}
    (h : decideFinalisation task localFolder remoteFolder errors storeFolder = some d) :
    d.state.allocatedNodeId = some task.state.allocatedNodeId := by
  unfold decideFinalisation at h
  split at h
  · cases h
  · dsimp only at h
    split at h <;> cases h <;> rfl

theorem inside_consumeTask (cfg : Settings) (t : TaskId) (s : SessionId)
    (hf : Effect.fetch ∈ K) (hd : Effect.finish ∈ K) :
    (scope K).Inside own (consumeTask cfg t s) := by
  refine inside_bind (inside_within fun c =>
    inside_getRunning (Set.mem_insert c own) t) fun task => ?_
  cases task with
  | none => exact inside_bind (inside_plainAsk rfl) fun _ => trivial
  | some task =>
    dsimp only
    split
    · exact inside_bind (inside_saveTransaction cfg _ (finish_mem task _ rfl hd))
        fun _ => inside_bind (inside_plainAsk rfl) fun _ => trivial
    · refine inside_bind (inside_plainAwait rfl rfl) fun _ =>
        inside_bind (inside_downloadOutputs _ _ _ _ _ hf) fun errors => ?_
      unfold finalizeTask
      split
      · trivial
      · rename_i d hdec
        exact inside_bind (inside_saveTransaction cfg _
          (finish_mem task d (decideFinalisation_node hdec) hd))
          fun _ => inside_bind (inside_plainAsk rfl) fun _ => trivial

/-! ## Deallocating and abandoning -/

theorem inside_removeNodeRow (cfg : Settings) (n : NodeId)
    (h : Effect.removeNode ∈ K) : (scope K).Inside own (removeNodeRow cfg n) :=
  inside_exceptException (inside_removeTransaction cfg n h) fun _ => trivial

theorem inside_disableNode (cfg : Settings) (n : NodeId)
    (h : Effect.disableNode ∈ K) : (scope K).Inside own (disableNode cfg n) :=
  inside_transaction cfg fun c => inside_disable (Set.mem_insert c own) n h

theorem inside_deallocateNode (cfg : Settings) (node : Node)
    (hs : Effect.dropSession ∈ K) (hd : Effect.disableNode ∈ K)
    (hv : Effect.deleteVm ∈ K) (hr : Effect.removeNode ∈ K) :
    (scope K).Inside own (deallocateNode cfg node) := by
  have hteardown : (scope K).Inside own (teardownNode cfg node) := by
    have hrest : (scope K).Inside own (do
        if node.hasCloud then
          disableNode cfg node.nodeId
          cloudsDeallocate cfg node
        removeNodeRow cfg node.nodeId : Prog Unit) := by
      dsimp only
      split
      · exact inside_bind (inside_disableNode cfg _ hd) fun _ =>
          inside_bind (inside_cloudsDeallocate cfg node hv) fun _ =>
            inside_removeNodeRow cfg _ hr
      · exact inside_removeNodeRow cfg _ hr
    refine inside_bind (inside_plainAsk rfl) fun connected => ?_
    cases connected with
    | true => exact inside_bind (inside_disconnect _ hs) fun _ => hrest
    | false => exact hrest
  refine inside_bind (inside_plainAsk rfl) fun s => ?_
  cases s with
  | none => exact hteardown
  | some s =>
    refine inside_bind (inside_plainAsk rfl) fun state => ?_
    split
    · trivial
    · exact hteardown

theorem inside_disableIdle (cfg : Settings) (idle : Store.Dict NodeId Nat) (now : Nat)
    (enabled : List Node) (ccfgs : List CloudConfig) (h : Effect.disableNode ∈ K) :
    (scope K).Inside own (disableIdle cfg idle now enabled ccfgs) := by
  have hall : ∀ nodes, (scope K).Inside own (disableAll cfg nodes) := by
    intro nodes
    induction nodes with
    | nil => trivial
    | cons node nodes ih => exact inside_bind (inside_disableNode cfg _ h) fun _ => ih
  induction ccfgs with
  | nil => trivial
  | cons ccfg ccfgs ih => exact inside_bind (hall _) fun _ => ih

theorem inside_deallocateNodes (cfg : Settings) (idle : Store.Dict NodeId Nat)
    (h : Effect.disableNode ∈ K) :
    (scope K).Inside own (deallocateNodes cfg idle) := by
  refine inside_bind (inside_within fun c => ?_) fun r => ?_
  · exact inside_bind (inside_listRunning (Set.mem_insert c own)) fun _ =>
      inside_bind (inside_read (Set.mem_insert c own) rfl) fun _ => trivial
  · exact inside_bind (inside_plainAsk rfl) fun now =>
      inside_bind (inside_disableIdle cfg idle now _ _ h) fun _ =>
        inside_within fun c => inside_bind
          (inside_read (Set.mem_insert c own) rfl) fun _ => trivial

theorem inside_abandonNode (cfg : Settings) (node : Node)
    (hd : Effect.disableNode ∈ K) (hv : Effect.deleteVm ∈ K)
    (hr : Effect.removeNode ∈ K) : (scope K).Inside own (abandonNode cfg node) := by
  have hrow : (scope K).Inside own (abandonRow cfg node.nodeId) :=
    inside_exceptException (inside_removeTransaction cfg _ hr) fun e => by
      split <;> trivial
  refine inside_tryFinally ?_ (inside_bind (inside_plainAsk rfl) fun _ => trivial)
  split
  · exact inside_bind (inside_disableNode cfg _ hd) fun _ =>
      inside_bind (inside_cloudsDeallocate cfg node hv) fun _ => hrow
  · exact hrow

/-! ## The loops of the daemon

Each cycle of a loop is a program of its own, and the footprint of the loop is
that of its cycles. The messages do not matter: a worker must stay inside its
footprint whatever it has been sent. -/

theorem inside_put (q : QueueName) (m : q.Payload) (h : Effect.put ∈ K) :
    (scope K).Inside own (await (.queuePut q m)) :=
  inside_await (fun _ hk => Option.some.inj hk ▸ h) fun _ hk => nomatch hk

theorem inside_putAll (q : QueueName) (ms : List q.Payload) (h : Effect.put ∈ K) :
    (scope K).Inside own (putAll q ms) := by
  induction ms with
  | nil => trivial
  | cons m ms ih => exact inside_bind (inside_put q m h) fun _ => ih

theorem inside_producerCycle {x : Prog Unit} (h : (scope K).Inside own x) :
    (scope K).Inside own (producerCycle x) :=
  inside_exceptException h fun _ => trivial

theorem inside_workerCycle (q : QueueName) {x : q.Payload → Prog Unit}
    (hq : q = .deallocate → Effect.takeNode ∈ K)
    (h : ∀ m, (scope K).Inside own (x m)) :
    (scope K).Inside own (workerCycle q x) := by
  refine inside_bind (inside_await (fun k hk => ?_) fun _ hk => nomatch hk) fun m =>
    inside_tryFinally (inside_exceptException (h m) fun _ => trivial)
      (inside_plainAsk rfl)
  cases q <;> first | exact Option.some.inj hk ▸ hq rfl | exact nomatch hk

theorem inside_notConnected (nodes : List Node) :
    (scope K).Inside own (notConnected nodes) := by
  induction nodes generalizing own with
  | nil => trivial
  | cons node nodes ih =>
    exact inside_bind (inside_plainAsk rfl) fun _ => inside_bind ih fun _ => trivial

theorem inside_enabledOrDraining : (scope K).Inside own enabledOrDraining := by
  refine inside_within fun c => ?_
  have hc := Set.mem_insert c own
  exact inside_bind (inside_read hc rfl) fun _ =>
    inside_bind (inside_listRunning hc) fun _ =>
      inside_bind (inside_read hc rfl) fun _ => trivial

theorem inside_connectProducer (h : Effect.put ∈ K) :
    (scope K).Inside own connectMachineProducer := by
  exact inside_bind inside_enabledOrDraining fun nodes =>
    inside_bind (inside_notConnected nodes) fun new => inside_putAll .connMachine new h

theorem inside_connectConsumer (cfg : Settings) (node : Node)
    (hd : Effect.disableNode ∈ K) (hv : Effect.deleteVm ∈ K)
    (hr : Effect.removeNode ∈ K) (ht : Effect.timer ∈ K) :
    (scope K).Inside own (connectMachineConsumer cfg node) := by
  have hpop : ∀ own, (scope K).Inside own (ask (.failurePop node.nodeId)) := fun own =>
    inside_ask fun _ hk => Option.some.inj hk ▸ ht
  have herror : (scope K).Inside own (onConnectionError cfg node) := by
    unfold onConnectionError
    split
    · trivial
    · refine inside_bind (inside_ask fun _ hk => Option.some.inj hk ▸ ht) fun first =>
        inside_bind (inside_plainAsk rfl) fun now => ?_
      split
      · trivial
      · exact inside_bind (inside_suppress (inside_abandonNode cfg node hd hv hr))
          fun _ => hpop _
  refine inside_exceptException ?_ fun e => ?_
  · refine inside_bind (inside_tryCatch (inside_plainAwait rfl rfl) fun e => ?_)
      fun _ => inside_bind (inside_plainAwait rfl rfl) fun _ => hpop _
    split <;> trivial
  · split
    · exact herror
    · trivial

theorem inside_allocatorProducer (cfg : Settings) (h : Effect.put ∈ K) :
    (scope K).Inside own (allocatorProducer cfg) := by
  have hcap : (scope K).Inside own (cloudsGetCapacity cfg) :=
    inside_bind (inside_within fun c => inside_read (Set.mem_insert c own) rfl)
      fun _ => trivial
  exact inside_bind hcap fun _ => inside_bind (inside_plainAsk rfl) fun _ =>
    inside_bind (inside_within fun c => inside_listTodo (Set.mem_insert c own) _)
      fun tasks => inside_putAll .allocate tasks h

theorem inside_consumeProducer (h : Effect.put ∈ K) :
    (scope K).Inside own taskConsumerProducer := by
  refine inside_bind (inside_within fun c =>
    inside_listRunning (Set.mem_insert c own)) fun tasks => ?_
  induction tasks with
  | nil => trivial
  | cons task tasks ih =>
    refine inside_bind (inside_plainAsk rfl) fun consuming => ?_
    cases consuming with
    | true => exact ih
    | false => exact inside_bind (inside_put .consume task h) fun _ => ih

theorem inside_consumeAt (cfg : Settings) (task : RunningTask) (s : SessionId)
    (hf : Effect.fetch ∈ K) (hd : Effect.finish ∈ K) (hm : Effect.markStarted ∈ K)
    (hs : Effect.startCheck ∈ K) : (scope K).Inside own (consumeAt cfg task s) := by
  have hguarded : ∀ t s, (scope K).Inside own (consumeGuarded cfg t s) := by
    intro t s
    refine inside_bind (inside_plainAsk rfl) fun _ => inside_bind
      (inside_tryFinally (inside_consumeTask cfg t s hf hd) (inside_plainAsk rfl))
      fun finalised => ?_
    cases finalised with
    | true => exact inside_plainAsk rfl
    | false => trivial
  have hfree : ∀ t s, (scope K).Inside own (consumeIfFree cfg t s) := by
    intro t s
    refine inside_bind (inside_plainAsk rfl) fun state =>
      inside_bind (inside_plainAsk rfl) fun started => ?_
    split
    · exact hguarded t s
    · trivial
  refine inside_bind (inside_plainAsk rfl) fun started => ?_
  cases started with
  | true => exact hfree _ s
  | false =>
    cases cfg.engines.get task.engine with
    | none => exact hfree _ s
    | some engine =>
      refine inside_bind (inside_ask fun _ hk => Option.some.inj hk ▸ hs) fun _ =>
        inside_bind (inside_ask fun _ hk => Option.some.inj hk ▸ hm) fun _ =>
          inside_bind (inside_plainAsk rfl) fun s' => ?_
      cases s' with
      | none => trivial
      | some s' => exact hfree _ s'

theorem inside_abandonTask (cfg : Settings) (task : RunningTask) (hd : Effect.finish ∈ K) :
    (scope K).Inside own (abandonTask cfg task) :=
  inside_tryFinally (inside_saveTransaction cfg _ (finish_mem task _ rfl hd))
    (inside_plainAsk rfl)

theorem inside_consumeConsumer (cfg : Settings) (task : RunningTask)
    (hf : Effect.fetch ∈ K) (hd : Effect.finish ∈ K) (hm : Effect.markStarted ∈ K)
    (hs : Effect.startCheck ∈ K) (hn : Effect.miss ∈ K) :
    (scope K).Inside own (taskConsumerConsumer cfg task) := by
  rw [taskConsumerConsumer_eq]
  refine ⟨fun _ hk => (nomatch hk), fun found => ?_⟩
  cases found with
  | none =>
    refine inside_bind (inside_ask fun _ hk => Option.some.inj hk ▸ hn) fun count => ?_
    split
    · exact inside_abandonTask cfg task hd
    · trivial
  | some s => exact inside_consumeAt cfg task s hf hd hm hs

theorem inside_deallocatorProducer (cfg : Settings) (h : Effect.disableNode ∈ K)
    (hp : Effect.put ∈ K) : (scope K).Inside own (deallocatorProducer cfg) :=
  inside_bind (inside_plainAsk rfl) fun _ =>
    inside_bind (inside_deallocateNodes cfg _ h) fun nodes =>
      inside_putAll .deallocate nodes hp

/-! ## Allocating a task

This is the use case with the most effects, and for most results the only one
that matters. Its parts are listed separately, because a protocol usually
follows one of them and ignores the rest. -/

theorem inside_tryStartOnMachine (cfg : Settings) (s : SessionId) (node : Node)
    (engine : Engine) (task : TodoTask) (hc : Effect.claim ∈ K)
    (ho : Effect.occupy ∈ K) (hr : Effect.release ∈ K) (hu : Effect.upload ∈ K)
    (hs : Effect.spawn ∈ K) (hk : Effect.startCheck ∈ K) :
    (scope K).Inside own (tryStartOnMachine cfg s node engine task) := by
  have hdeploy : ∀ (own : Set Nat) running ncpus dir, (scope K).Inside own
      (deployerStart s engine running ncpus dir) := by
    intro own running ncpus dir
    refine inside_bind (inside_ask fun _ hk => Option.some.inj hk ▸ ho) fun r =>
      inside_bind (inside_ofExcept (F := scope K) r) fun _ =>
        inside_bind (inside_tryCatch (inside_bind (inside_channel fun _ => ?_) ?_)
          fun e => ?_) fun _ => trivial
    · exact inside_bind (inside_plainAwait rfl rfl) fun _ =>
        inside_bind (inside_uploadTaskData s running _ _ hu) fun _ => trivial
    · exact fun dirs => inside_await (fun _ hk => Option.some.inj hk ▸ hs)
        fun _ hk => nomatch hk
    · refine inside_bind (inside_ask fun _ hk => Option.some.inj hk ▸ hr)
        fun closed => ?_
      have hrelease : (scope K).Inside own (ask (.release s)) :=
        inside_ask fun _ hk => Option.some.inj hk ▸ hr
      cases closed with
      | true => exact inside_bind trivial fun _ =>
          inside_bind (inside_plainAsk rfl) fun _ =>
            inside_bind hrelease fun _ => trivial
      | false => exact inside_bind (inside_plainAsk rfl) fun _ =>
          inside_bind hrelease fun _ => trivial
  have hstart : ∀ (own : Set Nat) running,
      (scope K).Inside own (startTaskOnMachine cfg s engine running) := by
    intro own running
    refine inside_bind (inside_within fun c =>
      inside_read (Set.mem_insert c own) rfl) fun node => ?_
    split
    · exact inside_bind trivial fun n => hdeploy own running n _
    · exact inside_bind (inside_plainAwait rfl rfl) fun n => hdeploy own running n _
  refine inside_bind (inside_within fun c => ?_) fun started => ?_
  · have hown := Set.mem_insert c own
    refine inside_bind (inside_save hown _ _ hc) fun _ =>
      inside_bind (hstart _ _) fun started => ?_
    cases started with
    | true => exact inside_bind (inside_commit cfg hown) fun _ => trivial
    | false => exact inside_bind (inside_rollback hown) fun _ => trivial
  · cases started with
    | true =>
      have hcheck : (scope K).Inside own (ask (.startOccupancyCheck s engine)) :=
        inside_ask fun _ h => Option.some.inj h ▸ hk
      exact inside_bind hcheck fun _ => inside_bind (inside_plainAsk rfl) fun _ => trivial
    | false => trivial

theorem inside_validateEngine (cfg : Settings) (task : TodoTask)
    (h : Effect.reject ∈ K) : (scope K).Inside own (validateEngine cfg task) := by
  unfold validateEngine
  split
  · trivial
  · exact inside_bind (inside_saveTransaction cfg _ h) fun _ => trivial

theorem inside_findFreeMachines (engine : Engine) :
    (scope K).Inside own (findFreeMachines engine) := by
  refine inside_bind (inside_within fun c => ?_) fun r =>
    inside_bind (inside_plainAsk rfl) fun _ => trivial
  exact inside_bind (inside_listRunning (Set.mem_insert c own)) fun _ =>
    inside_bind (inside_read (Set.mem_insert c own) rfl) fun _ => trivial

theorem inside_cleanupTmpNode (cfg : Settings) (n : NodeId)
    (h : Effect.removeNode ∈ K) : (scope K).Inside own (cleanupTmpNode cfg n) :=
  inside_exceptException (inside_removeTransaction cfg n h) fun _ => trivial

theorem inside_selectAndInsertTmp (cfg : Settings) (engine : Engine)
    (h : Effect.insertNode ∈ K) (hl : Effect.lock ∈ K) :
    (scope K).Inside own (selectAndInsertTmp cfg engine) := by
  refine inside_asyncWith
    (inside_await (fun _ hk => Option.some.inj hk ▸ hl) fun _ hk => nomatch hk)
    (fun _ _ => inside_ask fun _ hk => Option.some.inj hk ▸ hl)
    fun _ => inside_within fun c => ?_
  have hc := Set.mem_insert c own
  refine inside_bind (inside_read hc rfl) fun nodes => inside_bind ?_ fun name => ?_
  · unfold selectProvider
    split
    · trivial
    · exact inside_bind (inside_plainAsk rfl) fun _ => trivial
  · cases name with
    | none => trivial
    | some name => exact inside_bind (inside_insert hc _ h) fun _ =>
        inside_bind (inside_commit cfg hc) fun _ => trivial

/-- **The cloud section** adds, updates and removes its own node row, and may
drop the session and the VM of a node that could not be set up. -/
theorem inside_allocateCloud (cfg : Settings) (engine : Engine) (task : TodoTask)
    (hi : Effect.insertNode ∈ K) (hu : Effect.updateNode ∈ K)
    (hr : Effect.removeNode ∈ K) (hs : Effect.dropSession ∈ K)
    (hv : Effect.deleteVm ∈ K) (hl : Effect.lock ∈ K) :
    (scope K).Inside own (allocateCloud cfg engine task) := by
  have hnode : ∀ name tmp, (scope K).Inside own (allocateCloudNode cfg name tmp) :=
    fun name tmp => inside_exceptException (inside_cloudsAllocate cfg name tmp hv hs)
      fun _ => inside_bind (inside_cleanupTmpNode cfg _ hr) fun _ => trivial
  have hpersist : ∀ node n, (scope K).Inside own (persistNodeWithCleanup cfg node n) :=
    fun node n => inside_tryCatch
      (inside_transaction cfg fun c => inside_update (Set.mem_insert c own) node hu)
      fun _ => inside_bind (inside_exceptException (inside_cloudsDeallocate cfg node hv)
        fun _ => trivial) fun _ => inside_bind (inside_cleanupTmpNode cfg n hr)
          fun _ => trivial
  have hsection : (scope K).Inside own (cloudSection cfg engine task) := by
    refine inside_bind (inside_attempt (inside_selectAndInsertTmp cfg engine hi hl))
      fun r => ?_
    split
    · trivial
    · trivial
    · exact inside_bind (inside_plainAsk rfl) fun _ =>
        inside_bind (inside_attempt (inside_bind (hnode _ _) fun node =>
          hpersist node _)) fun _ => trivial
  refine inside_bind (inside_plainAsk rfl) fun added => ?_
  have hend : ∀ r : Except Exc Unit, (scope K).Inside own
      (do Co.ofExcept (S := sig) r; return false : Prog Bool) :=
    fun r => inside_bind (inside_ofExcept (F := scope K) r) fun _ => trivial
  cases added with
  | false => trivial
  | true =>
    refine inside_bind hsection fun out => ?_
    obtain ⟨r, allocated, tmp⟩ := out
    cases allocated with
    | true => exact hend r
    | false =>
      refine inside_bind (inside_plainAsk rfl) fun _ => ?_
      cases tmp with
      | none => exact hend r
      | some n => exact inside_bind (inside_cleanupTmpNode cfg n hr) fun _ => hend r

theorem inside_allocateFreeMachine (cfg : Settings) (engine : Engine) (task : TodoTask)
    (hc : Effect.claim ∈ K) (ho : Effect.occupy ∈ K) (hr : Effect.release ∈ K)
    (hu : Effect.upload ∈ K) (hs : Effect.spawn ∈ K) (hk : Effect.startCheck ∈ K) :
    (scope K).Inside own (allocateFreeMachine cfg engine task) := by
  refine inside_bind (inside_findFreeMachines engine) fun pairs => ?_
  induction pairs with
  | nil => trivial
  | cons pair pairs ih =>
    refine inside_bind (inside_exceptException
      (inside_tryStartOnMachine cfg _ _ engine task hc ho hr hu hs hk) fun _ => trivial)
      fun started => ?_
    cases started with
    | true => trivial
    | false => exact ih

theorem inside_allocateTask (cfg : Settings) (t : TaskId)
    (hc : Effect.claim ∈ K) (hj : Effect.reject ∈ K) (ho : Effect.occupy ∈ K)
    (hl : Effect.release ∈ K) (hp : Effect.upload ∈ K) (hb : Effect.spawn ∈ K)
    (hk : Effect.startCheck ∈ K) (hi : Effect.insertNode ∈ K) (hu : Effect.updateNode ∈ K)
    (hr : Effect.removeNode ∈ K) (hs : Effect.dropSession ∈ K)
    (hv : Effect.deleteVm ∈ K) (hm : Effect.lock ∈ K) :
    (scope K).Inside own (allocateTask cfg t) := by
  refine inside_bind (inside_within fun c =>
    inside_getTodo (Set.mem_insert c own) t) fun task => ?_
  cases task with
  | none => trivial
  | some task =>
    refine inside_bind (inside_validateEngine cfg task hj) fun engine => ?_
    cases engine with
    | none => trivial
    | some engine =>
      refine inside_bind (inside_allocateFreeMachine cfg engine task hc ho hl hp hb hk)
        fun started => ?_
      cases started with
      | true => trivial
      | false =>
        show (scope K).Inside own (if engine.platforms.isEmpty then pure false
          else allocateCloud cfg engine task)
        split
        · trivial
        · exact inside_allocateCloud cfg engine task hi hu hr hs hv hm

/-! ## `yasetnode` -/

theorem inside_addNode (cfg : Settings) (spec : HostSpec) (skipSetup : Bool)
    (hi : Effect.insertNode ∈ K) (hu : Effect.updateNode ∈ K)
    (hr : Effect.removeNode ∈ K) (hs : Effect.dropSession ∈ K) :
    (scope K).Inside own (addNode cfg spec skipSetup) := by
  refine inside_bind (inside_within fun c => ?_) fun tmp =>
    inside_tryFinally (inside_bind ?_ fun s => ?_) (inside_disconnect _ hs)
  · have hc := Set.mem_insert c own
    exact inside_bind (inside_insert hc _ hi) fun _ =>
      inside_bind (inside_commit cfg hc) fun _ => trivial
  · exact inside_exceptException (inside_plainAwait rfl rfl) fun _ =>
      inside_bind (inside_suppress (inside_removeTransaction cfg _ hr)) fun _ => trivial
  · have hupdate : (scope K).Inside own (Uow.within fun c => do
        Nodes.update c { tmp with enabled := true }
        Uow.commit cfg c) :=
      inside_transaction cfg fun c => inside_update (Set.mem_insert c own) _ hu
    cases skipSetup with
    | true => exact hupdate
    | false => exact inside_bind (inside_plainAwait rfl rfl) fun _ => hupdate

theorem inside_removeNodeHard (cfg : Settings) (node : Node)
    (hd : Effect.finish ∈ K) (hr : Effect.removeNode ∈ K) :
    (scope K).Inside own (removeNodeHard cfg node) := by
  refine inside_within fun c => ?_
  have hc := Set.mem_insert c own
  have hall : ∀ ids, (scope K).Inside (insert c own) (abandonTasks c ids) := by
    intro ids
    induction ids with
    | nil => trivial
    | cons t ids ih =>
      refine inside_bind (inside_getRunning hc t) fun task => ?_
      cases task with
      | none => exact ih
      | some task =>
        exact inside_bind (inside_save hc _ none (finish_mem task _ rfl hd)) fun _ => ih
  exact inside_bind (inside_read hc rfl) fun ids => inside_bind (hall ids) fun _ =>
    inside_bind (inside_remove hc _ hr) fun _ => inside_commit cfg hc

theorem inside_removeNodeSoft (cfg : Settings) (node : Node)
    (hd : Effect.disableNode ∈ K) (hr : Effect.removeNode ∈ K) :
    (scope K).Inside own (removeNodeSoft cfg node) := by
  refine inside_within fun c => inside_bind
    (inside_read (Set.mem_insert c own) rfl) fun ids => ?_
  have hc := Set.mem_insert c own
  split
  · exact inside_bind (inside_remove hc _ hr) fun _ => inside_commit cfg hc
  · exact inside_bind (inside_disable hc _ hd) fun _ => inside_commit cfg hc

/-! ## Jobs

The list is read off the lemmas above, one entry for each job. A result that is
only concerned with certain effects can leave out, by looking at this table,
all jobs that do not have them. -/

/-- The effects a job can have. -/
def Job.effects : Job → Set Effect
  | .connectProducer | .allocateProducer | .consumeProducer => {.put}
  | .connectWorker => {.disableNode, .deleteVm, .removeNode, .timer}
  | .allocateWorker => {.claim, .reject, .occupy, .release, .upload, .spawn, .startCheck,
      .insertNode, .updateNode, .removeNode, .dropSession, .deleteVm, .lock}
  | .consumeWorker => {.fetch, .finish, .startCheck, .markStarted, .miss}
  | .deallocateProducer => {.disableNode, .put}
  | .deallocateWorker =>
    {.takeNode, .dropSession, .disableNode, .deleteVm, .removeNode}
  | .addNode _ _ => {.insertNode, .updateNode, .removeNode, .dropSession}
  | .removeHard _ => {.finish, .removeNode}
  | .removeSoft _ => {.disableNode, .removeNode}

/-- **Every job has only the effects listed for it**, in units of work of its
own. -/
theorem inside_program (cfg : Settings) (j : Job) :
    (scope j.effects).Inside ∅ (j.program cfg) := by
  cases j with
  | connectProducer => exact inside_producerCycle (inside_connectProducer rfl)
  | connectWorker =>
    refine inside_workerCycle .connMachine (fun h => nomatch h) fun node =>
      inside_connectConsumer cfg node ?_ ?_ ?_ ?_ <;> simp [Job.effects]
  | allocateProducer => exact inside_producerCycle (inside_allocatorProducer cfg rfl)
  | allocateWorker =>
    refine inside_workerCycle .allocate (fun h => nomatch h) fun task =>
      inside_exceptException (inside_bind
        (inside_allocateTask cfg task.taskId ?_ ?_ ?_ ?_ ?_ ?_ ?_ ?_ ?_ ?_ ?_ ?_ ?_)
        fun _ => trivial) fun _ => trivial
    all_goals simp [Job.effects]
  | consumeProducer => exact inside_producerCycle (inside_consumeProducer rfl)
  | consumeWorker =>
    refine inside_workerCycle .consume (fun h => nomatch h) fun task =>
      inside_consumeConsumer cfg task ?_ ?_ ?_ ?_ ?_ <;> simp [Job.effects]
  | deallocateProducer =>
    refine inside_producerCycle (inside_deallocatorProducer cfg ?_ ?_) <;> simp [Job.effects]
  | deallocateWorker =>
    refine inside_workerCycle .deallocate (fun _ => ?_) fun node => inside_suppress
      (inside_deallocateNode cfg node ?_ ?_ ?_ ?_) <;> simp [Job.effects]
  | addNode spec skipSetup =>
    refine inside_addNode cfg spec skipSetup ?_ ?_ ?_ ?_ <;> simp [Job.effects]
  | removeHard node =>
    refine inside_removeNodeHard cfg node ?_ ?_ <;> simp [Job.effects]
  | removeSoft node =>
    refine inside_removeNodeSoft cfg node ?_ ?_ <;> simp [Job.effects]

end Yascheduler
