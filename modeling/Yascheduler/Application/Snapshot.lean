import Yascheduler.Application.NodeChanges
import Yascheduler.Async.Product
import Yascheduler.Async.Solo

/-!
# What a unit of work reads

A unit of work that only reads is executed on a connection that was not open
before. No transaction is open on it, so it sees the committed rows, and when
it is closed nothing is rolled back: between such units of work a coroutine
that nobody disturbs finds the world as it was, but for the number of
connections that were opened.

Two facts about a world are needed for this, and for the sessions of its
processes: locks are held on connections that were opened, and a repository
registers a session under its own node. Both hold in every state of the
system (`Regular.run`).
-/

namespace Yascheduler

open Store Async

/-! ## Regular worlds

A coroutine that opens a connection must not find a transaction open on it.
That it does not is a fact about the whole run: connections are numbered
upwards, and a lock is on a connection that was opened. The same holds of
sessions and the nodes they are registered under. -/

/-- Every session is registered once, under its own node. So a list of the sessions
is a list of nodes. -/
structure Memory.Registered (m : Memory) : Prop where
  nodup : (m.registry.map Prod.fst).Nodup
  node : ∀ e ∈ m.registry, e.2.node = e.1

/-- **What every state of the system keeps** about connections and
sessions. -/
structure World.Regular (w : World) : Prop where
  taskLocks : ∀ t x c v, w.db.tasks.locks t = some (⟨x, c⟩, v) → c ≤ w.db.lastConn
  nodeLocks : ∀ n x c v, w.db.nodes.locks n = some (⟨x, c⟩, v) → c ≤ w.db.lastConn
  registered : ∀ p, (w.procs p).Registered

namespace Memory.Registered

variable {m : Memory}

theorem ofSessions {sessions : List (SessionId × Session)}
    (h : (sessions.map (·.1.node)).Nodup) : (Memory.ofSessions sessions).Registered where
  nodup := by
    show ((sessions.map fun e => (e.1.node, e.1)).map Prod.fst).Nodup
    rw [List.map_map]
    exact h
  node e he := by
    obtain ⟨e', -, rfl⟩ := List.mem_map.mp he
    rfl

/-- No session is registered twice. -/
theorem nodup_sessions (h : m.Registered) : (m.registry.map Prod.snd).Nodup := by
  refine List.Nodup.of_map SessionId.node ?_
  have hkeys : (m.registry.map Prod.snd).map SessionId.node = m.registry.map Prod.fst := by
    rw [List.map_map]
    exact List.map_congr_left h.node
  rw [hkeys]
  exact h.nodup

theorem pop (h : m.Registered) (n : NodeId) :
    ({ m with registry := Dict.pop m.registry n } : Memory).Registered where
  nodup := h.nodup.sublist (List.filter_sublist.map Prod.fst)
  node e he := h.node e (List.mem_of_mem_filter he)

theorem set (h : m.Registered) (s : SessionId) {m' : Memory}
    (hm : m'.registry = Dict.set m.registry s.node s) : m'.Registered where
  nodup := hm ▸ Dict.nodup_keys_set h.nodup
  node e he := by
    rcases Dict.mem_set (hm ▸ he) with rfl | he
    · rfl
    · exact h.node e he

/-- Another memory with the same registry. -/
theorem of_eq (h : m.Registered) {m' : Memory} (hm : m'.registry = m.registry) :
    m'.Registered where
  nodup := hm ▸ h.nodup
  node := hm ▸ h.node

theorem call (h : m.Registered) (now : Nat) (c : Call) : (m.call now c).2.Registered := by
  cases c with
  | popSession n => exact h.pop n
  | occupy s =>
    refine h.of_eq ?_
    simp only [Memory.call]
    split <;> rfl
  | trackerAdd t | trackerSetNode t n | failureSetdefault n =>
    refine h.of_eq ?_
    simp only [Memory.call]
    split <;> rfl
  | _ => exact h.of_eq rfl

theorem change (h : m.Registered) {now : Nat} {o : Op} {m' : Memory}
    (hm : MemoryChange now m o m') : m'.Registered := by
  cases hm with
  | same => exact h
  | connected platforms ncpus => exact h.set ⟨_, m.nextSession⟩ rfl
  | _ => exact h.of_eq rfl

end Memory.Registered

namespace World.Regular

variable {cfg : Nat → Settings} {w w' : World}

/-- A lock on a task row is new only if the row was just written. -/
theorem taskLocks_change {x : Tid} {o : Op} {ch : Choice} {r : Except Exc o.Res}
    (h : w.Regular) (hperf : w.perform cfg x o ch = some (r, w')) (t : TaskId) (y : Tid)
    (c : Nat) (v : Option TaskRow) (hl : w'.db.tasks.locks t = some (⟨y, c⟩, v)) :
    c ≤ w.db.lastConn := by
  have hchange := perform_taskChange hperf
  have huse : ∀ c, o.conn = some c → c ≤ w.db.lastConn := fun c hc => perform_conn hperf hc
  generalize w'.db.tasks = tasks at hchange hl
  cases hchange with
  | @saved c' task _ _ _ row =>
    by_cases ht : t = task.taskId
    · subst ht
      rw [RowStore.write_locks_self] at hl
      cases hl
      exact huse _ rfl
    · rw [RowStore.write_locks_ne _ ht] at hl
      exact h.taskLocks _ _ _ _ hl
  | removed =>
    rcases RowStore.writeAll_locks_eq_some _ hl with ⟨-, ho⟩ | ⟨-, hl⟩
    · cases ho
      exact huse _ rfl
    · exact h.taskLocks _ _ _ _ hl
  | committed => exact h.taskLocks _ _ _ _ (RowStore.commit_locks_eq_some _ |>.mp hl).1
  | rolledBack | closed =>
    exact h.taskLocks _ _ _ _ (RowStore.rollback_locks_eq_some _ |>.mp hl).1
  | _ => exact h.taskLocks _ _ _ _ hl

/-- The repositories of all processes after one of them has changed. -/
theorem registered_modify {p : Nat} (h : ∀ p', (w.procs p').Registered)
    (hm : (w'.procs p).Registered) (hother : ∀ p', p' ≠ p → w'.procs p' = w.procs p')
    (p' : Nat) : (w'.procs p').Registered := by
  by_cases hp : p' = p
  · exact hp ▸ hm
  · exact (hother p' hp) ▸ h p'

/-- **Every step keeps a world regular.** A lock that is new is on the connection of
the statement, which was opened before. -/
theorem step {L : Type} {P : Protocol sig L} {log : Log} {e : Entry sig Tid World.Env}
    (h : w.Regular) (hap : Happens (system cfg) P w log e w') : w'.Regular where
  taskLocks t x c v hl := by
    refine le_trans ?_ (nodeStep hap).lastConn
    cases hap with
    | call y c' => exact h.taskLocks t x c v hl
    | perform y o ch r w' _ _ _ hperf => exact h.taskLocks_change hperf t x c v hl
    | interrupt y o => exact h.taskLocks t x c v hl
    | reap y ch w' _ _ hreap =>
      cases ch with
      | collect c' =>
        cases hreap
        exact h.taskLocks t x c v (RowStore.rollback_locks_eq_some _ |>.mp hl).1
      | _ => cases hreap
    | env e w' _ henv => exact h.taskLocks t x c v (World.env_db henv ▸ hl)
  nodeLocks n x c v hl := by
    refine le_trans ?_ (nodeStep hap).lastConn
    rcases (nodeStep hap).locks n _ v hl with hold | ⟨y, c', o, ch, r, -, ho, hle, -⟩
    · exact h.nodeLocks n x c v hold
    · cases ho
      exact hle
  registered := by
    cases hap with
    | call y c =>
      show ∀ p, ((w.modifyProc y.proc fun _ => _).procs p).Registered
      refine registered_modify (p := y.proc) h.registered ?_ fun p' hp => modifyProc_ne _ _ hp
      rw [modifyProc_self]
      exact (h.registered y.proc).call w.now c
    | perform y o ch r w' _ _ _ hperf =>
      rcases perform_cases hperf with ⟨-, rep, r₀, heff, -⟩ | ⟨-, rfl, -⟩
      · obtain ⟨hchange, hother⟩ := effect_memory heff
        exact registered_modify h.registered ((h.registered y.proc).change hchange) hother
      · exact h.registered
    | interrupt y o => exact h.registered
    | reap y ch w' _ _ hreap =>
      cases ch with
      | collect c => cases hreap; exact h.registered
      | _ => cases hreap
    | env e w' _ henv =>
      have hset : ∀ p s x, ∀ p', ((w.setSession p s x).procs p').Registered := fun p s x =>
        registered_modify (p := p) h.registered
          (modifyProc_self w p _ ▸ (h.registered p).of_eq rfl)
          fun p' hp => modifyProc_ne _ _ hp
      cases e with
      | tick d => cases henv; exact h.registered
      | check p s engine pgrep code =>
        obtain ⟨y, -, rfl⟩ := Option.map_eq_some_iff.mp henv
        exact hset p s y
      | react p s =>
        obtain ⟨y, -, rfl⟩ := Option.map_eq_some_iff.mp henv
        exact hset p s y
      | lose c => cases henv

/-- **Every state of the system is regular.** -/
theorem run {C : StepCondition} {q : State} (h : w.Regular)
    (hrun : Run cfg C (State.initial w) q) : q.world.Regular := by
  let P : Protocol sig Unit := Protocol.watch () fun _ _ => ()
  have hsound : Sound (system cfg) P C fun w _ => w.Regular :=
    { jobs := fun t j => Protocol.watch_runs _ _
      step := fun w log e w' hw hap _ => ⟨Protocol.watch_answers log e, hw.step hap⟩ }
  exact (hsound.invariant hrun (Pool.obeys_start w) h).2

end World.Regular

/-! ## Reading

On a new connection there is nothing but what is committed. So all that a
coroutine reads in its units of work, one after the other, belongs to one state
of the database, if nobody else runs in between. -/

/-- The committed task rows, in the order of their identifiers. -/
def Database.taskRows (db : Database) : List (TaskId × TaskRow) :=
  db.taskIds.filterMap fun t => (db.tasks.rows t).map (t, ·)

/-- The committed nodes, in the order of their identifiers. -/
def Database.nodeRows (db : Database) : List Node :=
  db.nodeIds.filterMap fun n => (db.nodes.rows n).map fun row => { row with nodeId := n }

/-- The committed nodes that are enabled, as a connection lists them. -/
def Database.enabledRows (db : Database) (c : Conn) : List Node :=
  db.order.arrange c (db.nodeRows.filter (·.enabled))

/-- The committed nodes that are disabled and have a machine, as a connection
lists them. -/
def Database.disabledRows (db : Database) (c : Conn) : List Node :=
  db.order.arrange c (db.nodeRows.filter fun n => !n.enabled ∧ n.hostname ≠ "")

namespace World

/-- The world after connections were opened, and closed again. -/
def connected (w : World) (n : Nat) : World :=
  { w with db := { w.db with lastConn := w.db.lastConn + n } }

variable {w : World}

theorem Regular.connected (h : w.Regular) (n : Nat) : (w.connected n).Regular where
  taskLocks t x c v hl := (h.taskLocks t x c v hl).trans (Nat.le_add_right _ n)
  nodeLocks n' x c v hl := (h.nodeLocks n' x c v hl).trans (Nat.le_add_right _ n)
  registered := h.registered

/-- A new connection holds no lock. -/
theorem Regular.taskUnused (h : w.Regular) (x : Tid) (t : TaskId) (v : Option TaskRow) :
    (w.connected 1).db.tasks.locks t ≠ some (⟨x, w.db.lastConn + 1⟩, v) := fun hl =>
  absurd (h.taskLocks t x _ v hl) (Nat.not_succ_le_self _)

theorem Regular.nodeUnused (h : w.Regular) (x : Tid) (n : NodeId) (v : Option NewNode) :
    (w.connected 1).db.nodes.locks n ≠ some (⟨x, w.db.lastConn + 1⟩, v) := fun hl =>
  absurd (h.nodeLocks n x _ v hl) (Nat.not_succ_le_self _)

/-- **A new connection sees the committed rows.** It holds no lock, so it has written
nothing. -/
theorem Regular.visibleTasks (h : w.Regular) (x : Tid) :
    (w.connected 1).db.visibleTasks ⟨x, w.db.lastConn + 1⟩ = w.db.taskRows := by
  unfold Database.visibleTasks
  rw [RowStore.read_of_unused _ (h.taskUnused x)]
  rfl

theorem Regular.visibleNodes (h : w.Regular) (x : Tid) :
    (w.connected 1).db.visibleNodes ⟨x, w.db.lastConn + 1⟩ = w.db.nodeRows := by
  unfold Database.visibleNodes
  rw [RowStore.read_of_unused _ (h.nodeUnused x)]
  rfl

/-- The connection a coroutine is given next. -/
def nextConn (w : World) (x : Tid) : Conn := ⟨x, w.db.lastConn + 1⟩

theorem Regular.exec_listRunning (h : w.Regular) (x : Tid) :
    (w.connected 1).db.exec (w.nextConn x) (.taskList .running none) =
      some (.ok ((w.db.taskRows.filter (·.2.status = .running)).map fun r => r.2.toTask r.1),
        (w.connected 1).db) := by
  simp only [nextConn, Database.exec, h.visibleTasks]

theorem Regular.exec_listEnabled (h : w.Regular) (x : Tid) :
    (w.connected 1).db.exec (w.nextConn x) .nodeListEnabled =
      some (.ok (w.db.enabledRows (w.nextConn x)), (w.connected 1).db) := by
  simp only [nextConn, Database.exec, h.visibleNodes]
  rfl

theorem Regular.exec_listDisabled (h : w.Regular) (x : Tid) :
    (w.connected 1).db.exec (w.nextConn x) .nodeListDisabled =
      some (.ok (w.db.disabledRows (w.nextConn x)), (w.connected 1).db) := by
  simp only [nextConn, Database.exec, h.visibleNodes]
  rfl

theorem Regular.rollback (h : w.Regular) (x : Tid) :
    (w.connected 1).db.rollback ⟨x, w.db.lastConn + 1⟩ = (w.connected 1).db := by
  unfold Database.rollback
  rw [RowStore.rollback_of_unused _ (h.taskUnused x),
    RowStore.rollback_of_unused _ (h.nodeUnused x)]

end World

/-! ## A coroutine that nobody disturbs

The answers are the ones that an operation has when it takes effect and
succeeds. With them a unit of work that only reads is one lemma, which says
what is read and that nothing is left behind but a higher number of
connections. -/

/-- The world as a coroutine meets it when nothing goes wrong and nobody
disturbs it. -/
abbrev undisturbed (cfg : Nat → Settings) (x : Tid) : Solo sig World :=
  (system cfg).solo x usualReply

/-- An operation on a connection that was opened. -/
theorem perform_done {cfg : Nat → Settings} {x : Tid} {w : World} {o : Op}
    (hc : ∀ c, o.conn = some c → c ≤ w.db.lastConn) (rep : Reply) :
    w.perform cfg x o (.done rep) = w.effect cfg x o rep := by
  refine if_pos ?_
  cases ho : o.conn with
  | none => rfl
  | some c => exact decide_eq_true (hc c ho)

/-- What a unit of work that only reads is answered. -/
def Uow.readTrace (c : Nat) (tr : Trace sig) : Trace sig :=
  [.op .connect (.ok c), .op (.begin c) (.ok ())] ++ (tr ++ [.op (.close c) (.ok ())])

section

variable {cfg : Nat → Settings} {x : Tid} {w : World} {α : Type}

/-- **A unit of work that only reads** does so on a new connection, and leaves
the world as it was. -/
theorem exec_within {body : Nat → Prog α} {a : α} {tr : Trace sig} (h : w.Regular)
    (hbody : (undisturbed cfg x).exec (body (w.db.lastConn + 1)) (w.connected 1) =
      some (.ok a, tr, w.connected 1)) :
    (undisturbed cfg x).exec (Uow.within body) w =
      some (.ok a, Uow.readTrace (w.db.lastConn + 1) tr, w.connected 1) := by
  have hopen : ∀ c, some (w.db.lastConn + 1) = some c → c ≤ (w.connected 1).db.lastConn :=
    fun c hc => (Option.some.inj hc).ge
  have hbegin : (w.connected 1).perform cfg x (.begin (w.db.lastConn + 1)) (.done .none) =
      some (.ok (), w.connected 1) := perform_done (o := .begin _) hopen .none
  have hend : (w.connected 1).perform cfg x (.close (w.db.lastConn + 1)) (.done .none) =
      some (.ok (), w.connected 1) := by
    refine (perform_done (o := .close _) hopen .none).trans ?_
    show some (_, { w.connected 1 with
      db := (w.connected 1).db.rollback ⟨x, w.db.lastConn + 1⟩ }) = _
    rw [h.rollback]
  have henter : (undisturbed cfg x).exec Uow.enter w =
      some (.ok (w.db.lastConn + 1), [.op .connect (.ok (w.db.lastConn + 1)),
        .op (.begin (w.db.lastConn + 1)) (.ok ())], w.connected 1) :=
    Solo.exec_bind (Solo.exec_op rfl) <| Solo.exec_tryCatch <|
      Solo.exec_bind (Solo.exec_op hbegin) rfl
  have hclose : (undisturbed cfg x).exec (Uow.exit (w.db.lastConn + 1) none) (w.connected 1) =
      some (.ok (), [.op (.close (w.db.lastConn + 1)) (.ok ())], w.connected 1) :=
    Solo.exec_tryCatch (Solo.exec_op hend)
  exact Solo.exec_asyncWith henter hbody hclose

/-- A statement that is executed at once, and changes nothing. -/
theorem exec_sql {st : Stmt} {a : st.Res} {c : Nat} (hc : c ≤ w.db.lastConn)
    (hexec : w.db.exec ⟨x, c⟩ st = some (.ok a, w.db)) :
    (undisturbed cfg x).exec (await (.sql c st)) w =
      some (.ok a, [.op (.sql c st) (.ok a)], w) := by
  refine Solo.exec_op ((perform_done (fun c' hc' => ?_) .none).trans ?_)
  · exact Option.some.inj hc' ▸ hc
  · show (w.db.exec ⟨x, c⟩ st).map _ = _
    rw [hexec]
    rfl

/-- A call that changes nothing. -/
theorem exec_ask {c : Call} (hc : ((w.procs x.proc).call w.now c).2 = w.procs x.proc) :
    (undisturbed cfg x).exec (ask c) w =
      some (.ok ((w.procs x.proc).call w.now c).1,
        [.call c ((w.procs x.proc).call w.now c).1], w) := by
  have hsame : (w.modifyProc x.proc fun _ => ((w.procs x.proc).call w.now c).2) = w := by
    unfold World.modifyProc
    rw [hc, Function.update_eq_self]
  exact congrArg (fun w' => some (_, _, w')) hsame

end

end Yascheduler
