import Yascheduler.Application.ConnectionLoss
import Yascheduler.Safety.Occupancy
import Yascheduler.Async.Product

/-!
# How often a task is executed

A spawn cannot be taken back. It happens under an open claim, so while the
claim is open the row lock keeps everybody else from spawning the task again,
and once the claim is committed the task is no longer TO_DO. Between the two
stands the commit: when the claim transaction ends without it, the task is
TO_DO again and its process runs, and the next machine or the next cycle
spawns it a second time.

## Who ends a transaction

The coroutine itself does, when it rolls back or closes the connection. But
the server does it as well when the connection is lost, and nothing tells the
coroutine: it goes on to its spawn while somebody else has the row already. So
what a start needs of its connection begins with the claim, and not only with
the spawn, and the runs here are those of `lossySystem`.
-/

namespace Yascheduler

open Store Async StartState

/-- The spawns of a coroutine. The latest one is kept apart, since it may be taken
back: if the coroutine is cancelled before it gets the result, it never learns that
the process runs. -/
structure SpawnHistory where
  /-- the tasks whose spawn has returned to the coroutine -/
  returned : List TaskId := []
  /-- the task whose spawn was resolved by the latest event; a cancellation can
  still replace the result -/
  latest : Option TaskId := none

/-- What an event adds to the history. -/
def SpawnHistory.step : Event sig → SpawnHistory → SpawnHistory
  | .performed (.runBg _ t _) _ (.ok _), h =>
    { returned := h.latest.toList ++ h.returned, latest := some t }
  | .interrupted (.runBg _ _ _), h => { h with latest := none }
  | _, h => { returned := h.latest.toList ++ h.returned, latest := none }

/-- The history of the spawns, watched. It is computed from the events of the
coroutine alone, so that a run can be asked about it at any point. -/
def spawnWatch : Protocol sig SpawnHistory := .watch {} SpawnHistory.step

/-- The spawns of a coroutine in a log. -/
abbrev spawns (log : Log) (x : Tid) : SpawnHistory := spawnWatch.localState log x

/-- The spawn of the task has returned normally to some coroutine. From then on a
process runs on the machine, whatever becomes of the row. -/
def SpawnReturned (log : Log) (t : TaskId) : Prop :=
  ∃ x, t ∈ (spawns log x).returned ∨ (spawns log x).latest = some t

/-- **At most one execution.** Nobody spawns a task whose spawn has returned. A
spawn that fails may be tried again on another machine, and the code does so. -/
def SpawnsOnce (q : State) : Prop :=
  ∀ x s t cmd k, q.threads x = some (.waiting (.runBg s t cmd) k) →
    ¬ SpawnReturned q.log t

/-- **A start keeps its claim**: its transaction does not end without a commit once
the process is spawned, and its connection is not lost while the claim is open. The
second half is needed from the moment of the claim on, since the server ends the
transaction of a lost connection, and the row is free for the next worker while the
first one is still on its way to the spawn. -/
structure KeepsClaims (_ : World) (log : Log) (e : Entry sig Tid World.Env) : Prop where
  spawned : ∀ x ev c t s, e = .thread x ev → (starts log x).phase = .spawned c t s →
    ¬ Ends c ev
  connected : ∀ o c t n, e = .env (.lose o) →
    (starts log o.thread).phase.claim = some (c, t, n) → c ≠ o.serial

/-! ## The invariant

The spawns of a coroutine are read from its events. What connects them with the
database is that a task whose spawn has returned is claimed by the coroutine or
not TO_DO any more. The first holds until the COMMIT and the second from then
on, and there is nothing in between as long as the claim is kept. -/

/-- How an event can change the history. Two of the ways belong to the events of a
spawn, one to a cancellation, and everything else leaves it alone. -/
inductive SpawnChange : Event sig → SpawnHistory → SpawnHistory → Prop where
  | spawned {s t cmd ch h} :
      SpawnChange (.performed (.runBg s t cmd) ch (.ok ())) h
        { returned := h.latest.toList ++ h.returned, latest := some t }
  | retracted {s t cmd h} :
      SpawnChange (.interrupted (.runBg s t cmd)) h { h with latest := none }
  | kept {ev h} (hev : ∀ s t cmd, ev ≠ .interrupted (.runBg s t cmd)) :
      SpawnChange ev h { returned := h.latest.toList ++ h.returned, latest := none }

/-- These are all the ways. -/
theorem spawn_change (ev : Event sig) (h : SpawnHistory) :
    SpawnChange ev h (SpawnHistory.step ev h) := by
  cases ev with
  | call c r => exact .kept fun _ _ _ h => nomatch h
  | performed o ch r =>
    cases o with
    | runBg s t cmd =>
      cases r with
      | ok u => exact .spawned
      | error e => exact .kept fun _ _ _ h => nomatch h
    | _ => exact .kept fun _ _ _ h => nomatch h
  | interrupted o =>
    cases o with
    | runBg s t cmd => exact .retracted
    | _ => exact .kept fun _ _ _ h => nomatch h
  | reaped ch => exact .kept fun _ _ _ h => nomatch h

/-- **What is known of the spawns of a coroutine.** A task whose spawn has returned
is still claimed for it, or no longer TO_DO. This is the link from the memory of one
coroutine to the row that all of them read. -/
structure SpawnHistory.Known (h : SpawnHistory) (db : Database) (l : StartState) :
    Prop where
  latest : ∀ t, h.latest = some t → ∃ c s, l.phase = .spawned c t s
  fresh : ∀ t, h.latest = some t → t ∉ h.returned
  returned : ∀ t, t ∈ h.returned → (∃ c s, l.phase = .spawned c t s) ∨ ¬ db.ToDo t

/-- **What a second execution would have to break.** The claims hold, and the
history of every coroutine is covered by them. -/
structure Executed (w : World) (log : Log) : Prop where
  claims : ClaimsHold w log
  known : ∀ x, (spawns log x).Known w.db (starts log x)

namespace Executed

variable {cfg : Nat → Settings} {w w' : World} {log : Log} {x : Tid}

/-- **Whoever may spawn a task** is the first to do so. It holds the claim of the
task, so the row is TO_DO and nobody else claims it; a spawn that had returned would
need one of the two. -/
theorem not_returned (h : Executed w log) {y : Tid} {c : Nat} {t : TaskId}
    {s : SessionId} (hph : (starts log y).phase = .occupied c t s) :
    ¬ SpawnReturned log t := by
  obtain ⟨⟨row, hlock, -⟩, htodo⟩ := h.claims.held y c t s.node (by rw [hph]; rfl)
  have hclash : ∀ z c' s', (starts log z).phase ≠ .spawned c' t s' := by
    intro z c' s' hz
    obtain ⟨⟨row', hlock', -⟩, -⟩ := h.claims.held z c' t s'.node (by rw [hz]; rfl)
    rw [hlock] at hlock'
    cases hlock'
    rw [hph] at hz
    cases hz
  rintro ⟨z, hz | hz⟩
  · rcases (h.known z).returned t hz with ⟨c', s', hz'⟩ | hdone
    · exact hclash z c' s' hz'
    · exact hdone htodo
  · obtain ⟨c', s', hz'⟩ := (h.known z).latest t hz
    exact hclash z c' s' hz'

/-- A coroutine whose spawn has returned, and that is not cancelled before it
gets the result, stays with its claim until it is committed. -/
theorem spawned_step (h : Executed w log) {ev : Event sig} {c : Nat} {t : TaskId}
    {s : SessionId} (hap : Happens (system cfg) startProtocol w log (.thread x ev) w')
    (hev : ∀ s t cmd, ev ≠ .interrupted (.runBg s t cmd)) (hC : ¬ Ends c ev)
    (hph : (starts log x).phase = .spawned c t s) :
    (∃ c s, (step ev (starts log x)).phase = .spawned c t s) ∨ ¬ w'.db.ToDo t := by
  have hopen : (starts log x).phase.claim = some (c, t, s.node) := by rw [hph]; rfl
  have hchange := phase_change (starts log x) ev
  generalize (step ev (starts log x)).phase = ph' at hchange ⊢
  rw [hph] at hchange
  cases hchange with
  | none => exact .inl ⟨c, s, rfl⟩
  | claimed hst => exact (h.claims.claims_once hopen hst hap).elim
  | unspawned => exact absurd rfl (hev _ _ _)
  | committed hch =>
    refine .inr ?_
    rintro ⟨row, hrow, htodo⟩
    obtain ⟨⟨row', hlock, hrun⟩, -⟩ := h.claims.held x c t s.node hopen
    rw [World.perform_commit hap.of_performed.2.1 hch, RowStore.commit_rows,
      RowStore.read_of_locked _ hlock] at hrow
    cases hrow
    rw [hrun.1] at htodo
    cases htodo
  | ended hend hcl =>
    cases hcl
    exact absurd hend hC

/-- A spawn is retracted only by a cancellation right after it. -/
theorem retracted_phase {s : SessionId} {t : TaskId} {cmd : SpawnCommand}
    (hwait : (startProtocol.prod spawnWatch).Awaited (.runBg s t cmd)
      (starts log x, spawns log x)) :
    (∃ c, (starts log x).phase = .occupied c t s) ∨
      (spawns log x).latest = some t ∧ ∃ c, (starts log x).phase = .spawned c t s := by
  rcases hwait with ⟨⟨c, hph⟩, -⟩ | ⟨ch, r, l₀, ⟨⟨c, hph⟩, -⟩, hl⟩
  · exact .inl ⟨c, hph⟩
  · obtain ⟨hstart, hspawn⟩ := Prod.mk.inj hl
    cases r with
    | error e => exact .inl ⟨c, hstart ▸ hph⟩
    | ok u =>
      refine .inr ⟨by rw [hspawn]; rfl, c, ?_⟩
      rw [hstart]
      show l₀.1.spawn.phase = _
      unfold spawn
      rw [hph]

/-- **What an event of a coroutine does to its own spawns.** What is known before the
event is known after it, for the claims as they are then. -/
theorem known_step (h : Executed w log) {ev : Event sig}
    (hap : Happens (system cfg) (startProtocol.prod spawnWatch) w log (.thread x ev) w')
    (hC : KeepsClaims w log (.thread x ev)) :
    (SpawnHistory.step ev (spawns log x)).Known w'.db (step ev (starts log x)) := by
  have hkept : ∀ t, ¬ w.db.ToDo t → ¬ w'.db.ToDo t :=
    fun t ht hnew => ht (h.claims.toDo_step hap hnew)
  have hx := h.known x
  have hchange := spawn_change ev (spawns log x)
  generalize SpawnHistory.step ev (spawns log x) = h' at hchange ⊢
  cases hchange with
  | @spawned s t cmd ch =>
    obtain ⟨c, hph⟩ : ∃ c, (starts log x).phase = .occupied c t s := hap.fst.of_performed.1
    have hnot : ∀ t', ¬ ∃ c s, (starts log x).phase = .spawned c t' s := by
      rintro t' ⟨c', s', hph'⟩
      rw [hph] at hph'
      cases hph'
    have hnone : (spawns log x).latest = none := by
      refine Option.eq_none_iff_forall_ne_some.mpr fun t' ht' => ?_
      exact hnot t' (hx.latest t' ht')
    have hnew : (step (.performed (.runBg s t cmd) ch (.ok ())) (starts log x)).phase =
        .spawned c t s := by
      show (starts log x).spawn.phase = _
      unfold spawn
      rw [hph]
    rw [hnone]
    refine ⟨fun t' ht' => ?_, fun t' ht' hmem => ?_, fun t' ht' => ?_⟩
    · cases ht'
      exact ⟨c, s, hnew⟩
    · cases ht'
      exact h.not_returned hph ⟨x, .inl hmem⟩
    · exact .inr (hkept t' ((hx.returned t' ht').resolve_left (hnot t')))
  | @retracted s t cmd =>
    have hwait : (startProtocol.prod spawnWatch).Awaited (.runBg s t cmd)
        (starts log x, spawns log x) := by
      rw [← Protocol.prod_localState]
      exact hap.allows
    refine ⟨fun t' ht' => (nomatch ht'), fun t' ht' => (nomatch ht'), fun t' ht' => ?_⟩
    refine .inr (hkept t' ((hx.returned t' ht').resolve_left ?_))
    rintro ⟨c', s', hph'⟩
    rcases retracted_phase hwait with ⟨c, hph⟩ | ⟨hl, c, hph⟩
    · rw [hph] at hph'
      cases hph'
    · rw [hph] at hph'
      cases hph'
      exact hx.fresh t hl ht'
  | kept hev =>
    refine ⟨fun t' ht' => (nomatch ht'), fun t' ht' => (nomatch ht'), fun t' ht' => ?_⟩
    have hbefore : (∃ c s, (starts log x).phase = .spawned c t' s) ∨ ¬ w.db.ToDo t' := by
      rcases List.mem_append.mp ht' with hl | hr
      · exact .inl (hx.latest t' (Option.mem_toList.mp hl))
      · exact hx.returned t' hr
    rcases hbefore with ⟨c, s, hph⟩ | hdone
    · exact h.spawned_step hap.fst hev (hC.spawned x ev c t' s rfl hph) hph
    · exact .inr (hkept t' hdone)

/-- **What can happen while connections are kept.** The claims go on, and what is
known of each coroutine is carried along with its own steps. -/
theorem step_kept (h : Executed w log) {e : Entry sig Tid World.Env}
    (hap : Happens (system cfg) (startProtocol.prod spawnWatch) w log e w')
    (hC : KeepsClaims w log e) :
    (startProtocol.prod spawnWatch).Answers log e ∧ Executed w' (e :: log) := by
  obtain ⟨hans, hclaims⟩ := h.claims.step hap.fst
  refine ⟨hans.prod (Protocol.watch_answers log e), hclaims, fun y => ?_⟩
  have hother : (spawns log y).Known w'.db (starts log y) :=
    ⟨(h.known y).latest, (h.known y).fresh, fun t ht => ((h.known y).returned t ht).imp id
      fun hdone hnew => hdone (h.claims.toDo_step hap hnew)⟩
  cases e with
  | env e => exact hother
  | thread x ev =>
    by_cases hxy : x = y
    · subst hxy
      rw [starts_self]
      show (spawnWatch.localState _ x).Known _ _
      rw [spawnWatch.localState_self]
      exact h.known_step hap hC
    · rw [starts_ne _ _ hxy]
      show (spawnWatch.localState _ y).Known _ _
      rw [spawnWatch.localState_ne _ _ hxy]
      exact hother

/-- The loss of a connection leaves the committed rows alone. What it takes away is
a claim, and the condition says that it is none under which a process has been
spawned. -/
theorem step_lost (h : Executed w log) {o : Conn}
    (hC : KeepsClaims w log (.env (.lose o))) :
    Executed (w.lose o) (.env (.lose o) :: log) :=
  ⟨h.claims.lose fun c t n => hC.connected o c t n rfl, fun y =>
    ⟨(h.known y).latest, (h.known y).fresh, (h.known y).returned⟩⟩

/-- **Nothing that happens breaks it**, since a step is one of these two. A
connection is lost, or everything goes on as if connections were kept. -/
theorem sound (cfg : Nat → Settings) :
    Sound (lossySystem cfg) (startProtocol.prod spawnWatch) KeepsClaims Executed where
  jobs x j := (program_runs (cfg x.proc) j).prod (Protocol.watch_runs _ _)
  step w log e w' h hap hC := by
    rcases kept_or_lost hap with hkept | ⟨o, rfl, rfl⟩
    · exact h.step_kept hkept hC
    · exact ⟨trivial, h.step_lost hC⟩

end Executed

/-- **A task is executed at most once.** In a run in which every start keeps its
claim, nobody spawns a task whose spawn has returned. The machines may be any, and
so may the processes that the workers belong to. -/
theorem spawnsOnce {cfg : Nat → Settings} {w : World} {q : State}
    (hlocks : ∀ t, w.db.tasks.locks t = none)
    (hrun : LossyRun cfg KeepsClaims (State.initial w) q) : SpawnsOnce q := by
  have hstart : Executed w [] :=
    ⟨.start w hlocks, fun x => ⟨fun t ht => (nomatch ht), fun t ht => (nomatch ht),
      fun t ht => (nomatch ht)⟩⟩
  obtain ⟨hobs, hinv⟩ := (Executed.sound cfg).invariant hrun (Pool.obeys_start w) hstart
  intro x s t cmd k hth
  have hwait := (hobs.thread x _ hth).1.1
  rw [Protocol.prod_localState] at hwait
  obtain ⟨c, hph⟩ : ∃ c, (starts q.log x).phase = .occupied c t s := hwait.1
  exact hinv.not_returned hph

/-! ## A run in which it fails

For the worker the first machine is one on which the start has failed, and it
goes on to the second one as it always does. The row is TO_DO again, so its
claim finds it. In the other run a connection is lost too, but only when the
claim is committed, and this does no harm. -/

namespace Execution

/-- Two machines, and one task in the allocation queue. -/
def world : World where
  db := .ofLists [{ engine := "pcrystal", check := fieldCheck_toDo }]
    [{ hostname := "10.0.0.1", ncpus := some 4 }, { hostname := "10.0.0.2", ncpus := some 4 }]
  procs _ := { Memory.ofSessions
      [(⟨1, 0⟩, { machine := { nodeId := 1, platforms := ["debian"] } }),
       (⟨2, 1⟩, { machine := { nodeId := 2, platforms := ["debian"] } })] with
    queues := fun
      | .allocate => { queue := [(1, Booking.todo 1)] }
      | .connMachine | .deallocate | .consume => {} }

/-- A worker spawns its task, the COMMIT fails, and the worker goes on to the next
machine. For the worker the first machine is one on which the start has failed. -/
def script : List (Move sig Tid Job World.Env) :=
  [.act (.spawn ⟨0, 1⟩ .allocateWorker), .drive ⟨0, 1⟩ 51,
   .act (.perform ⟨0, 1⟩ (.fail (.database "connection lost"))), .drive ⟨0, 1⟩ 34]

/-- The worker spawns a task whose spawn has returned to it. -/
def spawnsAgain (q : State) : Bool :=
  match q.threads ⟨0, 1⟩ with
  | some (.waiting (.runBg _ t _) _) => t ∈ (spawns q.log ⟨0, 1⟩).returned
  | _ => false

theorem script_spawns : ((oneProcess.play (lossySystem Booking.settings) script
    (State.initial world)).map spawnsAgain) = some true := by
  decide +kernel

end Execution

/-- **A task is spawned twice** by one worker: the failing COMMIT has ended the
transaction, and with it the claim that would have kept the row. -/
theorem secondSpawn_reachable : ¬ ∀ (cfg : Nat → Settings) (p : Nat) (w : World)
    (q : State), (∀ t, w.db.tasks.locks t = none) →
    LossyRun cfg (OneProcess p) (State.initial w) q → SpawnsOnce q := by
  intro h
  obtain ⟨q, hrun, hq⟩ := Script.exists_of_play Execution.script_spawns
  have honce := h Booking.settings 0 Execution.world q (fun _ => rfl)
    (hrun.mono fun _ _ _ => oneProcess_condition)
  unfold Execution.spawnsAgain at hq
  split at hq
  · rename_i s t cmd k hth
    exact honce _ s t cmd k hth ⟨_, .inl (of_decide_eq_true hq)⟩
  · cases hq

namespace Execution

/-- A script in which every start keeps its claim. The events that could end one are
looked at when they happen. -/
def committing : Script sig World Tid World.Env where
  reply := usualReply
  check _ log e := match e with
    | .thread x ev => match (starts log x).phase with
      | .spawned c _ _ => !decide (Ends c ev)
      | _ => true
    | .env (.lose o) => match (starts log o.thread).phase.claim with
      | some (c, _, _) => c != o.serial
      | none => true
    | .env _ => true

/-- What the script looks at is the condition. -/
theorem committing_condition {w : World} {log : Log} {e : Entry sig Tid World.Env}
    (h : committing.condition w log e) : KeepsClaims w log e := by
  refine ⟨?_, ?_⟩
  · rintro x ev c t s rfl hph
    simpa [Script.condition, committing, hph] using h
  · rintro o c t n rfl hcl
    simpa [Script.condition, committing, hcl] using h

/-- The spawn of the task has returned, and its worker has ended. -/
def spawned (q : State) : Bool :=
  decide (1 ∈ (spawns q.log ⟨0, 1⟩).returned) &&
  match q.threads ⟨0, 1⟩ with
  | some (.finished _) => true
  | _ => false

theorem committing_plays : ((committing.play (lossySystem Booking.settings)
    [.act (.spawn ⟨0, 1⟩ .allocateWorker), .drive ⟨0, 1⟩ 62,
     .act (.env (.lose ⟨⟨0, 1⟩, 1⟩))] (State.initial world)).map spawned) = some true := by
  decide +kernel

end Execution

/-- A task that is spawned on the first of two machines, and nowhere else. The
connection of its claim is lost when the claim is committed. -/
theorem spawnsOnce_start : ∃ q,
    LossyRun Booking.settings KeepsClaims (State.initial Execution.world) q ∧
      Execution.spawned q = true ∧ SpawnsOnce q := by
  obtain ⟨q, hrun, hq⟩ := Script.exists_of_play Execution.committing_plays
  have hrun' := hrun.mono fun _ _ _ => Execution.committing_condition
  exact ⟨q, hrun', hq, spawnsOnce (fun _ => rfl) hrun'⟩

end Yascheduler
