import Yascheduler.Safety.Execution

/-!
# At most one start

Any number of coroutines, of any number of daemons, may try to start the same
task at the same time, and each tries one machine after the other. What keeps
them apart is the guarded update: whoever finds the row holds its lock until
the transaction ends, and occupies, uploads and spawns in between; whoever
waits for the lock looks at the status again when it gets it. So a machine is
touched only for the holder of the claim, and once one start is committed
there is nothing left to claim.

## What a claim protects

Not every step of a start is covered by the row lock. Looking for a free machine
comes before the claim and starting the monitor after it, and the law says nothing
of these. What it covers is what would do harm twice: occupying the machine,
writing into the directory of the task, and spawning its process.

The second part of the law is about those who come too late. After a start is
committed their statements find no row, and from then on they do none of the
above for this task.
-/

namespace Yascheduler

open Store Async StartState

/-! ## The law

The law is stated with histories that are computed from the log, so it can be
read without the protocol of a start. It says of a coroutine that is about to
touch a machine what it has claimed and what the database has to say about it
at that moment. -/

/-- The machine a coroutine is about to occupy, or is uploading to or spawning on.
What a start does before is only reading. -/
def touched : Thread sig → Option SessionId
  | .running (.occupy s) _ => some s
  | .waiting (.sftpMakedirs s _) _ | .waiting (.sftpWrite s _ _) _
  | .waiting (.runBg s _ _) _ => some s
  | _ => none

/-- The task a coroutine is spawning. -/
def spawning : Thread sig → Option TaskId
  | .waiting (.runBg _ t _) _ => some t
  | _ => none

/-- The statement of a claim, and whether it found its row. It finds none if the
task is not TO_DO any more, since the statement asks for that status. -/
structure ClaimResult where
  task : TaskId
  node : NodeId
  found : Bool
deriving DecidableEq

/-- The claims of a coroutine. One is enough to remember, since a coroutine makes
its claims one after the other. -/
structure ClaimHistory where
  /-- the latest claim -/
  latest : Option ClaimResult := none
  /-- the latest event is the end of a spawn -/
  spawned : Bool := false

/-- What an event adds to the history. -/
def ClaimHistory.step : Event sig → ClaimHistory → ClaimHistory
  | .performed (.sql _ (.taskUpdate task (some .toDo))) _ r, h =>
    match task.state with
    | .running st => { latest := some ⟨task.taskId, st.allocatedNodeId, found r⟩ }
    | _ => { h with spawned := false }
  | .performed (.runBg _ _ _) _ _, h => { h with spawned := true }
  | _, h => { h with spawned := false }

/-- The history of the claims, watched. -/
def claimWatch : Protocol sig ClaimHistory := .watch {} ClaimHistory.step

/-- The claims of a coroutine in a log. -/
abbrev claimHistory (log : Log) (x : Tid) : ClaimHistory := claimWatch.localState log x

/-- The coroutine holds the row lock of the task in an open transaction, has written
there that it runs on the node, and for everybody else the task is TO_DO. The two
views of one row are what makes a claim: it excludes others, and can still be taken
back. -/
structure World.ClaimedBy (w : World) (x : Tid) (t : TaskId) (n : NodeId) : Prop where
  lock : ∃ c row, w.db.tasks.locks t = some (⟨x, c⟩, some row) ∧ row.RunsOn n
  toDo : w.db.ToDo t

/-- **A machine is touched under a claim only.** The claim is the latest one, so it
has not been given up for another machine in between. -/
structure ClaimLaw (q : State) : Prop where
  /-- whoever touches a machine holds the claim it has made for it -/
  held : ∀ x th s, q.threads x = some th → touched th = some s → ∃ t,
    q.world.ClaimedBy x t s.node ∧ (claimHistory q.log x).latest = some ⟨t, s.node, true⟩ ∧
      ∀ t', spawning th = some t' → t' = t
  /-- nobody else touches a machine for the same task -/
  alone : ∀ x y th th' s s' t n n', q.threads x = some th → q.threads y = some th' →
    touched th = some s → touched th' = some s' →
    (claimHistory q.log x).latest = some ⟨t, n, true⟩ →
    (claimHistory q.log y).latest = some ⟨t, n', true⟩ → x = y
  /-- whoever has lost its claim touches no machine -/
  lost : ∀ x th r, q.threads x = some th → (claimHistory q.log x).latest = some r →
    r.found = false → touched th = none

/-- The entry commits a start of the task: a COMMIT that takes effect, on a
connection that has made the task RUNNING. Whether its caller learns of it does not
matter. -/
def CommitsStart (w : World) (e : Entry sig Tid World.Env) (t : TaskId) : Prop :=
  ∃ x c ch r row, e = .thread x (.performed (.commit c) ch r) ∧ ch.effective = true ∧
    w.db.tasks.locks t = some (⟨x, c⟩, some row) ∧ row.status = .running

/-- Nothing more happens to start the task: no machine is touched for it, and no
start of it is committed next. It is a property of a state, and holds in every later
one. -/
structure StartOver (cfg : Nat → Settings) (q : State) (t : TaskId) : Prop where
  untouched : ∀ x th s n, q.threads x = some th → touched th = some s →
    (claimHistory q.log x).latest ≠ some ⟨t, n, true⟩
  uncommitted : ∀ a q' e, q.step (system cfg) a = some q' → q'.log = e :: q.log →
    ¬ CommitsStart q.world e t

/-! ## The invariant

The history of a coroutine and the phase of its start are two accounts of the
same events. The invariant connects them as far as it is needed: a claim that
is open is the last one in the history. With what is known of claims and row
locks, the law follows from this for each state. -/

/-- **A claim that is open, with nothing spawned under it yet, is the latest one.**
After the spawn nothing has to be known, since the machine is not touched again. -/
def ClaimHistory.Known (h : ClaimHistory) (l : StartState) : Prop :=
  ∀ c t n, l.phase.claim = some (c, t, n) → (l.phase.unchecked = true → h.spawned = true) →
    h.latest = some ⟨t, n, true⟩

/-- How an event can change the history. After any other event than a spawn, a spawn
is not the latest thing that has happened. -/
inductive ClaimChange : Event sig → ClaimHistory → ClaimHistory → Prop where
  | claimed {c task st ch r h} (hst : task.state = .running st) :
      ClaimChange (.performed (.sql c (.taskUpdate task (some .toDo))) ch r) h
        { latest := some ⟨task.taskId, st.allocatedNodeId, found r⟩ }
  | spawned {s t cmd ch r h} :
      ClaimChange (.performed (.runBg s t cmd) ch r) h { h with spawned := true }
  | kept {ev h}
      (hev : ∀ c task st ch r, task.state = .running st →
        ev ≠ .performed (.sql c (.taskUpdate task (some .toDo))) ch r) :
      ClaimChange ev h { h with spawned := false }

/-- These are all the ways. -/
theorem history_change (ev : Event sig) (h : ClaimHistory) :
    ClaimChange ev h (ClaimHistory.step ev h) := by
  cases ev with
  | performed o ch r =>
    cases o with
    | sql c st =>
      cases st with
      | taskUpdate task expected =>
        match expected with
        | none | some .running | some .done => exact .kept fun _ _ _ _ _ _ h => nomatch h
        | some .toDo =>
          show ClaimChange _ h (match task.state with
            | .running st => { latest := some ⟨task.taskId, st.allocatedNodeId, found r⟩ }
            | _ => { h with spawned := false })
          cases hst : task.state with
          | running st => exact .claimed hst
          | todo st =>
            refine .kept ?_
            rintro _ _ st' _ _ hst' ⟨⟩
            rw [hst] at hst'
            cases hst'
          | done st =>
            refine .kept ?_
            rintro _ _ st' _ _ hst' ⟨⟩
            rw [hst] at hst'
            cases hst'
      | _ => exact .kept fun _ _ _ _ _ _ h => nomatch h
    | runBg s t cmd => exact .spawned
    | _ => exact .kept fun _ _ _ _ _ _ h => nomatch h
  | _ => exact .kept fun _ _ _ _ _ _ h => nomatch h

/-- **What a second start would have to break.** The claims hold, and what each
coroutine remembers agrees with them. -/
structure Claimed (w : World) (log : Log) : Prop where
  holds : ClaimsHold w log
  known : ∀ x, (claimHistory log x).Known (starts log x)

namespace Claimed

variable {cfg : Nat → Settings} {w w' : World} {log : Log} {x : Tid}

/-- A spawn is retracted only right after it has ended. The claim is then where it
was before the spawn, and so is what is remembered of it. -/
theorem retracted {h : ClaimHistory} {l : StartState} {s : SessionId} {t : TaskId}
    {cmd : SpawnCommand}
    (hwait : (startProtocol.prod claimWatch).Awaited (.runBg s t cmd) (l, h)) :
    l.phase.unchecked = true → h.spawned = true := by
  intro hun
  rcases hwait with ⟨⟨c, hph⟩, -⟩ | ⟨ch, r, l₀, -, hl⟩
  · have hph' : l.phase = .occupied c t s := hph
    rw [hph'] at hun
    cases hun
  · rw [(Prod.mk.inj hl).2]
    rfl

/-- **What an event of a coroutine does to its own claims.** The cases are those of
the history, and each is compared with what the protocol makes of the event. -/
theorem known_step (h : Claimed w log) {ev : Event sig}
    (hap : Happens (system cfg) (startProtocol.prod claimWatch) w log (.thread x ev) w') :
    (ClaimHistory.step ev (claimHistory log x)).Known (step ev (starts log x)) := by
  have hx := h.known x
  have hchange := history_change ev (claimHistory log x)
  generalize ClaimHistory.step ev (claimHistory log x) = h' at hchange ⊢
  intro c t n hcl hsp
  cases hchange with
  | @claimed c₀ task st ch r _ hst =>
    have heff : saveEffect task (some .toDo) = .claim := by
      unfold saveEffect
      rw [hst]
    have hsave : (starts log x).MaySave c₀ task (some .toDo) := hap.fst.of_performed.1
    obtain ⟨st', hst', -, hev⟩ := step_claim (l := starts log x) (c := c₀) heff ch r
    rw [hst] at hst'
    cases hst'
    rw [hev] at hcl hsp
    cases hr : found r with
    | true =>
      rw [hr] at hcl
      cases hcl
      rfl
    | false =>
      -- what is still open is a start that has failed after its spawn
      rw [hr] at hcl hsp
      unfold MaySave at hsave
      rw [heff] at hsave
      have hset : (starts log x).Settled := hsave.2.1
      unfold Settled at hset
      change (starts log x).phase.unclaimed.claim = _ at hcl
      change (starts log x).phase.unclaimed.unchecked = true → _ at hsp
      generalize (starts log x).phase = ph at hset hcl hsp
      cases ph with
      | idle => cases hcl
      | claimed c' t' n' => cases hcl
      | occupied c' t' s => exact hset.elim
      | spawned c' t' s => exact nomatch hsp rfl
      | committed t' s => cases hcl
  | @spawned s t' cmd ch r =>
    obtain ⟨c', hph⟩ : ∃ c, (starts log x).phase = .occupied c t' s :=
      hap.fst.of_performed.1
    rw [(performed_claim rfl).2] at hcl
    exact hx c t n hcl fun hun => by rw [hph] at hun; cases hun
  | kept hev =>
    have hphase := phase_change (starts log x) ev
    have hallow := hap.allows
    rw [Protocol.prod_localState] at hallow
    unfold ClaimHistory.Known at hx
    generalize (step ev (starts log x)).phase = ph' at hphase hcl hsp
    generalize hph : (starts log x).phase = ph at hphase hx
    cases hphase with
    | none => exact hx c t n hcl fun hun => nomatch hsp hun
    | claimed hst => exact absurd rfl (hev _ _ _ _ _ hst)
    | lost hr => cases hcl
    | @occupied c₀ t₀ n₀ s =>
      obtain ⟨c₁, t₁, hpre⟩ : ∃ c t, (starts log x).phase = .claimed c t s.node := hallow.1
      rw [hph] at hpre
      cases hpre
      exact hx c t n hcl fun hun => nomatch hun
    | released => exact hx c t n hcl fun hun => nomatch hun
    | closed => exact hx c t n hcl fun hun => nomatch hun
    | spawned => exact nomatch hsp rfl
    | unspawned =>
      refine hx c t n hcl ?_
      rw [← hph]
      exact retracted hallow
    | committed hch => cases hcl
    | ended hend hcl' => cases hcl
    | checked => cases hcl

/-- **Nothing that happens breaks it**, under any condition on the steps: neither
failures nor cancellations let two starts hold one claim. -/
theorem sound (cfg : Nat → Settings) (C : StepCondition) :
    Sound (system cfg) (startProtocol.prod claimWatch) C Claimed where
  jobs x j := (program_runs (cfg x.proc) j).prod (Protocol.watch_runs _ _)
  step w log e w' h hap _ := by
    obtain ⟨hans, hholds⟩ := h.holds.step hap.fst
    refine ⟨hans.prod (Protocol.watch_answers log e), hholds, fun y => ?_⟩
    cases e with
    | env e => exact h.known y
    | thread x ev =>
      by_cases hxy : x = y
      · subst hxy
        rw [starts_self]
        show (claimWatch.localState _ x).Known _
        rw [claimWatch.localState_self]
        exact h.known_step hap
      · rw [starts_ne _ _ hxy]
        show (claimWatch.localState _ y).Known _
        rw [claimWatch.localState_ne _ _ hxy]
        exact h.known y

/-- At the beginning nobody has claimed anything. -/
theorem start (w : World) (hlocks : ∀ t, w.db.tasks.locks t = none) : Claimed w [] :=
  ⟨.start w hlocks, fun _ _ _ _ h => nomatch h⟩

/-- **An open claim** with nothing spawned under it. The row is locked by its
connection, and the lock holds the RUNNING row. -/
theorem claimedBy (h : Claimed w log) {c : Nat} {t : TaskId} {n : NodeId}
    (hcl : (starts log x).phase.claim = some (c, t, n))
    (hun : (starts log x).phase.unchecked = false) :
    w.ClaimedBy x t n ∧ (claimHistory log x).latest = some ⟨t, n, true⟩ := by
  obtain ⟨⟨row, hlock, hrow⟩, htodo⟩ := h.holds.held x c t n hcl
  refine ⟨⟨⟨c, row, hlock, hrow⟩, htodo⟩, h.known x c t n hcl ?_⟩
  rw [hun]
  exact fun h => nomatch h

/-- **Whoever touches a machine holds its claim.** The protocol allows it in the
phases of an open claim only. -/
theorem of_touched {q : State} (h : Claimed q.world q.log)
    (hobs : q.Obeys (system cfg) (startProtocol.prod claimWatch)) {th : Thread sig}
    {s : SessionId} (hth : q.threads x = some th) (hs : touched th = some s) : ∃ t,
      q.world.ClaimedBy x t s.node ∧ (claimHistory q.log x).latest = some ⟨t, s.node, true⟩ ∧
        ∀ t', spawning th = some t' → t' = t := by
  have hrun := hobs.thread x th hth
  rw [Protocol.prod_localState] at hrun
  have hopen : ∀ {c t}, (starts q.log x).phase = .occupied c t s ∨
      (starts q.log x).phase = .claimed c t s.node →
      q.world.ClaimedBy x t s.node ∧
        (claimHistory q.log x).latest = some ⟨t, s.node, true⟩ := by
    rintro c t (hph | hph)
    · exact h.claimedBy (c := c) (by rw [hph]; rfl) (by rw [hph]; rfl)
    · exact h.claimedBy (c := c) (by rw [hph]; rfl) (by rw [hph]; rfl)
  unfold touched at hs
  split at hs
  · cases hs
    obtain ⟨c, t, hph⟩ : ∃ c t, (starts q.log x).phase = .claimed c t s.node := hrun.1.1
    obtain ⟨hby, hlatest⟩ := hopen (.inr hph)
    exact ⟨t, hby, hlatest, fun t' h => nomatch h⟩
  · cases hs
    obtain ⟨c, t, hph⟩ : ∃ c t, (starts q.log x).phase = .occupied c t s := hrun.1.1.1
    obtain ⟨hby, hlatest⟩ := hopen (.inl hph)
    exact ⟨t, hby, hlatest, fun t' h => nomatch h⟩
  · cases hs
    obtain ⟨c, t, hph⟩ : ∃ c t, (starts q.log x).phase = .occupied c t s := hrun.1.1.1
    obtain ⟨hby, hlatest⟩ := hopen (.inl hph)
    exact ⟨t, hby, hlatest, fun t' h => nomatch h⟩
  · rename_i t cmd k
    cases hs
    obtain ⟨c, hph⟩ : ∃ c, (starts q.log x).phase = .occupied c t s := hrun.1.1.1
    obtain ⟨hby, hlatest⟩ := hopen (.inl hph)
    exact ⟨t, hby, hlatest, fun t' h => (Option.some.inj h).symm⟩
  · cases hs

/-- The two parts of the law: who touches a machine holds the claim, and a row has
one lock. -/
theorem law {q : State} (h : Claimed q.world q.log)
    (hobs : q.Obeys (system cfg) (startProtocol.prod claimWatch)) : ClaimLaw q where
  held x th s hth hs := h.of_touched hobs hth hs
  alone x y th th' s s' t n n' hx hy hs hs' hl hl' := by
    obtain ⟨t₁, hby, hlatest, -⟩ := h.of_touched hobs hx hs
    obtain ⟨t₂, hby', hlatest', -⟩ := h.of_touched hobs hy hs'
    rw [hlatest] at hl
    rw [hlatest'] at hl'
    cases hl
    cases hl'
    obtain ⟨c, row, hlock, -⟩ := hby.lock
    obtain ⟨c', row', hlock', -⟩ := hby'.lock
    rw [hlock] at hlock'
    cases hlock'
    rfl
  lost x th r hth hl hlost := by
    cases hs : touched th with
    | none => rfl
    | some s =>
      obtain ⟨t, -, hlatest, -⟩ := h.of_touched hobs hth hs
      rw [hlatest] at hl
      cases hl
      cases hlost

/-- **A start that is committed** was the start of a task that was TO_DO until then,
and is TO_DO no longer. No step makes a task TO_DO again, so this is for good. -/
theorem of_commitsStart (h : Claimed w log) {e : Entry sig Tid World.Env} {t : TaskId}
    (hap : Happens (system cfg) startProtocol w log e w') (hc : CommitsStart w e t) :
    w.db.ToDo t ∧ ¬ w'.db.ToDo t := by
  obtain ⟨x, c, ch, r, row, rfl, hch, hlock, hrow⟩ := hc
  obtain ⟨n, hclaim, -⟩ := h.holds.pending t x c row hlock hrow
  have hpre : (starts log x).Owns c → ∃ t s, (starts log x).phase = .spawned c t s :=
    hap.of_performed.1
  obtain ⟨t', s, hph⟩ := hpre (.inl (by rw [hclaim]; exact Option.some_ne_none _))
  have hopen : (starts log x).phase.claim = some (c, t', s.node) := by rw [hph]; rfl
  have hsame := h.holds.open' x c t' s.node hopen
  rw [hclaim] at hsame
  cases hsame
  refine ⟨(h.holds.held x c t _ hopen).2, ?_⟩
  rintro ⟨row', hrow', htodo⟩
  rw [World.perform_commit hap.of_performed.2.1 hch, RowStore.commit_rows,
    RowStore.read_of_locked _ hlock] at hrow'
  cases hrow'
  rw [hrow] at htodo
  cases htodo

/-- A task that is not TO_DO is not started again. -/
theorem startOver {q : State} {t : TaskId} (h : Claimed q.world q.log)
    (hobs : q.Obeys (system cfg) (startProtocol.prod claimWatch))
    (ht : ¬ q.world.db.ToDo t) : StartOver cfg q t where
  untouched x th s n hth hs hl := by
    obtain ⟨t', hby, hlatest, -⟩ := h.of_touched hobs hth hs
    rw [hlatest] at hl
    cases hl
    exact ht hby.toDo
  uncommitted a q' e hstep he hc := by
    have hap := ((sound cfg AnyStep).step_pool hobs h hstep fun _ _ => trivial).2 e he
    exact ht (h.of_commitsStart hap.fst hc).1

end Claimed

/-- **At most one start holds the claim, and at most one is ever committed.** In
every run, a machine is touched only under the claim made for it, and after a start
is committed no machine is touched for that task and no start of it is committed
again. The database decides: the workers may belong to any processes, which share
nothing else. -/
theorem claimsExclude {cfg : Nat → Settings} {w : World} {q : State}
    (hlocks : ∀ t, w.db.tasks.locks t = none)
    (hrun : Run cfg AnyStep (State.initial w) q) :
    ClaimLaw q ∧ ∀ a q' e t, q.step (system cfg) a = some q' → q'.log = e :: q.log →
      CommitsStart q.world e t → ∀ q'', Run cfg AnyStep q' q'' → StartOver cfg q'' t := by
  have hsound := Claimed.sound cfg AnyStep
  obtain ⟨hobs, hinv⟩ := hsound.invariant hrun (Pool.obeys_start w) (.start w hlocks)
  refine ⟨hinv.law hobs, fun a q' e t hstep he hc q'' hrun' => ?_⟩
  obtain ⟨⟨hobs', hinv'⟩, hhap⟩ := hsound.step_pool hobs hinv hstep fun _ _ => trivial
  have hdone : ¬ q'.world.db.ToDo t := (hinv.of_commitsStart (hhap e he).fst hc).2
  -- from here on the task is not TO_DO
  have hafter : Sound (system cfg) (startProtocol.prod claimWatch) AnyStep
      fun w log => Claimed w log ∧ ¬ w.db.ToDo t :=
    { jobs := hsound.jobs
      step := fun w log e w' h hap hC =>
        ⟨(hsound.step w log e w' h.1 hap hC).1, (hsound.step w log e w' h.1 hap hC).2,
          fun hnew => h.2 (h.1.holds.toDo_step hap hnew)⟩ }
  obtain ⟨hobs'', hinv'', hdone''⟩ := hafter.invariant hrun' hobs' ⟨hinv', hdone⟩
  exact hinv''.startOver hobs'' hdone''

/-! ## A run with two daemons

The two daemons read the same task as TO_DO, and both try to claim it. The
second one waits for the row lock, and when it gets it the status is RUNNING,
so its statement matches no row. It gives up. -/

namespace Contention

def script : Script sig World Tid World.Env where
  reply := usualReply

/-- The workers of two daemons try to start the same task on the same machine: the
first one has spawned it, the second one waits for the row. Each daemon has a
session of its own, so the flag in memory does not keep them apart. -/
def contended : List (Move sig Tid Job World.Env) :=
  [.act (.spawn ⟨0, 1⟩ .allocateWorker), .drive ⟨0, 1⟩ 51,
   .act (.spawn ⟨1, 1⟩ .allocateWorker), .drive ⟨1, 1⟩ 25]

/-- The first worker awaits the COMMIT of its start. -/
def committing (q : State) : Bool :=
  match q.threads ⟨0, 1⟩ with
  | some (.waiting (.commit 3) _) => (q.world.db.tasks.locks 1).any fun lock =>
      decide (lock.1 = ⟨⟨0, 1⟩, 3⟩) && lock.2.any (·.status = .running)
  | _ => false

/-- The second worker has lost its claim. -/
def loses (q : State) : Bool := (claimHistory q.log ⟨1, 1⟩).latest = some ⟨1, 1, false⟩

/-- The script can be played, and the second worker finds no row. -/
theorem script_loses : ((script.play (system Booking.settings) contended
    (State.initial Execution.world)).bind fun q =>
      (q.step (system Booking.settings) (.perform ⟨0, 1⟩ (.done .none))).bind fun q' =>
        (script.play (system Booking.settings) [.drive ⟨1, 1⟩ 1] q').map fun q'' =>
          committing q && loses q'') = some true := by
  decide +kernel

/-- The COMMIT that the first worker awaits is that of a start. -/
theorem commitsStart_of_committing {q q' : State} (h : committing q = true)
    (hstep : q.step (system Booking.settings) (.perform ⟨0, 1⟩ (.done .none)) = some q') :
    ∃ e, q'.log = e :: q.log ∧ CommitsStart q.world e 1 := by
  unfold committing at h
  split at h
  · rename_i k hth
    obtain ⟨⟨o, v⟩, hlock, hv⟩ := (Option.any_eq_true _ _).mp h
    simp only [Bool.and_eq_true, decide_eq_true_eq, Option.any_eq_true] at hv
    obtain ⟨rfl, row, rfl, hrow⟩ := hv
    simp only [Pool.step, hth] at hstep
    split at hstep
    · obtain ⟨⟨r, w'⟩, -, rfl⟩ := Option.map_eq_some_iff.mp hstep
      exact ⟨_, rfl, _, _, _, _, row, rfl, rfl, hlock, hrow⟩
    · cases hstep
  · cases h

end Contention

/-- The start of a task that two daemons try to start. The first one commits, the
second one gives up, and no machine is touched for the task afterwards. -/
theorem claimsExclude_contended : ∃ q a q' e q'',
    Run Booking.settings AnyStep (State.initial Execution.world) q ∧
      q.step (system Booking.settings) a = some q' ∧ q'.log = e :: q.log ∧
      CommitsStart q.world e 1 ∧ Run Booking.settings AnyStep q' q'' ∧
      Contention.loses q'' = true ∧ ClaimLaw q ∧ StartOver Booking.settings q'' 1 := by
  obtain ⟨q, hq, hrest⟩ := Option.bind_eq_some_iff.mp Contention.script_loses
  obtain ⟨q', hq', hrest'⟩ := Option.bind_eq_some_iff.mp hrest
  obtain ⟨q'', hq'', hb⟩ := Option.map_eq_some_iff.mp hrest'
  rw [Bool.and_eq_true] at hb
  have hrun : Run Booking.settings AnyStep (State.initial Execution.world) q :=
    (Script.steps_of_play hq).mono fun _ _ _ _ => trivial
  have hrun' : Run Booking.settings AnyStep q' q'' :=
    (Script.steps_of_play hq'').mono fun _ _ _ _ => trivial
  obtain ⟨e, he, hc⟩ := Contention.commitsStart_of_committing hb.1 hq'
  obtain ⟨hlaw, hover⟩ := claimsExclude (fun _ => rfl) hrun
  exact ⟨q, _, q', e, q'', hrun, hq', he, hc, hrun', hb.2, hlaw,
    hover _ q' e 1 hq' he hc q'' hrun'⟩

end Yascheduler
