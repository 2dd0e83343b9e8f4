import Yascheduler.Safety.Booking

/-!
# Who frees a BUSY session

A session that is BUSY is never offered to a task and never deallocated, so
somebody has to free it: the start that has occupied it, or the occupancy
monitor. The deployer gives a machine back when the upload or the spawn
fails; the monitor is installed after the commit. What happens in between –
the commit itself, its events, leaving the unit of work – is covered by
neither of them, and a failure there leaves a session that nobody frees.

## Three places to look

A BUSY session is in order if a monitor watches it, or if the start that has
occupied it is still on its way and has promised one of two things: to give it
back, or to install the monitor. The third place is the session itself – one that
is closed needs nobody. What the invariant says is that there is no fourth.
-/

namespace Yascheduler

open Store Async StartState

/-- A start that has not failed holds the machine, and its coroutine goes on. It is
still going to install a monitor, or to release the machine. -/
def StartInFlight (q : State) (p : Nat) (s : SessionId) : Prop :=
  ∃ x th, x.proc = p ∧ q.threads x = some th ∧ (∀ r, th ≠ .finished r) ∧
    (starts q.log x).phase.session = some s ∧ (starts q.log x).broken = false

/-- **Every open registered BUSY session** has a start in flight or a live monitor.
A session without either stays BUSY for good: only a monitor sets it back to FREE,
and only a start installs one. -/
def NoStuckSession (q : State) : Prop :=
  ∀ p n s y, (q.world.procs p).registry.get n = some s →
    (q.world.procs p).heap s = some y → y.closed = false → y.machine.state = .busy →
    y.monitor.isSome = true ∨ StartInFlight q p s

/-- **A start gives its machine back.** If the latest step has ended a start on a
machine it had occupied, with the claim uncommitted, then the machine is FREE or its
session is closed. It looks at the latest step only; that it does so in every state
is what makes it a law of the run. -/
def GivesBack (w : World) (log : Log) : Prop :=
  ∀ x ev log' s y, log = .thread x ev :: log' → (starts log' x).phase.live = some s →
    (starts log x).phase.session = none → (w.procs x.proc).heap s = some y →
    y.machine.state = .free ∨ y.closed = true

/-- A coroutine that has ended holds no machine. Its phase is read from the log, so
this says something about every path through its program, cancelled ones included.
-/
def EndsEmptyHanded (q : State) : Prop :=
  ∀ x r, q.threads x = some (.finished r) → (starts q.log x).phase.session = none

/-- **Nothing fails between a spawn and the start of the occupancy check.** These
are few steps: the row is written and committed, and the check is started. All of
them are outside the `try` that releases the machine. -/
def NothingFailsAfterSpawn : StepCondition := fun _ log e =>
  ∀ x ev, e = .thread x ev → (starts log x).failsAfterSpawn ev = false

/-! ## The invariant

A start is followed from the occupation to the check. It holds the machine all
the time, unless it is broken, and the phases are those of the protocol. So a
BUSY session belongs to a start in a certain phase or to a monitor, and each
event that ends the one begins the other. -/

/-- Somebody frees the session: it is not BUSY any more, it is closed, it has a live
monitor, or a start holds it. -/
def Watched (log : Log) (p : Nat) (s : SessionId) (y : Session) : Prop :=
  y.closed = false → y.machine.state = .busy →
    y.monitor.isSome = true ∨ ∃ x, x.proc = p ∧ (starts log x).phase.session = some s

/-- **What a stuck session would have to break.** Each session has somebody who
frees it, and what the log says about the starts agrees with the claims. -/
structure Attended (w : World) (log : Log) : Prop where
  claims : ClaimsHold w log
  whole : ∀ x, (starts log x).broken = false
  watched : ∀ p s y, (w.procs p).heap s = some y → Watched log p s y
  givesBack : GivesBack w log

/-- What the calls on a session do to one that somebody frees. Only `occupy` makes
it BUSY, and its caller holds it from then on; the others free it, start its
monitor, close it, or leave all this alone. -/
theorem watched_call {log log' : Log} {p now : Nat} {s : SessionId} {y : Session}
    {c : Call} (h : Watched log p s y) (hc : c.session = some s)
    (hoccupy : c = .occupy s → y.machine.state = .free →
      ∃ x, x.proc = p ∧ (starts log' x).phase.session = some s)
    (hkeep : (∀ e, c ≠ .startOccupancyCheck s e) → c ≠ .release s →
      ∀ x, x.proc = p → (starts log x).phase.session = some s →
      ∃ x, x.proc = p ∧ (starts log' x).phase.session = some s) :
    Watched log' p s (c.onSession now y) := by
  intro hclosed hbusy
  cases c with
  | occupy s' =>
    cases hc
    cases hst : y.machine.state with
    | free => exact .inr (hoccupy rfl hst)
    | busy =>
      rw [Call.onSession_occupy_busy hst] at hclosed ⊢
      refine (h hclosed hst).imp id ?_
      rintro ⟨x, hx, hs⟩
      exact hkeep (fun _ h => nomatch h) (fun h => nomatch h) x hx hs
  | release s' => cases hbusy
  | startOccupancyCheck s' engine =>
    have hopen : y.closed = false := (y.startOccupancyCheck_closed engine).symm.trans hclosed
    refine .inl ?_
    show (y.startOccupancyCheck engine).monitor.isSome = true
    rw [y.startOccupancyCheck_monitor hopen]
    rfl
  | markClosed s' => exact absurd (y.markClosed_closed.symm.trans hclosed) (by decide)
  | closeConn s' =>
    cases hc
    refine (h hclosed hbusy).imp id ?_
    rintro ⟨x, hx, hs⟩
    exact hkeep (fun _ h => nomatch h) (fun h => nomatch h) x hx hs
  | _ => cases hc

/-- A start with an open claim holds the machine it has occupied. -/
theorem session_of_live {ph : StartPhase} {s : SessionId} (h : ph.live = some s) :
    ph.session = some s := by
  cases ph <;> first | exact h | cases h

/-- A start that ends without a commit has released its machine, or found it
closed. -/
theorem givesBack_step {cfg : Nat → Settings} {w w' : World} {log : Log}
    {e : Entry sig Tid World.Env} (hap : Happens (system cfg) startProtocol w log e w')
    (hwhole : ∀ x, (starts (e :: log) x).broken = false) : GivesBack w' (e :: log) := by
  intro x ev log' s y he hlive hnone hy
  cases he
  have hb := hwhole x
  rw [starts_self] at hb hnone
  have hchange := sessionChange hap x.proc s
  rw [hy] at hchange
  generalize hz : some y = z at hchange
  rcases session_step (session_of_live hlive) hb hap.allows with hs | rfl | rfl | ⟨e, rfl⟩
  · rw [hs] at hnone
    cases hnone
  · cases hchange with
    | same hno => exact absurd rfl (hno x _ _ rfl rfl)
    | call hx hs =>
      obtain ⟨y₀, -, rfl⟩ := Option.map_eq_some_iff.mp hz.symm
      exact .inl rfl
  · cases hchange with
    | same hno =>
      refine .inr ?_
      have hr : true = ((w.procs x.proc).heap s).any (·.closed) := hap.of_call.2.1
      rw [← hz] at hr
      exact hr.symm
    | call hx hs => cases hs
  · obtain hph | ⟨t, hph⟩ : (starts log x).phase = .idle ∨
      ∃ t, (starts log x).phase = .committed t s := hap.allows
    · rw [hph] at hlive
      cases hlive
    · rw [hph] at hlive
      cases hlive

/-- **Nothing that happens breaks it.** A start lets go of its machine in three ways
only: it releases it, it hands it to the monitor, or it finds the session closed.
Any other way would be a failure after a spawn. -/
theorem attended_sound (cfg : Nat → Settings) :
    Sound (system cfg) startProtocol NothingFailsAfterSpawn Attended where
  jobs x j := program_runs (cfg x.proc) j
  step w log e w' h hap hC := by
    obtain ⟨hans, hclaims⟩ := h.claims.step hap
    have hwhole : ∀ x, (starts (e :: log) x).broken = false := by
      intro x
      cases e with
      | env e => exact h.whole x
      | thread y ev =>
        by_cases hxy : y = x
        · subst hxy
          rw [starts_self, broken_step, h.whole, hC y ev rfl]
          rfl
        · rw [starts_ne _ _ hxy]
          exact h.whole x
    refine ⟨hans, hclaims, hwhole, fun p s y hy => ?_, givesBack_step hap hwhole⟩
    -- a start goes on, unless it lets go of its machine with this entry
    have hkeep : ∀ x, x.proc = p → (starts log x).phase.session = some s →
        (∃ x, x.proc = p ∧ (starts (e :: log) x).phase.session = some s) ∨
        ∃ c r, e = .thread x (.call c r) ∧ (c = .release s ∨
          (∃ engine, c = .startOccupancyCheck s engine) ∨
          c = .isClosed s ∧ ((w.procs p).heap s).any (·.closed) = true) := by
      intro x hx hs
      cases e with
      | env e => exact .inl ⟨x, hx, hs⟩
      | thread z ev =>
        by_cases hzx : z = x
        · subst hzx
          have hb := hwhole z
          rw [starts_self] at hb
          rcases session_step hs hb hap.allows with hs' | rfl | rfl | ⟨engine, rfl⟩
          · exact .inl ⟨z, hx, (starts_self log z ev).symm ▸ hs'⟩
          · exact .inr ⟨_, _, rfl, .inl rfl⟩
          · refine .inr ⟨_, _, rfl, .inr (.inr ⟨rfl, ?_⟩)⟩
            rw [← hx]
            exact hap.of_call.2.1.symm
          · exact .inr ⟨_, _, rfl, .inr (.inl ⟨engine, rfl⟩)⟩
        · exact .inl ⟨x, hx, (starts_ne log ev hzx).symm ▸ hs⟩
    have hchange := sessionChange hap p s
    rw [hy] at hchange
    generalize hz : some y = z at hchange
    cases hchange with
    | same hno =>
      intro hclosed hbusy
      refine (h.watched p s y hz.symm hclosed hbusy).imp id ?_
      rintro ⟨x, hx, hs⟩
      rcases hkeep x hx hs with hdone | ⟨c, r, rfl, rfl | ⟨engine, rfl⟩ | ⟨rfl, hany⟩⟩
      · exact hdone
      · exact absurd rfl (hno x _ r rfl hx)
      · exact absurd rfl (hno x _ r rfl hx)
      · rw [← hz] at hany
        rw [show y.closed = true from hany] at hclosed
        cases hclosed
    | @call x c r hx hs =>
      obtain ⟨y₀, hy₀, rfl⟩ := Option.map_eq_some_iff.mp hz.symm
      refine watched_call (h.watched p s y₀ hy₀) hs ?_ ?_
      · rintro rfl hfree
        obtain ⟨hpre, hr, -⟩ := hap.of_call
        obtain ⟨c, t, hph⟩ : ∃ c t, (starts log x).phase = .claimed c t s.node := hpre
        have hok : r = .ok () := by
          rw [hr]
          refine Memory.call_occupy_free (y := y₀) ?_ hfree
          rw [hx]
          exact hy₀
        refine ⟨x, hx, ?_⟩
        rw [starts_self, hok]
        show ((starts log x).occupy s).phase.session = some s
        unfold occupy
        rw [hph]
        rfl
      · intro hcheck hrelease x' hx' hs'
        rcases hkeep x' hx' hs' with hdone | ⟨c', r', he, hc'⟩
        · exact hdone
        · cases he
          rcases hc' with hc' | ⟨engine, hc'⟩ | ⟨rfl, -⟩
          · exact absurd hc' hrelease
          · exact absurd hc' (hcheck engine)
          · cases hs
    | connected platforms ncpus hx hs =>
      cases hz
      exact fun _ h => nomatch h
    | checked y₀ y' hy₀ hy' =>
      cases hz
      obtain ⟨m, -, -, -, rfl⟩ := Session.monitorAnswer_eq hy'
      exact fun _ _ => .inl rfl
    | reacted y₀ y' hy₀ hy' =>
      cases hz
      obtain ⟨m, -, ⟨-, rfl⟩ | ⟨-, rfl⟩⟩ := Session.monitorReact_eq hy'
      · exact fun _ h => nomatch h
      · exact fun _ _ => .inl rfl

/-! ## The result -/

/-- At the beginning every open BUSY session has a monitor, so that no start is
needed for any of them. -/
theorem attended_start {w : World} (hlocks : ∀ t, w.db.tasks.locks t = none)
    (hfree : ∀ p s y, (w.procs p).heap s = some y → y.closed = false →
      y.machine.state = .busy → y.monitor.isSome = true) : Attended w [] where
  claims := .start w hlocks
  whole _ := rfl
  watched p s y hy hclosed hbusy := .inl (hfree p s y hy hclosed hbusy)
  givesBack _ _ _ _ _ h := nomatch h

/-- A coroutine that has ended in order holds nothing, unless it failed after a
spawn. -/
theorem settled_session {l : StartState} (h : l.Settled) (hb : l.broken = false) :
    l.phase.session = none := by
  unfold Settled at h
  cases hph : l.phase with
  | idle => rfl
  | claimed c t n => rfl
  | occupied c t s => rw [hph] at h; exact h.elim
  | spawned c t s => rw [hph, hb] at h; cases h
  | committed t s => rw [hph, hb] at h; cases h

/-- **No stuck session.** In a run in which nothing fails between a spawn and the
start of the occupancy check, every BUSY session has somebody who frees it; a start
that gives up gives its machine back; and a coroutine that has ended holds none. The
three are one invariant: each of them is lost at the same steps. -/
theorem noStuckSession {cfg : Nat → Settings} {w : World} {q : State}
    (hlocks : ∀ t, w.db.tasks.locks t = none)
    (hfree : ∀ p s y, (w.procs p).heap s = some y → y.closed = false →
      y.machine.state = .busy → y.monitor.isSome = true)
    (hrun : Run cfg NothingFailsAfterSpawn (State.initial w) q) :
    NoStuckSession q ∧ GivesBack q.world q.log ∧ EndsEmptyHanded q := by
  have hsound := attended_sound cfg
  obtain ⟨hobs, hinv⟩ := hsound.invariant hrun (Pool.obeys_start w)
    (attended_start hlocks hfree)
  have hends : EndsEmptyHanded q := fun x r hx =>
    settled_session (hobs.thread x _ hx).2 (hinv.whole x)
  refine ⟨fun p n s y _ hy hclosed hbusy => ?_, hinv.givesBack, hends⟩
  refine (hinv.watched p s y hy hclosed hbusy).imp id ?_
  rintro ⟨x, hx, hs⟩
  cases hth : q.threads x with
  | none =>
    rw [show starts q.log x = startProtocol.init from hobs.unborn x hth] at hs
    cases hs
  | some th =>
    refine ⟨x, th, hx, hth, ?_, hs, hinv.whole x⟩
    rintro r rfl
    rw [hends x r hth] at hs
    cases hs

/-! ## A run in which it fails

The COMMIT fails and its error leaves the worker. The process runs, the session
is BUSY, and neither the deployer, which has returned, nor the monitor, which
was to be installed after the COMMIT, is there to free it. -/

namespace Occupancy

/-- A worker spawns its task, and the COMMIT fails. The exception leaves the worker,
past everything that would release the machine. -/
def script : List (Move sig Tid Job World.Env) :=
  [.act (.spawn ⟨0, 1⟩ .allocateWorker), .drive ⟨0, 1⟩ 51,
   .act (.perform ⟨0, 1⟩ (.fail (.database "connection lost"))), .drive ⟨0, 1⟩ 20]

/-- The session is BUSY, has no monitor, and the only coroutine has ended. -/
def stuck (q : State) : Bool :=
  (q.world.procs 0).registry.get 1 == some Booking.session &&
  ((q.world.procs 0).heap Booking.session).any (fun y =>
    !y.closed && y.machine.state == .busy && y.monitor.isNone) &&
  (match q.threads ⟨0, 1⟩ with
    | some (.finished _) => true
    | _ => false) &&
  q.log.all fun e => match e with
    | .thread x _ => x == ⟨0, 1⟩
    | .env _ => true

theorem script_sticks : ((oneProcess.play (system Booking.settings) script
    (State.initial Booking.quietWorld)).map stuck) = some true := by
  decide +kernel

theorem not_noStuckSession {q : State} (h : stuck q = true) : ¬ NoStuckSession q := by
  simp only [stuck, Bool.and_eq_true, beq_iff_eq, Option.any_eq_true, Bool.not_eq_true',
    Option.isNone_iff_eq_none, List.all_eq_true] at h
  obtain ⟨⟨⟨hreg, y, hy, ⟨hclosed, hbusy⟩, hmon⟩, hfin⟩, hlog⟩ := h
  intro hstuck
  rcases hstuck 0 1 Booking.session y hreg hy hclosed hbusy with hm | ⟨x, th, -, hth, hgo, hs, -⟩
  · rw [hmon] at hm
    cases hm
  · by_cases hx : x = ⟨0, 1⟩
    · rw [← hx, hth] at hfin
      cases th with
      | finished r => exact hgo r rfl
      | _ => cases hfin
    · have hinit : starts q.log x = startProtocol.init := by
        refine startProtocol.localState_of_absent fun ev hev => hx ?_
        simpa using hlog _ hev
      rw [hinit] at hs
      cases hs

theorem world_free (p : Nat) (s : SessionId) (y : Session)
    (hy : (Booking.quietWorld.procs p).heap s = some y) (_ : y.closed = false)
    (hbusy : y.machine.state = .busy) : y.monitor.isSome = true := by
  change [(Booking.session, _)].lookup s = some y at hy
  rw [List.lookup_cons] at hy
  split at hy
  · cases hy
    cases hbusy
  · cases hy

end Occupancy

/-- **A session stays BUSY for good**, although its worker has ended and nothing
else was disturbed. -/
theorem stuckSession_reachable : ¬ ∀ (cfg : Nat → Settings) (p : Nat) (w : World)
    (q : State), (∀ t, w.db.tasks.locks t = none) →
    (∀ p s y, (w.procs p).heap s = some y → y.closed = false →
      y.machine.state = .busy → y.monitor.isSome = true) →
    Run cfg (OneProcess p) (State.initial w) q → NoStuckSession q := by
  intro h
  obtain ⟨q, hrun, hq⟩ := Script.exists_of_play Occupancy.script_sticks
  exact Occupancy.not_noStuckSession hq (h Booking.settings 0 Booking.quietWorld q
    (fun _ => rfl) Occupancy.world_free (hrun.mono fun _ _ _ => oneProcess_condition))

namespace Occupancy

/-- A script in which nothing may fail between a spawn and its occupancy check. It
allows everything else. -/
def careful : Script sig World Tid World.Env where
  reply := usualReply
  check _ log e := match e with
    | .thread x ev => !(starts log x).failsAfterSpawn ev
    | .env _ => true

theorem careful_condition {w : World} {log : Log} {e : Entry sig Tid World.Env}
    (h : careful.condition w log e) : NothingFailsAfterSpawn w log e := by
  rintro x ev rfl
  simpa [Script.condition, careful] using h

/-- The task is RUNNING and its machine is BUSY. -/
def busy (q : State) : Bool :=
  (q.world.db.tasks.rows 1).any (·.RunsOn 1) &&
  ((q.world.procs 0).heap Booking.session).any (·.machine.state == .busy)

theorem careful_plays : ((careful.play (system Booking.settings)
    [.act (.spawn ⟨0, 1⟩ .allocateWorker), .drive ⟨0, 1⟩ 62]
    (State.initial Booking.quietWorld)).map busy) = some true := by
  decide +kernel

end Occupancy

/-- A start that leaves its machine BUSY, with a monitor. The machine is not FREE,
so what the result says of it is that somebody watches it. -/
theorem noStuckSession_start : ∃ q,
    Run Booking.settings NothingFailsAfterSpawn (State.initial Booking.quietWorld) q ∧
      Occupancy.busy q = true ∧ NoStuckSession q ∧ GivesBack q.world q.log ∧
      EndsEmptyHanded q := by
  obtain ⟨q, hrun, hq⟩ := Script.exists_of_play Occupancy.careful_plays
  have hrun' := hrun.mono fun _ _ _ => Occupancy.careful_condition
  exact ⟨q, hrun', hq, noStuckSession (fun _ => rfl) Occupancy.world_free hrun'⟩

end Yascheduler
