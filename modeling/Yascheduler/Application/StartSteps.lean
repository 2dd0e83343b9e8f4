import Yascheduler.Application.StartProtocol

/-!
# What one event does to a start

Every event, said once: what it does to the claims of a coroutine, to the
machine its start has occupied, and to the memory that something failed after
a spawn.

The local state changes in few ways, and the events that change it are many. The
tables below turn this around: for a given pair of phases they say which event
can lead from one to the other, so that a proof about a phase looks at the events
that reach it and not at all of them.

What matters most is what can *not* happen. A start becomes live only by
occupying a machine, stays live through everything but a release, the end of its
claim or its commit, and is remembered as broken only when something fails while
its process is unchecked.
-/

namespace Yascheduler

open Async StartState

variable {l : StartState}

/-! ## Claims

A claim is open from the save that has found its row until its transaction
ends. Everything else a start does happens in between: it occupies and spawns
under a claim it has made before. So the claims of a coroutine change with the
database only. -/

/-- Giving up a claim makes no other. -/
theorem unclaimed_claim {ph : StartPhase} {c : Nat} {t : TaskId} {n : NodeId}
    (h : ph.unclaimed.claim = some (c, t, n)) : ph.claim = some (c, t, n) := by
  cases ph with
  | claimed c' t' n' => cases h
  | _ => exact h

/-- Occupying a machine keeps the claim, -/
theorem occupy_claim {s : SessionId} (h : ∃ c t, l.phase = .claimed c t s.node) :
    (l.occupy s).claims = l.claims ∧ (l.occupy s).phase.claim = l.phase.claim := by
  obtain ⟨c, t, hph⟩ := h
  unfold occupy
  rw [hph]
  exact ⟨rfl, rfl⟩

/-- so does releasing it, -/
theorem released_claim :
    l.released.claims = l.claims ∧ l.released.phase.claim = l.phase.claim := by
  unfold released
  split
  · rename_i hph
    exact ⟨rfl, by rw [hph]; rfl⟩
  · exact ⟨rfl, rfl⟩

/-- and the start of its check, -/
theorem checked_claim :
    l.checked.claims = l.claims ∧ l.checked.phase.claim = l.phase.claim := by
  unfold checked
  split
  · rename_i hph
    exact ⟨rfl, by rw [hph]; rfl⟩
  · exact ⟨rfl, rfl⟩

/-- and the spawn, -/
theorem spawn_claim :
    l.spawn.claims = l.claims ∧ l.spawn.phase.claim = l.phase.claim := by
  unfold spawn
  split
  · rename_i hph
    exact ⟨rfl, by rw [hph]; rfl⟩
  · exact ⟨rfl, rfl⟩

/-- and its failure. -/
theorem unspawn_claim :
    l.unspawn.claims = l.claims ∧ l.unspawn.phase.claim = l.phase.claim := by
  unfold unspawn
  split
  · rename_i hph
    exact ⟨rfl, by rw [hph]; rfl⟩
  · exact ⟨rfl, rfl⟩

/-- So no call touches the claims: they are made and ended by operations on the
database. -/
theorem call_claim {c : Call} {r : c.Ans} (h : l.callPre c) :
    (step (.call c r) l).claims = l.claims ∧
      (step (.call c r) l).phase.claim = l.phase.claim := by
  cases c with
  | occupy s =>
    cases r with
    | ok u => exact occupy_claim h
    | error e => exact ⟨rfl, rfl⟩
  | release s => exact released_claim
  | isClosed s =>
    cases r with
    | true => exact released_claim
    | false => exact ⟨rfl, rfl⟩
  | startOccupancyCheck s e => exact checked_claim
  | _ => exact ⟨rfl, rfl⟩

/-- Neither does a cancellation, since the transaction is still open. -/
theorem interrupted_claim {o : Op} :
    (step (.interrupted o) l).claims = l.claims ∧
      (step (.interrupted o) l).phase.claim = l.phase.claim := by
  cases o with
  | runBg s t cmd => exact unspawn_claim
  | _ => exact ⟨rfl, rfl⟩

/-- Operations that do not write to the task table leave the claims alone. -/
theorem performed_claim {o : Op} {ch : Choice} {r : Except Exc o.Res}
    (h : o.writesTasks = false) :
    (step (.performed o ch r) l).claims = l.claims ∧
      (step (.performed o ch r) l).phase.claim = l.phase.claim := by
  cases o with
  | sql c st =>
    cases st with
    | taskUpdate task expected => cases h
    | _ => exact ⟨rfl, rfl⟩
  | runBg s t cmd =>
    cases r with
    | ok u => exact spawn_claim
    | error e => exact ⟨rfl, rfl⟩
  | commit c => cases h
  | rollback c => cases h
  | close c => cases h
  | _ => exact ⟨rfl, rfl⟩

/-- The end of a transaction takes the claim of its connection away and no other, -/
theorem ended_claim {c c' : Nat} {t : TaskId} {n : NodeId}
    (h : (l.ended c).phase.claim = some (c', t, n)) :
    l.phase.claim = some (c', t, n) ∧ c' ≠ c := by
  unfold ended at h
  split at h
  · rename_i c₀ t₀ n₀ hcl
    split at h
    · cases h
    · rename_i hne
      rw [hcl] at h
      cases h
      exact ⟨hcl, hne⟩
  · rename_i hcl
    rw [hcl] at h
    cases h

/-- and leaves the record of the claims alone, -/
theorem ended_claims (l : StartState) (c : Nat) : (l.ended c).claims = l.claims := by
  unfold ended
  split <;> first | rfl | (split <;> rfl)

/-- as a COMMIT does. -/
theorem committed_claims (l : StartState) (c : Nat) (effective failed : Bool) :
    (l.committed c effective failed).claims = l.claims := by
  unfold StartState.committed
  split
  · split <;> rfl
  · rfl

/-- A COMMIT without an effect keeps the claim open. -/
theorem uncommitted_claim (c : Nat) (failed : Bool) :
    (l.committed c false failed).claims = l.claims ∧
      (l.committed c false failed).phase.claim = l.phase.claim := by
  refine ⟨committed_claims l c false failed, ?_⟩
  unfold StartState.committed
  split
  · rename_i hph
    split
    · rw [hph]
      rfl
    · rfl
  · rfl

/-- A save that is a claim is recorded. -/
theorem step_claim {c : Nat} {task : AnyTask} {expected : Option TaskStatus}
    (h : saveEffect task expected = .claim) (ch : Choice) (r : Except Exc Bool) :
    ∃ st, task.state = .running st ∧ expected = some .toDo ∧
      step (.performed (.sql c (.taskUpdate task expected)) ch r) l =
        l.claim c task.taskId st.allocatedNodeId (found r) := by
  unfold saveEffect at h
  split at h
  · rename_i st hst
    refine ⟨st, hst, rfl, ?_⟩
    simp only [step, hst]
  · split at h <;> cases h
  · cases h

/-- A save that is no claim finishes the task. -/
theorem saveEffect_done {task : AnyTask} {expected : Option TaskStatus}
    (hc : saveEffect task expected ≠ .claim) (hr : saveEffect task expected ≠ .rawSave) :
    ∃ st, task.state = .done st := by
  cases hst : task.state with
  | done st => exact ⟨st, rfl⟩
  | todo st => exact absurd (by unfold saveEffect; rw [hst]) hr
  | running st =>
    match expected with
    | some .toDo => exact absurd (by unfold saveEffect; rw [hst]) hc
    | none | some .running | some .done =>
      exact absurd (by unfold saveEffect; rw [hst]) hr

/-! ## Phases

The ways forward are those of the source: claim, occupy, spawn, commit, check.
The ways back are its handlers, the deployer that releases the machine and the
unit of work that ends the claim; besides, a spawn that is interrupted takes
back one step, and a claim that finds no row takes back the one before. -/

/-- The connection whose transaction an event ends without a commit. A ROLLBACK that
fails ends nothing. -/
def endedConn : Event sig → Option Nat
  | .performed (.rollback c) ch _ | .performed (.close c) ch _ =>
    if ch.effective then some c else none
  | .reaped (.collect c) => some c
  | _ => none

/-- The event ends the transaction of a connection without a commit. -/
def Ends (c : Nat) (ev : Event sig) : Prop := endedConn ev = some c

instance (c : Nat) (ev : Event sig) : Decidable (Ends c ev) :=
  inferInstanceAs (Decidable (_ = _))

/-- **How an event can change the phase of a start.** The phases follow one another
in the order of the source, and the ways back are those of its handlers. -/
inductive PhaseChange : Event sig → StartPhase → StartPhase → Prop where
  | none {ev ph} : PhaseChange ev ph ph
  | claimed {c task st ch ph} (hst : task.state = .running st) :
      PhaseChange (.performed (.sql c (.taskUpdate task (some .toDo))) ch (.ok true)) ph
        (.claimed c task.taskId st.allocatedNodeId)
  | lost {c task expected ch r c' t n} (hr : found r = false) :
      PhaseChange (.performed (.sql c (.taskUpdate task expected)) ch r)
        (.claimed c' t n) .idle
  | occupied {c t n s} :
      PhaseChange (.call (.occupy s) (.ok ())) (.claimed c t n) (.occupied c t s)
  | released {c t s s'} :
      PhaseChange (.call (.release s') ()) (.occupied c t s) (.claimed c t s.node)
  | closed {c t s s'} :
      PhaseChange (.call (.isClosed s') true) (.occupied c t s) (.claimed c t s.node)
  | spawned {c t s s' t' cmd ch} :
      PhaseChange (.performed (.runBg s' t' cmd) ch (.ok ())) (.occupied c t s)
        (.spawned c t s)
  | unspawned {c t s s' t' cmd} :
      PhaseChange (.interrupted (.runBg s' t' cmd)) (.spawned c t s) (.occupied c t s)
  | committed {c t s ch r} (hch : ch.effective = true) :
      PhaseChange (.performed (.commit c) ch r) (.spawned c t s) (.committed t s)
  | ended {ev c t n ph} (hev : Ends c ev) (hph : ph.claim = some (c, t, n)) :
      PhaseChange ev ph .idle
  | checked {s' e t s} :
      PhaseChange (.call (.startOccupancyCheck s' e) ()) (.committed t s) .idle

/-- A transaction that ends takes the start back to its beginning, if the claim was
in it. -/
theorem ended_change {ev : Event sig} {c : Nat} (h : Ends c ev) :
    PhaseChange ev l.phase (l.ended c).phase := by
  unfold ended
  split
  · rename_i c' t n hcl
    split
    · rename_i hc
      subst hc
      exact .ended h hcl
    · exact .none
  · exact .none

/-- A claim that matched its row begins a start. -/
theorem claim_change {c : Nat} {task : AnyTask} {expected : Option TaskStatus}
    {ch : Choice} {r : Except Exc Bool} :
    PhaseChange (.performed (.sql c (.taskUpdate task expected)) ch r) l.phase
      (step (.performed (.sql c (.taskUpdate task expected)) ch r) l).phase := by
  by_cases heff : saveEffect task expected = .claim
  · obtain ⟨st, hst, rfl, hev⟩ := step_claim (l := l) heff ch r
    have hlost : ∀ r : Except Exc Bool, found r = false →
        PhaseChange (.performed (.sql c (.taskUpdate task (some .toDo))) ch r) l.phase
          l.phase.unclaimed := by
      intro r hr
      cases l.phase with
      | claimed c' t n => exact .lost hr
      | _ => exact .none
    rw [hev]
    match r with
    | .ok true => exact .claimed hst
    | .ok false => exact hlost _ rfl
    | .error e => exact hlost _ rfl
  · rw [step_save heff]
    exact .none

/-- A machine that is occupied belongs to the claim that was made before. -/
theorem occupied_change {s : SessionId} :
    PhaseChange (.call (.occupy s) (.ok ())) l.phase (l.occupy s).phase := by
  unfold occupy
  split
  · rename_i hph
    rw [hph]
    exact .occupied
  · exact .none

/-- A machine is given back, whether it is released or found closed. -/
theorem released_change {ev : Event sig}
    (hev : ∀ c t s, PhaseChange ev (.occupied c t s) (.claimed c t s.node)) :
    PhaseChange ev l.phase l.released.phase := by
  unfold released
  split
  · rename_i c t s hph
    rw [hph]
    exact hev c t s
  · exact .none

/-- The check ends the start. -/
theorem checked_change {s : SessionId} {e : Engine} :
    PhaseChange (.call (.startOccupancyCheck s e) ()) l.phase l.checked.phase := by
  unfold checked
  split
  · rename_i hph
    rw [hph]
    exact .checked
  · exact .none

/-- A spawn is possible on an occupied machine, -/
theorem spawned_change {s : SessionId} {t : TaskId} {cmd : SpawnCommand} {ch : Choice} :
    PhaseChange (.performed (.runBg s t cmd) ch (.ok ())) l.phase l.spawn.phase := by
  unfold spawn
  split
  · rename_i hph
    rw [hph]
    exact .spawned
  · exact .none

/-- and a cancellation that meets it takes the start back to the occupied machine.
-/
theorem unspawned_change {s : SessionId} {t : TaskId} {cmd : SpawnCommand} :
    PhaseChange (.interrupted (.runBg s t cmd)) l.phase l.unspawn.phase := by
  unfold unspawn
  split
  · rename_i hph
    rw [hph]
    exact .unspawned
  · exact .none

/-- A COMMIT ends the claim if it takes effect, whatever it reports. -/
theorem committed_change {c : Nat} {ch : Choice} {r : Except Exc Unit} {failed : Bool} :
    PhaseChange (.performed (.commit c) ch r) l.phase
      (l.committed c ch.effective failed).phase := by
  unfold StartState.committed
  split
  · rename_i c' t s hph
    split
    · rename_i hc
      subst hc
      cases hch : ch.effective with
      | true => rw [hph]; exact .committed hch
      | false => rw [hph]; exact .none
    · exact .none
  · exact .none

/-- **Every event makes one of these changes.** The cases are those of the lemmas
above; every other event leaves the phase alone. -/
theorem phase_change (l : StartState) (ev : Event sig) :
    PhaseChange ev l.phase (step ev l).phase := by
  cases ev with
  | call c r =>
    cases c with
    | occupy s =>
      cases r with
      | error e => exact .none
      | ok u => exact occupied_change
    | release s => exact released_change fun _ _ _ => .released
    | isClosed s =>
      cases r with
      | false => exact .none
      | true => exact released_change fun _ _ _ => .closed
    | startOccupancyCheck s e => exact checked_change
    | _ => exact .none
  | performed o ch r =>
    cases o with
    | sql c st =>
      cases st with
      | taskUpdate task expected => exact claim_change
      | _ => exact .none
    | runBg s t cmd =>
      cases r with
      | error e => exact .none
      | ok u => exact spawned_change
    | commit c =>
      rw [step_commit]
      exact committed_change
    | rollback c =>
      rw [step_rollback]
      split
      · rename_i hch
        exact ended_change (if_pos hch)
      · exact .none
    | close c =>
      rw [step_close]
      split
      · rename_i hch
        exact ended_change (if_pos hch)
      · exact .none
    | _ => exact .none
  | interrupted o =>
    cases o with
    | runBg s t cmd => exact unspawned_change
    | _ => exact .none
  | reaped ch =>
    cases ch with
    | collect c => exact ended_change rfl
    | _ => exact .none

/-- **Only occupying a machine makes a start live.** So two starts that are live on
one machine would have occupied it twice. -/
theorem live_step {ev : Event sig} {s : SessionId}
    (h : (step ev l).phase.live = some s) :
    l.phase.live = some s ∨ ev = .call (.occupy s) (.ok ()) := by
  have hchange := phase_change l ev
  generalize (step ev l).phase = ph at h hchange
  generalize l.phase = ph₀ at hchange ⊢
  cases hchange with
  | none => exact .inl h
  | occupied => cases h; exact .inr rfl
  | spawned => exact .inl h
  | unspawned => exact .inl h
  | _ => cases h

/-! ## Failures after a spawn

There are only two ways to lose the check of a process that is spawned: the
COMMIT does not go through, or the coroutine is cancelled in between. Both are
conditions on one event and the state before it, so a run without such failures
can be described by its events alone. -/

/-- The claim of a spawned process could not be committed. -/
def StartState.commitFails (l : StartState) (c : Nat) (r : Except Exc Unit) : Bool :=
  match l.phase with
  | .spawned c' _ _ => c' = c && failed r
  | _ => false

/-- The coroutine is cancelled after its spawn, while it awaits something
else. -/
def StartState.cancelFails (l : StartState) : Op → Bool
  | .runBg _ _ _ => l.phase.unchecked && l.phase.live.isNone
  | _ => l.phase.unchecked

/-- **Something fails between the spawn of a process and the start of its
occupancy check.** A cancellation that arrives before the spawn has returned
is no such failure. -/
def StartState.failsAfterSpawn (l : StartState) : Event sig → Bool
  | .interrupted o => l.cancelFails o
  | .performed (.commit c) _ r => l.commitFails c r
  | _ => false

/-- **What `broken` remembers.** Nothing resets it, so it is true if one of the two
failures has ever happened to the coroutine. -/
theorem broken_step (l : StartState) (ev : Event sig) :
    (step ev l).broken = (l.broken || l.failsAfterSpawn ev) := by
  have hended : ∀ c, (l.ended c).broken = l.broken := by
    intro c
    unfold ended
    split
    · split <;> rfl
    · rfl
  have hquiet : (step ev l).broken = l.broken → l.failsAfterSpawn ev = false →
      (step ev l).broken = (l.broken || l.failsAfterSpawn ev) := by
    intro h hf
    rw [h, hf, Bool.or_false]
  cases ev with
  | call c r =>
    refine hquiet ?_ rfl
    cases c with
    | occupy s =>
      cases r with
      | error e => rfl
      | ok u => show (l.occupy s).broken = _; unfold occupy; split <;> rfl
    | release s => show l.released.broken = _; unfold released; split <;> rfl
    | isClosed s =>
      cases r with
      | false => rfl
      | true => show l.released.broken = _; unfold released; split <;> rfl
    | startOccupancyCheck s e => show l.checked.broken = _; unfold checked; split <;> rfl
    | _ => rfl
  | performed o ch r =>
    cases o with
    | sql c st =>
      refine hquiet ?_ rfl
      cases st with
      | taskUpdate task expected =>
        by_cases heff : saveEffect task expected = .claim
        · obtain ⟨st, -, -, hev⟩ := step_claim (l := l) heff ch r
          rw [hev]
          rfl
        · rw [step_save heff]
      | _ => rfl
    | runBg s t cmd =>
      refine hquiet ?_ rfl
      cases r with
      | error e => rfl
      | ok u => show l.spawn.broken = _; unfold spawn; split <;> rfl
    | commit c =>
      show (l.committed c ch.effective (failed r)).broken = (l.broken || l.commitFails c r)
      unfold StartState.committed commitFails
      cases hph : l.phase with
      | spawned c' t s =>
        by_cases hc : c' = c
        · simp [hc]
        · simp [hc]
      | _ => exact (Bool.or_false _).symm
    | rollback c =>
      refine hquiet ?_ rfl
      rw [step_rollback]
      split
      · exact hended c
      · rfl
    | close c =>
      refine hquiet ?_ rfl
      rw [step_close]
      split
      · exact hended c
      · rfl
    | _ => exact hquiet rfl rfl
  | interrupted o =>
    cases o with
    | runBg s t cmd =>
      show l.unspawn.broken =
        (l.broken || (l.phase.unchecked && l.phase.live.isNone))
      unfold unspawn cancelled
      cases l.phase <;> simp [StartPhase.unchecked, StartPhase.live]
    | _ => rfl
  | reaped ch =>
    refine hquiet ?_ rfl
    cases ch with
    | collect c => exact hended c
    | _ => rfl

/-! ## The machine of a start

A start refers to its machine by a session object. The session may be closed
under it, without its own doing, and it learns of this when it asks, before it
would release it. Until then it counts as its machine. -/

/-- An event that ends a transaction is only allowed where the start may end. -/
theorem mayEnd_of_ends {ev : Event sig} {c : Nat} (hev : Ends c ev)
    (hallow : startProtocol.Allows l ev) : l.MayEnd c := by
  have hconn : ∀ {c' : Nat} {ch : Choice}, (if ch.effective then some c' else none) = some c →
      c' = c := by
    intro c' ch h
    split at h
    · exact Option.some.inj h
    · cases h
  cases ev with
  | call c' r => cases hev
  | performed o ch r =>
    cases o with
    | rollback c' => rw [← hconn hev]; exact hallow
    | close c' => rw [← hconn hev]; exact hallow
    | _ => cases hev
  | interrupted o => cases hev
  | reaped ch =>
    cases ch with
    | collect c' => exact mayEnd_of_settled hallow c
    | _ => cases hev

/-- **A start keeps its machine** until it releases it, finds it closed or
starts its occupancy check. -/
theorem session_step {ev : Event sig} {s : SessionId}
    (hs : l.phase.session = some s) (hb : (step ev l).broken = false)
    (hallow : startProtocol.Allows l ev) :
    (step ev l).phase.session = some s ∨ ev = .call (.release s) () ∨
      ev = .call (.isClosed s) true ∨
      ∃ e, ev = .call (.startOccupancyCheck s e) () := by
  have hunbroken : l.broken = false := by
    rw [broken_step, Bool.or_eq_false_iff] at hb
    exact hb.1
  have hunsettled : ¬ l.Settled := by
    unfold Settled
    cases hph : l.phase with
    | idle => rw [hph] at hs; cases hs
    | claimed c t n => rw [hph] at hs; cases hs
    | occupied c t s' => exact id
    | spawned c t s' => simp [hunbroken]
    | committed t s' => simp [hunbroken]
  have hchange := phase_change l ev
  generalize hph' : (step ev l).phase = ph' at hchange ⊢
  generalize hph : l.phase = ph at hchange hs
  cases hchange with
  | none => exact .inl hs
  | claimed hst =>
    have hsave : l.MaySave _ _ _ := hallow
    unfold MaySave saveEffect at hsave
    rw [hst] at hsave
    exact absurd hsave.2.1 hunsettled
  | lost hr => cases hs
  | occupied => cases hs
  | released =>
    obtain ⟨c, t, hpre⟩ : ∃ c t, l.phase = .occupied c t _ := hallow
    rw [hph] at hpre
    cases hpre
    cases hs
    exact .inr (.inl rfl)
  | closed =>
    obtain ⟨c, t, hpre⟩ : ∃ c t, l.phase = .occupied c t _ := hallow
    rw [hph] at hpre
    cases hpre
    cases hs
    exact .inr (.inr (.inl rfl))
  | spawned => exact .inl hs
  | unspawned => exact .inl hs
  | committed hch => exact .inl hs
  | ended hev hcl =>
    have hmay := mayEnd_of_ends hev hallow
    unfold MayEnd at hmay
    rw [hph] at hmay
    cases ph with
    | idle => cases hs
    | claimed c t n => cases hs
    | occupied c t s' => cases hcl; exact absurd rfl hmay
    | spawned c t s' => cases hcl; rw [hmay rfl] at hunbroken; cases hunbroken
    | committed t s' => cases hcl
  | checked =>
    obtain hpre | ⟨t, hpre⟩ : l.phase = .idle ∨ ∃ t, l.phase = .committed t _ := hallow
    · rw [hph] at hpre
      cases hpre
    · rw [hph] at hpre
      cases hpre
      cases hs
      exact .inr (.inr (.inr ⟨_, rfl⟩))

end Yascheduler
