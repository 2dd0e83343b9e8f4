import Yascheduler.Application.Shutdown

/-!
# When every cleanup step is attempted exactly once

The flag of `stop()` lets one caller run its body, and whoever comes later
returns at once: no cleanup step is attempted twice. That none is left out needs
two things that the code does not provide:

* no job is registered while the body iterates over the jobs, since the next
  step of the iteration raises then – `start()` registers the loops, and every
  loop its workers, without looking at the flag;
* the task that runs the body is not cancelled while it awaits the clouds or the
  gateway – but whoever returns early cancels it: a second signal's task cancels
  all tasks, and `run_daemon` returns and the event loop does.

Cancelled while it awaits a job, the body goes on: this cancellation is
swallowed like the job's own.
-/

namespace Yascheduler.Shutdown

open Daemon

/-! ## The statement

A step of the cleanup counts when it is attempted, not when it succeeds,
because the body goes on after a failure. So the property has two halves: no
step is attempted a second time, in any state, and none has been left out when
everybody is through. -/

/-- In the body of `stop()`. -/
def Place.inBody : Place → Bool
  | .awaitJob .. | .awaitClouds | .awaitGateway | .awaitHttp => true
  | _ => false

/-- `run_daemon` has ended, and nobody is left in the body of `stop()`. A signal
handler may still be there when `run_daemon` returns, and is then cancelled with the
loop. -/
def Daemon.Finished (s : Daemon) : Prop :=
  s.place .main = .done ∧ ∀ c, (s.place c).inBody = false

/-- **No cleanup step is attempted twice, and in the end each has been.** A step
that fails counts as attempted: the next one is reached all the same. -/
structure CleansUp (s : Daemon) : Prop where
  cloudsStops : s.cloudsStops ≤ 1
  disconnects : s.disconnects ≤ 1
  httpCloses : s.httpCloses ≤ 1
  finished : s.Finished → s.cloudsStops = 1 ∧ s.disconnects = 1 ∧ s.httpCloses = 1

/-- **The condition on a step**: it registers no job while a caller iterates over
them, and leaves no caller cancelled that awaits the clouds or the gateway. The
first would end the iteration with an error, the second the cleanup. -/
structure Undisturbed (s s' : Daemon) : Prop where
  jobs : ∀ c j rest size, s.place c = .awaitJob j rest size → s'.bgJobs = s.bgJobs
  callers : ∀ c, s.place c = .awaitClouds ∨ s.place c = .awaitGateway →
    s'.cancelled c = false

/-! ## How far the cleanup is

The steps come in a fixed order, so one number says which of them have been
attempted. The caller that is in the body is at an await, and the place of the
await says the same number. The invariant is that the two agree, and that there
is at most one such caller. -/

/-- So many of the steps have been attempted, once each. They come in a fixed order,
so a number says which. -/
structure Attempted (s : Daemon) (n : Nat) : Prop where
  cloudsStops : s.cloudsStops = if 1 ≤ n then 1 else 0
  disconnects : s.disconnects = if 2 ≤ n then 1 else 0
  httpCloses : s.httpCloses = if 3 ≤ n then 1 else 0
  httpSession : n < 3 → s.httpSession = true

/-- Nobody is in the body, but possibly one. The guard at its entry lets nobody in
once it was entered. -/
def Alone (s : Daemon) (but : Option Caller) : Prop :=
  ∀ c, some c ≠ but → (s.place c).inBody = false

/-- The steps attempted before an await of the body resumes. -/
def Place.attempts : Place → Nat
  | .awaitClouds => 1
  | .awaitGateway => 2
  | .awaitHttp => 3
  | _ => 0

/-- **One caller is in the body**, in an iteration that sees no new jobs or not
cancelled. -/
structure InBody (s : Daemon) (c : Caller) : Prop where
  stopped : s.stopped = true
  alone : Alone s (some c)
  body : (s.place c).inBody = true
  attempted : Attempted s (s.place c).attempts
  size : ∀ j rest size, s.place c = .awaitJob j rest size → size = s.bgJobs.length
  cancelled : s.place c = .awaitClouds ∨ s.place c = .awaitGateway → s.cancelled c = false

/-- **How far the cleanup is**: not begun, at an await of the body, or all of it
attempted. Between two awaits nobody can look at it. -/
inductive Cleanup (s : Daemon) : Prop where
  | before (hstopped : s.stopped = false) (hn : Attempted s 0) (halone : Alone s none)
  | body (c : Caller) (h : InBody s c)
  | complete (hstopped : s.stopped = true) (hn : Attempted s 3) (halone : Alone s none)

/-- `stop()` lies behind. -/
def Place.after : Place → Bool
  | .sweeping | .done => true
  | _ => false

/-- What every undisturbed step keeps. Besides the state of the cleanup it is about
`run_daemon`, which nobody may cancel and which ends after `stop()`. -/
structure Orderly (s : Daemon) : Prop where
  cleanup : Cleanup s
  /-- nobody cancels `run_daemon` -/
  main : s.cancelled .main = false
  /-- `run_daemon` ends with `stop()` -/
  done : (s.place .main).after = true → s.stopped = true

/-- A daemon begins in order. -/
theorem Orderly.init (workersNum : QueueName → Nat) : Orderly (Daemon.init workersNum) where
  cleanup := .before rfl ⟨rfl, rfl, rfl, fun _ => rfl⟩ fun c _ => by
    cases c <;> rfl
  main := rfl
  done h := nomatch h

/-- What is kept is enough: when nobody is in the body any more, the cleanup is not
begun or complete, and `run_daemon` ends only after `stop()`. -/
theorem Orderly.cleansUp {s : Daemon} (h : Orderly s) : CleansUp s := by
  have hle {n k : Nat} : (if k ≤ n then 1 else 0) ≤ 1 := by split <;> omega
  have hn : ∃ n, Attempted s n := by
    cases h.cleanup with
    | before _ hn _ => exact ⟨_, hn⟩
    | body c hc => exact ⟨_, hc.attempted⟩
    | complete _ hn _ => exact ⟨_, hn⟩
  obtain ⟨n, hcounts⟩ := hn
  refine ⟨hcounts.cloudsStops ▸ hle, hcounts.disconnects ▸ hle, hcounts.httpCloses ▸ hle, ?_⟩
  rintro ⟨hmain, hbody⟩
  cases h.cleanup with
  | before hstopped _ _ =>
    rw [h.done (by rw [hmain]; rfl)] at hstopped
    cases hstopped
  | body c hc =>
    have hin := hc.body
    rw [hbody c] at hin
    cases hin
  | complete _ hn _ => exact ⟨hn.cloudsStops, hn.disconnects, hn.httpCloses⟩

/-! ## Steps outside the body

Most of what happens while a daemon is stopped is not the cleanup: jobs end,
signals arrive, tasks are cancelled. These steps are all handled alike, since
they leave the counts and whoever is in the body as they are. -/

/-- The counts stay, and so does everyone who is or was in the body. Most steps are
of this kind: they are about jobs, signals and cancellations. -/
structure Frame (s s' : Daemon) : Prop where
  stopped : s'.stopped = s.stopped
  httpSession : s'.httpSession = s.httpSession
  cloudsStops : s'.cloudsStops = s.cloudsStops
  disconnects : s'.disconnects = s.disconnects
  httpCloses : s'.httpCloses = s.httpCloses
  body : ∀ c, (s.place c).inBody = true ∨ (s'.place c).inBody = true →
    s'.place c = s.place c

section

variable {s s' s'' : Daemon} {c : Caller} {n : Nat} {place : Place}

theorem Attempted.frame (h : Attempted s n) (hf : Frame s s') : Attempted s' n where
  cloudsStops := hf.cloudsStops.trans h.cloudsStops
  disconnects := hf.disconnects.trans h.disconnects
  httpCloses := hf.httpCloses.trans h.httpCloses
  httpSession hn := hf.httpSession.trans (h.httpSession hn)

theorem Alone.frame {but : Option Caller} (h : Alone s but) (hf : Frame s s') :
    Alone s' but := by
  intro c hc
  cases hbody : (s'.place c).inBody with
  | false => rfl
  | true =>
    rw [hf.body c (.inr hbody), h c hc] at hbody
    cases hbody

theorem InBody.frame (h : InBody s c) (hf : Frame s s') (hu : Undisturbed s s') :
    InBody s' c := by
  have hplace : s'.place c = s.place c := hf.body c (.inl h.body)
  refine ⟨hf.stopped.trans h.stopped, h.alone.frame hf, ?_, ?_, ?_, ?_⟩
  · rw [hplace]
    exact h.body
  · rw [hplace]
    exact h.attempted.frame hf
  · intro j rest size hat
    rw [hplace] at hat
    rw [hu.jobs c j rest size hat]
    exact h.size j rest size hat
  · rw [hplace]
    exact hu.callers c

theorem Cleanup.frame (h : Cleanup s) (hf : Frame s s') (hu : Undisturbed s s') :
    Cleanup s' := by
  cases h with
  | before hstopped hn halone =>
    exact .before (hf.stopped.trans hstopped) (hn.frame hf) (halone.frame hf)
  | body c hc => exact .body c (hc.frame hf hu)
  | complete hstopped hn halone =>
    exact .complete (hf.stopped.trans hstopped) (hn.frame hf) (halone.frame hf)

/-- Such a step keeps the order. -/
theorem Orderly.frame (h : Orderly s) (hf : Frame s s') (hu : Undisturbed s s')
    (hmain : s'.cancelled .main = false)
    (hdone : (s'.place .main).after = true → (s.place .main).after = true ∨ s.stopped = true) :
    Orderly s' where
  cleanup := h.cleanup.frame hf hu
  main := hmain
  done hd := by
    rw [hf.stopped]
    exact (hdone hd).elim h.done id

/-- Who moves is where he has moved to; nobody else moves. -/
@[simp] theorem move_place (c' : Caller) :
    (s.move c place).place c' = if c' = c then place else s.place c' := by
  simp [Daemon.move, Function.update_apply]

theorem Frame.refl (s : Daemon) : Frame s s := ⟨rfl, rfl, rfl, rfl, rfl, fun _ _ => rfl⟩

/-- Someone who is not in the body moves to where he is not in it. -/
theorem Frame.move (hf : Frame s s') (hfrom : (s.place c).inBody = false)
    (hto : place.inBody = false) : Frame s (s'.move c place) := by
  refine ⟨hf.stopped, hf.httpSession, hf.cloudsStops, hf.disconnects, hf.httpCloses, ?_⟩
  intro c' hbody
  rw [move_place] at hbody ⊢
  split
  · rename_i heq
    subst heq
    rw [if_pos rfl, hfrom, hto] at hbody
    rcases hbody with hbody | hbody <;> cases hbody
  · rename_i hne
    rw [if_neg hne] at hbody
    exact hf.body c' hbody

/-- What only the jobs and the cancellations are concerned with. -/
theorem Frame.other (hf : Frame s s') (hstopped : s''.stopped = s'.stopped)
    (hhttp : s''.httpSession = s'.httpSession) (hclouds : s''.cloudsStops = s'.cloudsStops)
    (hgateway : s''.disconnects = s'.disconnects) (hclose : s''.httpCloses = s'.httpCloses)
    (hplace : s''.place = s'.place) : Frame s s'' where
  stopped := hstopped.trans hf.stopped
  httpSession := hhttp.trans hf.httpSession
  cloudsStops := hclouds.trans hf.cloudsStops
  disconnects := hgateway.trans hf.disconnects
  httpCloses := hclose.trans hf.httpCloses
  body c hbody := by
    rw [hplace] at hbody ⊢
    exact hf.body c hbody

/-- `stop()` returns for someone who is not in its body. -/
theorem Frame.stopReturns (hf : Frame s s') (hfrom : (s.place c).inBody = false) :
    Frame s (s'.stopReturns c) := by
  cases c with
  | main => exact (hf.move hfrom rfl).other rfl rfl rfl rfl rfl rfl
  | handler n => exact (hf.move hfrom rfl).other rfl rfl rfl rfl rfl rfl

/-! ## Steps of the body

The body awaits one thing after the other, and each resumption brings it to its
next await. The jobs are the exception: they are iterated over, so the number
of awaits is that of the jobs, and the iteration is where a registration would
do harm. -/

theorem Alone.move {but : Option Caller} (h : Alone s (some c))
    (hplace : but ≠ some c → place.inBody = false) : Alone (s.move c place) but := by
  intro c' hc'
  rw [move_place]
  split
  · rename_i heq
    subst heq
    exact hplace hc'.symm
  · rename_i hne
    exact h c' fun heq => hne (Option.some.inj heq)

theorem stopReturns_main (c : Caller) :
    (s.stopReturns c).cancelled .main = s.cancelled .main := by
  cases c <;> simp [Daemon.stopReturns, Daemon.cancelAll, Daemon.move]

theorem stopRaises_main (c : Caller) :
    (s.stopRaises c).cancelled .main = s.cancelled .main := by
  cases c <;> simp [Daemon.stopRaises, Daemon.cancelAll, Daemon.move]

/-- The caller in the body comes to its next await. -/
theorem Orderly.next (hstopped : s.stopped = true) (hn : Attempted s place.attempts)
    (halone : Alone s (some c)) (hbody : place.inBody = true)
    (hsize : ∀ j rest size, place = .awaitJob j rest size → size = s.bgJobs.length)
    (hcancelled : place = .awaitClouds ∨ place = .awaitGateway → s.cancelled c = false)
    (hmain : s.cancelled .main = false) : Orderly (s.move c place) where
  cleanup := by
    have hplace : (s.move c place).place c = place := by simp
    refine .body c ⟨hstopped, halone.move (absurd rfl), ?_, ?_, ?_, ?_⟩
    · rw [hplace]
      exact hbody
    · rw [hplace]
      exact ⟨hn.cloudsStops, hn.disconnects, hn.httpCloses, hn.httpSession⟩
    · rw [hplace]
      exact hsize
    · rw [hplace]
      exact hcancelled
  main := hmain
  done _ := hstopped

/-- The iteration goes on, or ends. -/
theorem Orderly.iterate (hstopped : s.stopped = true) (hn : Attempted s 0)
    (halone : Alone s (some c)) (hcancelled : s.cancelled c = false)
    (hmain : s.cancelled .main = false) (rest : List Job) :
    Orderly (s.iterate c rest s.bgJobs.length) := by
  unfold Daemon.iterate
  rw [if_neg (by simp)]
  cases rest with
  | nil =>
    have hclouds : s.cloudsStops + 1 = 1 := by
      rw [hn.cloudsStops]
      rfl
    exact .next (s := { s with cloudsStops := s.cloudsStops + 1 }) hstopped
      ⟨hclouds, hn.disconnects, hn.httpCloses, fun _ => hn.httpSession (by omega)⟩
      halone rfl nofun (fun _ => hcancelled) hmain
  | cons j rest =>
    refine .next (s := { s with
      job := Function.update s.job j ((s.job j).map JobState.cancel) }) hstopped
      ⟨hn.cloudsStops, hn.disconnects, hn.httpCloses, hn.httpSession⟩ halone rfl ?_
      (fun _ => hcancelled) hmain
    intro j' rest' size heq
    cases heq
    rfl

theorem Orderly.toGateway (hstopped : s.stopped = true) (hn : Attempted s 1)
    (halone : Alone s (some c)) (hcancelled : s.cancelled c = false)
    (hmain : s.cancelled .main = false) : Orderly (s.toGateway c) := by
  have hgateway : s.disconnects + 1 = 1 := by
    rw [hn.disconnects]
    rfl
  exact .next (s := { s with disconnects := s.disconnects + 1 }) hstopped
    ⟨hn.cloudsStops, hgateway, hn.httpCloses, fun _ => hn.httpSession (by omega)⟩ halone rfl
    nofun (fun _ => hcancelled) hmain

theorem Orderly.toHttp (hstopped : s.stopped = true) (hn : Attempted s 2)
    (halone : Alone s (some c)) (hmain : s.cancelled .main = false) :
    Orderly (s.toHttp c) := by
  have hhttp : s.httpCloses + 1 = 1 := by
    rw [hn.httpCloses]
    rfl
  unfold Daemon.toHttp
  rw [if_pos (hn.httpSession (by omega))]
  exact .next (s := { s with httpCloses := s.httpCloses + 1 }) hstopped
    ⟨hn.cloudsStops, hn.disconnects, hhttp, fun h => absurd h (by decide)⟩ halone rfl nofun
    (fun h => by rcases h with h | h <;> cases h) hmain

/-- The body is left when all steps have been attempted. -/
theorem Orderly.complete (hstopped : s.stopped = true) (hn : Attempted s 3)
    (halone : Alone s (some c)) (hbody : place.inBody = false)
    (hplace : s'.place = (s.move c place).place) (hstopped' : s'.stopped = s.stopped)
    (hclouds : s'.cloudsStops = s.cloudsStops) (hgateway : s'.disconnects = s.disconnects)
    (hhttp : s'.httpCloses = s.httpCloses) (hmain : s'.cancelled .main = false) :
    Orderly s' where
  cleanup := by
    refine .complete (hstopped'.trans hstopped) ⟨hclouds.trans hn.cloudsStops,
      hgateway.trans hn.disconnects, hhttp.trans hn.httpCloses, fun h => absurd h (by omega)⟩ ?_
    intro c' hc'
    rw [hplace]
    exact halone.move (fun _ => hbody) c' hc'
  main := hmain
  done _ := hstopped'.trans hstopped

theorem Orderly.returns (hstopped : s.stopped = true) (hn : Attempted s 3)
    (halone : Alone s (some c)) (hmain : s.cancelled .main = false) :
    Orderly (s.stopReturns c) := by
  have hmain' := (stopReturns_main (s := s) c).trans hmain
  cases c with
  | main =>
    exact .complete hstopped hn halone (show Place.done.inBody = false from rfl)
      rfl rfl rfl rfl rfl hmain'
  | handler n =>
    exact .complete hstopped hn halone (show Place.sweeping.inBody = false from rfl)
      rfl rfl rfl rfl rfl hmain'

theorem Orderly.raises (hstopped : s.stopped = true) (hn : Attempted s 3)
    (halone : Alone s (some c)) (hmain : s.cancelled .main = false) :
    Orderly (s.stopRaises c) := by
  have hmain' := (stopRaises_main (s := s) c).trans hmain
  cases c with
  | main =>
    exact .complete hstopped hn halone (show Place.done.inBody = false from rfl)
      rfl rfl rfl rfl rfl hmain'
  | handler n =>
    exact .complete hstopped hn halone (show Place.done.inBody = false from rfl)
      rfl rfl rfl rfl rfl hmain'

/-! ## Every step -/

/-- `stop()` is called by someone who is not in its body. -/
theorem Orderly.stop (h : Orderly s) {order : List Job}
    (hfrom : (s.place c).inBody = false) (hcancelled : s.cancelled c = false)
    (hu : Undisturbed s (s.stop c order)) : Orderly (s.stop c order) := by
  unfold Daemon.stop at hu ⊢
  cases hstopped : s.stopped with
  | true =>
    rw [hstopped, if_pos rfl] at hu
    rw [if_pos rfl]
    exact h.frame ((Frame.refl s).stopReturns hfrom) hu ((stopReturns_main c).trans h.main)
      fun _ => .inr hstopped
  | false =>
    rw [if_neg Bool.false_ne_true]
    cases h.cleanup with
    | before _ hn halone =>
      exact Orderly.iterate (s := { s with stopped := true }) rfl
        ⟨hn.cloudsStops, hn.disconnects, hn.httpCloses, hn.httpSession⟩
        (fun c' _ => halone c' (by simp)) hcancelled h.main order
    | body c' hc =>
      rw [hc.stopped] at hstopped
      cases hstopped
    | complete hstopped' _ _ =>
      rw [hstopped'] at hstopped
      cases hstopped

/-- After a cleanup step of a caller that is not cancelled comes the next. -/
theorem afterStep_next {outcome : Outcome} {next : Daemon} (hcancelled : s.cancelled c = false)
    (h : s.afterStep c outcome next = some s') : s' = next := by
  unfold Daemon.afterStep at h
  split at h
  · exact (Option.some.inj h).symm
  · exact (Option.some.inj h).symm
  · rw [if_neg (by simp [hcancelled])] at h
    cases h

/-- A caller in the body is the one that the cleanup is at. -/
theorem Cleanup.inBody (h : Cleanup s) (hbody : (s.place c).inBody = true) : InBody s c := by
  cases h with
  | before _ _ halone =>
    rw [halone c (by simp)] at hbody
    cases hbody
  | body c' hc =>
    by_cases heq : c = c'
    · rw [heq]
      exact hc
    · rw [hc.alone c fun h => heq (Option.some.inj h)] at hbody
      cases hbody
  | complete _ _ halone =>
    rw [halone c (by simp)] at hbody
    cases hbody

theorem Attempted.resumed (h : Attempted s n) : Attempted (s.resumed c) n :=
  ⟨h.cloudsStops, h.disconnects, h.httpCloses, h.httpSession⟩

/-- What is known of someone at an await of the body. -/
theorem Cleanup.at_place (h : Cleanup s) (hplace : s.place c = place)
    (hbody : place.inBody = true) :
    InBody s c ∧ Attempted (s.resumed c) place.attempts := by
  have hc := h.inBody (by rw [hplace]; exact hbody)
  refine ⟨hc, ?_⟩
  rw [← hplace]
  exact hc.attempted.resumed

/-- Someone is resumed. -/
theorem Orderly.resume (h : Orderly s) {outcome : Outcome}
    (hstep : s.resume c outcome = some s') (hu : Undisturbed s s') : Orderly s' := by
  unfold Daemon.resume at hstep
  have hresumed : (s.resumed c).cancelled c = false := by simp [Daemon.resumed]
  have hmain : (s.resumed c).cancelled .main = false := by
    simp [Daemon.resumed, Function.update_apply, h.main]
  split at hstep
  · rename_i j rest size hplace
    obtain ⟨hc, hn⟩ := h.cleanup.at_place hplace rfl
    split at hstep
    · obtain rfl := Option.some.inj hstep
      rw [hc.size j rest size hplace]
      exact .iterate (s := s.resumed c) hc.stopped hn hc.alone hresumed hmain rest
    · cases hstep
  · rename_i hplace
    obtain ⟨hc, hn⟩ := h.cleanup.at_place hplace rfl
    obtain rfl := afterStep_next (hc.cancelled (.inl hplace)) hstep
    exact .toGateway hc.stopped hn hc.alone hresumed hmain
  · rename_i hplace
    obtain ⟨hc, hn⟩ := h.cleanup.at_place hplace rfl
    obtain rfl := afterStep_next (hc.cancelled (.inr hplace)) hstep
    exact .toHttp hc.stopped hn hc.alone hmain
  · rename_i hplace
    obtain ⟨hc, hn⟩ := h.cleanup.at_place hplace rfl
    have hreturns : Orderly ({ s.resumed c with httpSession := false }.stopReturns c) :=
      .returns hc.stopped ⟨hn.cloudsStops, hn.disconnects, hn.httpCloses,
        fun h => absurd h (by decide)⟩ hc.alone hmain
    unfold Daemon.afterStep at hstep
    split at hstep
    · exact Option.some.inj hstep ▸ hreturns
    · exact Option.some.inj hstep ▸ hreturns
    · -- cancelled, but all steps have been attempted
      split at hstep
      · exact Option.some.inj hstep ▸ .raises hc.stopped hn hc.alone hmain
      · cases hstep
  · rename_i hplace
    obtain rfl := Option.some.inj hstep
    have hframe : Frame s (s.resumed c) := ⟨rfl, rfl, rfl, rfl, rfl, fun _ _ => rfl⟩
    refine h.frame (hframe.move (by rw [hplace]; rfl) rfl) hu hmain fun hd => .inl ?_
    rw [move_place] at hd
    split at hd
    · rename_i heq
      rw [heq, hplace]
      rfl
    · exact hd
  · cases hstep

/-- Someone moves outside the body, not to behind `stop()`. -/
theorem Orderly.move (h : Orderly s) (hf : Frame s s') (hu : Undisturbed s (s'.move c place))
    (hmain : s'.cancelled .main = false) (hfrom : (s.place c).inBody = false)
    (hto : place.inBody = false) (hafter : c = .main → place.after = false)
    (hplace : s'.place = s.place) : Orderly (s'.move c place) := by
  refine h.frame (hf.move hfrom hto) hu hmain fun hd => .inl ?_
  rw [move_place] at hd
  split at hd
  · rename_i heq
    rw [hafter heq.symm] at hd
    cases hd
  · rwa [hplace] at hd

/-- Only the jobs change. -/
theorem Orderly.sameCallers (h : Orderly s) (hf : Frame s s') (hu : Undisturbed s s')
    (hplace : s'.place = s.place) (hcancelled : s'.cancelled = s.cancelled) : Orderly s' := by
  refine h.frame hf hu (by rw [hcancelled]; exact h.main) fun hd => .inl ?_
  rwa [hplace] at hd

theorem Orderly.jobStarts (h : Orderly s) {j : Job} (hstep : s.jobStarts j = some s')
    (hu : Undisturbed s s') : Orderly s' := by
  unfold Daemon.jobStarts at hstep
  split at hstep
  · obtain rfl := Option.some.inj hstep
    exact h.sameCallers ⟨rfl, rfl, rfl, rfl, rfl, fun _ _ => rfl⟩ hu rfl rfl
  · split at hstep
    · obtain rfl := Option.some.inj hstep
      exact h.sameCallers ⟨rfl, rfl, rfl, rfl, rfl, fun _ _ => rfl⟩ hu rfl rfl
    · obtain rfl := Option.some.inj hstep
      exact h.sameCallers ⟨rfl, rfl, rfl, rfl, rfl, fun _ _ => rfl⟩ hu rfl rfl
  · cases hstep

/-- **Every undisturbed step keeps the order of the cleanup.** Either nobody in the
body is concerned, or the one caller there comes to its next await. -/
theorem Orderly.step (h : Orderly s) {e : Event} (hstep : s.step e = some s')
    (hu : Undisturbed s s') : Orderly s' := by
  have hjobs (jobs : List Job) : Frame s (s.addJobs jobs) :=
    ⟨rfl, rfl, rfl, rfl, rfl, fun _ _ => rfl⟩
  cases e with
  | launch =>
    simp only [Daemon.step] at hstep
    split at hstep
    · rename_i hplace
      obtain rfl := Option.some.inj hstep
      exact h.move (hjobs _) hu h.main (by rw [hplace]; rfl) rfl (fun _ => rfl) rfl
    · cases hstep
  | launchRest =>
    simp only [Daemon.step] at hstep
    split at hstep
    · rename_i hplace
      obtain rfl := Option.some.inj hstep
      exact h.move (hjobs _) hu h.main (by rw [hplace]; rfl) rfl (fun _ => rfl) rfl
    · cases hstep
  | startReturns order =>
    simp only [Daemon.step] at hstep
    split at hstep
    · rename_i jobs hplace
      split at hstep
      · obtain rfl := Option.some.inj hstep
        exact h.stop (by rw [hplace]; rfl) h.main hu
      · cases hstep
    · cases hstep
  | startRaises order =>
    simp only [Daemon.step] at hstep
    split at hstep
    · rename_i hplace
      split at hstep
      · obtain rfl := Option.some.inj hstep
        exact h.stop (by rw [hplace]; rfl) h.main hu
      · cases hstep
    · rename_i hplace
      split at hstep
      · obtain rfl := Option.some.inj hstep
        exact h.stop (by rw [hplace]; rfl) h.main hu
      · cases hstep
    · cases hstep
  | jobStarts j => exact h.jobStarts hstep hu
  | jobEnds j outcome =>
    simp only [Daemon.step] at hstep
    split at hstep
    · obtain rfl := Option.some.inj hstep
      exact h.sameCallers ⟨rfl, rfl, rfl, rfl, rfl, fun _ _ => rfl⟩ hu rfl rfl
    · cases hstep
  | signal n =>
    simp only [Daemon.step] at hstep
    split at hstep
    · rename_i hplace
      obtain rfl := Option.some.inj hstep
      exact h.move (Frame.refl s) hu h.main (by rw [hplace]; rfl) rfl nofun rfl
    · cases hstep
  | handlerStarts n order =>
    simp only [Daemon.step] at hstep
    split at hstep
    · rename_i hplace
      have hbody : (s.place (.handler n)).inBody = false := by
        rw [hplace]
        rfl
      split at hstep
      · obtain rfl := Option.some.inj hstep
        have hframe : Frame s (s.resumed (.handler n)) :=
          ⟨rfl, rfl, rfl, rfl, rfl, fun _ _ => rfl⟩
        exact h.move hframe hu h.main hbody rfl nofun rfl
      · rename_i hcancelled
        split at hstep
        · obtain rfl := Option.some.inj hstep
          exact h.stop hbody (Bool.eq_false_iff.mpr hcancelled) hu
        · cases hstep
    · cases hstep
  | resume c outcome => exact h.resume hstep hu

end

/-- **Shutdown attempts every cleanup step exactly once**, in every run that
registers no job while `stop()` iterates over the jobs and cancels no caller that
awaits the clouds or the gateway. It does not matter who calls `stop()` first, how
often it is called, or which of the steps fail. -/
theorem cleansUpOnce {workersNum : QueueName → Nat} {events : List Event} {s : Daemon}
    (hrun : Machine.run Daemon.step (Daemon.init workersNum) events = some s)
    (hcond : Machine.Along Daemon.step (fun s _ s' => Undisturbed s s')
      (Daemon.init workersNum) events) : CleansUp s :=
  (Machine.run_invariant_along (fun _ _ _ h hstep hu => Orderly.step h hstep hu) hrun hcond
    (Orderly.init workersNum)).cleansUp

/-! ## Two runs

The first run is an ordinary shutdown, with one signal. The task of the signal
is in the body when `run_daemon` finds the flag set and returns, and with it
the event loop ends, which cancels all tasks that are left. -/

/-- The jobs of a daemon with one worker for each queue. -/
def allJobs : List Job :=
  [.stats, .loop .connMachine, .worker .connMachine 0, .loop .allocate, .loop .consume,
    .loop .deallocate, .worker .allocate 0, .worker .consume 0, .worker .deallocate 0]

/-- A daemon is up and gets a signal; the signal's task cancels and awaits the jobs,
and awaits the clouds when `start()` returns. Then `run_daemon` calls `stop()`
itself, finds the flag set, and returns. -/
def signalled : List Event :=
  [.launch, .jobStarts .stats, .jobStarts (.loop .connMachine),
    .jobStarts (.worker .connMachine 0), .launchRest, .jobStarts (.loop .allocate),
    .jobStarts (.loop .consume), .jobStarts (.loop .deallocate),
    .jobStarts (.worker .allocate 0), .jobStarts (.worker .consume 0),
    .jobStarts (.worker .deallocate 0), .signal 0, .handlerStarts 0 allJobs] ++
  allJobs.flatMap (fun j => [.jobEnds j .cancelled, .resume (.handler 0) .returned]) ++
  [.startReturns allJobs, .resume (.handler 0) .cancelled]

/-- **`run_daemon` returns and the cleanup is cancelled**: the gateway and the HTTP
session are left. The call that finds the guard set does not wait for the one that
has set it. -/
theorem cleanup_cancelled :
    ∃ s, Machine.run Daemon.step (Daemon.init fun _ => 1) signalled = some s ∧
      s.Finished ∧ s.cloudsStops = 1 ∧ s.disconnects = 0 ∧ s.httpCloses = 0 := by
  refine ⟨_, rfl, ⟨rfl, fun c => ?_⟩, rfl, rfl, rfl⟩
  match c with
  | .main => rfl
  | .handler 0 => rfl
  | .handler (n + 1) => rfl

/-- While there are no signals, and no jobs are registered. -/
theorem Undisturbed.of_main {s s' : Daemon} (hhandlers : ∀ n, s.place (.handler n) = .absent)
    (hmain : s'.cancelled .main = false)
    (hjobs : s'.bgJobs = s.bgJobs ∨ (s.place .main).inBody = false) : Undisturbed s s' where
  jobs c j rest size hplace := by
    cases c with
    | main =>
      rw [hplace] at hjobs
      exact hjobs.resolve_right nofun
    | handler n => rw [hhandlers n] at hplace; cases hplace
  callers c hplace := by
    cases c with
    | main => exact hmain
    | handler n => rw [hhandlers n] at hplace; rcases hplace with h | h <;> cases h

/-- `start()` fails before the first machine, and a cleanup step fails. Here
`run_daemon` is the one that cleans up. -/
def failing : List Event :=
  [.launch, .startRaises [.stats, .loop .connMachine], .jobStarts .stats,
    .resume .main .returned, .jobStarts (.loop .connMachine), .resume .main .returned,
    .resume .main .failed, .resume .main .returned, .resume .main .returned]

/-- Its cleanup is complete. -/
theorem cleansUpOnce_failing :
    ∃ s, Machine.run Daemon.step (Daemon.init fun _ => 1) failing = some s ∧
      s.place .main = .done ∧ CleansUp s := by
  obtain ⟨s, hrun, hplace⟩ : ∃ s,
      Machine.run Daemon.step (Daemon.init fun _ => 1) failing = some s ∧
        s.place .main = .done := ⟨_, rfl, rfl⟩
  refine ⟨s, hrun, hplace, cleansUpOnce hrun ?_⟩
  refine .cons rfl (.of_main (fun _ => rfl) rfl (.inr rfl)) ?_
  iterate 8 refine .cons rfl (.of_main (fun _ => rfl) rfl (.inl rfl)) ?_
  trivial

end Yascheduler.Shutdown
