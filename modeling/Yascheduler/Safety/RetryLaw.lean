import Mathlib.Data.Rat.Floor
import Yascheduler.Async.Trace
import Yascheduler.Shared.Retry

/-!
# The law of a retry

A retry is a function of the outcomes of its attempts, of how long they take,
and of how much later than asked each wait ends. What it is to do is a law on
what it is answered. One part of this law fails: the time is looked at when an
attempt has failed, and not after the wait. So an attempt is started although
the time is over, when it ends during a wait – and only then.

## A law in terms of answers

How often a retry attempts, when, and what it finally raises is determined by the
outcomes and the times, so the law could have been a program that computes them.
That program would have been the code again. It is a list of facts instead: the
attempts are those up to the first that is not retried or comes too late, each is
followed by the wait that is due, and the last outcome is what leaves.

Where the law fails, one more look at the clock would keep it.
-/

namespace Yascheduler.Retry

open Async

/-! ## Attempts

What a retry meets is a sequence of outcomes and times, one for each attempt,
given in advance. It may be infinite in effect, since the retry decides how
much of it is used. The answers of a run are those of the sequence for as long
as it goes on. -/

/-- What an attempt raises. Python has the same three kinds, and only the second is
ever retried. -/
inductive Raised (E : Type) where
  /-- `asyncio.CancelledError` -/
  | cancelled
  | exception (e : E)
  /-- any other `BaseException` -/
  | base (name : String)
deriving DecidableEq

inductive Op where
  | attempt
  | sleep (delay : ℚ)
  | diverge

section

variable (E R : Type)

/-- A clock, attempts and waits. -/
@[reducible] def sig : Sig where
  Call := Unit
  Ans _ := ℚ
  Op := Op
  Res
    | .attempt => R
    | .sleep _ => Unit
    | .diverge => Empty
  Err := Raised E
  cancelled := .cancelled
  Choice := Unit

/-- The clock, the waits and the classes of errors, as the retry sees them. -/
def loop : EventLoop (sig E R) where
  time := Co.sync (S := sig E R) ()
  sleep delay := Co.op (S := sig E R) (.sleep delay)
  diverge := Co.op (S := sig E R) .diverge
  isCancelled
    | .cancelled => true
    | _ => false
  isException
    | .exception _ => true
    | _ => false

/-- An attempt. -/
abbrev func : Co (sig E R) R := Co.op (S := sig E R) .attempt

/-- **A sequence of attempts**, with the time each takes, and how much later
than asked the wait after it ends. -/
structure Attempts where
  outcome : ℕ → Except (Raised E) R
  duration : ℕ → ℚ
  late : ℕ → ℚ
  duration_nonneg : ∀ k, 0 ≤ duration k
  late_nonneg : ∀ k, 0 ≤ late k

end

variable {E R : Type}

/-- From the `k`-th attempt on, the answers are those of the sequence. The clock
shows the time that has passed, so a trace tells when each attempt was made. -/
def Plays (w : Attempts E R) : ℚ → ℕ → Trace (sig E R) → Prop
  | _, _, [] => True
  | now, k, .call _ t :: tr => t = now ∧ Plays w now k tr
  | now, k, .op .attempt r :: tr => r = w.outcome k ∧ Plays w (now + w.duration k) k tr
  | now, k, .op (.sleep delay) r :: tr =>
    r = .ok () ∧ Plays w (now + delay + w.late k) (k + 1) tr
  | _, _, .op .diverge _ :: _ => False

/-! ## The law

The law is a list of facts about the attempts and the waits that were made.
None of them refers to the loop. That the deadline is respected is one of them,
and the only one that may fail. -/

/-- The waits before the next attempt. -/
def waits : Trace (sig E R) → List ℚ
  | .call _ _ :: tr => waits tr
  | .op (.sleep delay) _ :: tr => delay :: waits tr
  | _ => []

/-- The attempts, each with the waits after it. -/
def steps : Trace (sig E R) → List (Except (Raised E) R × List ℚ)
  | [] => []
  | .op .attempt r :: tr => (r, waits tr) :: steps tr
  | _ :: tr => steps tr

/-- Parameters that make sense. Without a positive delay a retry could go on for
ever within its time. -/
structure Sane (p : RetryPolicy (Raised E)) : Prop where
  pos : 0 < p.initialDelay
  le : p.initialDelay ≤ p.maxDelay
  growing : 1 ≤ p.factor

/-- The wait after the `k`-th attempt. -/
def delay (p : RetryPolicy (Raised E)) (k : ℕ) : ℚ := min (p.initialDelay * p.factor ^ k) p.maxDelay

/-- The attempt failed, and the policy retries the error. -/
def Retried (p : RetryPolicy (Raised E)) : Except (Raised E) R → Prop
  | .error (.exception e) => p.on (.exception e) = true ∧ p.giveup.any (· (.exception e)) = false
  | _ => False

/-- The time that has passed when the `k`-th attempt starts. -/
def start (p : RetryPolicy (Raised E)) (w : Attempts E R) : ℕ → ℚ
  | 0 => 0
  | k + 1 => start p w k + w.duration k + delay p k + w.late k

/-- The time that has passed when the `k`-th attempt ends. -/
def finish (p : RetryPolicy (Raised E)) (w : Attempts E R) (k : ℕ) : ℚ := start p w k + w.duration k

/-- **What a retry is to do.** It is said of a trace and its result, and knows
nothing of how the loop computes its waits. -/
structure Law (p : RetryPolicy (Raised E)) (w : Attempts E R) (tr : Trace (sig E R))
    (r : Except (Raised E) R) : Prop where
  /-- an attempt that is not retried is the last one -/
  retried : ∀ o ∈ (steps tr).dropLast, Retried p o.1
  /-- the outcome is that of the last attempt -/
  result : (steps tr).getLast?.map Prod.fst = some r
  /-- an error that is retried leaves only when the time is over -/
  goesOn : Retried p r → p.maxTime ≤ finish p w ((steps tr).length - 1)
  /-- there is one wait between two attempts, and none after the last -/
  waits : (steps tr).map Prod.snd =
    ((List.range ((steps tr).length - 1)).map fun k => [delay p k]) ++ [[]]
  /-- no attempt but the first is started when the time is over -/
  deadline : ∀ k, 0 < k → k < (steps tr).length → start p w k < p.maxTime

/-- The time is not over during a wait. The loop looks at the clock before it waits
and not after, so this is where it can start an attempt too late. -/
def EndsOutsideWaits (p : RetryPolicy (Raised E)) (w : Attempts E R) : Prop :=
  ∀ k, (∀ i ≤ k, Retried p (w.outcome i)) → finish p w k < p.maxTime →
    finish p w k + delay p k + w.late k < p.maxTime

/-! ## The timeline

When an attempt starts and ends is determined by the durations and by the
delays before it. The delays have a lower bound, so the time passes and is over
after a number of attempts that can be computed from the policy. This is what
makes the retry end for every sequence. -/

section Timeline

variable {p : RetryPolicy (Raised E)} (hp : Sane p) (w : Attempts E R)

include hp

/-- The waits never become shorter than the first one. -/
theorem initialDelay_le_delay (k : ℕ) : p.initialDelay ≤ delay p k :=
  le_min (le_mul_of_one_le_right hp.pos.le (one_le_pow₀ hp.growing)) hp.le

/-- The delay that the loop computes, from the one before it. The bound is applied
each time, which comes to the same as applying it once. -/
theorem min_delay (k : ℕ) : min (delay p k * p.factor) p.maxDelay = delay p (k + 1) := by
  have hmax : p.maxDelay ≤ p.maxDelay * p.factor :=
    le_mul_of_one_le_right (hp.pos.le.trans hp.le) hp.growing
  unfold delay
  rw [min_mul_of_nonneg _ _ (zero_le_one.trans hp.growing), min_assoc, min_eq_right hmax,
    pow_succ, mul_assoc]

/-- An attempt starts after the one before it has ended. -/
theorem start_lt_finish (k : ℕ) : finish p w k < start p w (k + 1) := by
  have hdelay := hp.pos.trans_le (initialDelay_le_delay hp k)
  have hlate := w.late_nonneg k
  unfold finish
  rw [start]
  linarith

/-- Later attempts end later. -/
theorem finish_mono {i k : ℕ} (h : i ≤ k) : finish p w i ≤ finish p w k := by
  induction k, h using Nat.le_induction with
  | base => exact le_rfl
  | succ k _ ih =>
    have hduration := w.duration_nonneg (k + 1)
    refine ih.trans ((start_lt_finish hp w k).le.trans ?_)
    unfold finish
    linarith

/-- Time passes with the waits, at least the first delay with each. -/
theorem mul_initialDelay_le_start (k : ℕ) : k * p.initialDelay ≤ start p w k := by
  induction k with
  | zero => simp [start]
  | succ k ih =>
    have hdelay := initialDelay_le_delay hp k
    have hduration := w.duration_nonneg k
    have hlate := w.late_nonneg k
    rw [start]
    push_cast
    linarith

/-- So the time is over at last, after a number of attempts that the parameters
bound. This is the fuel that is needed. -/
theorem exists_over : p.maxTime ≤ finish p w ⌈p.maxTime / p.initialDelay⌉₊ := by
  have hceil := (div_le_iff₀ hp.pos).mp (Nat.le_ceil (p.maxTime / p.initialDelay))
  have hstart := mul_initialDelay_le_start hp w ⌈p.maxTime / p.initialDelay⌉₊
  have hduration := w.duration_nonneg ⌈p.maxTime / p.initialDelay⌉₊
  unfold finish
  linarith

end Timeline

/-! ## The run

The program is followed once, for a number of retried attempts and a last one.
Everything else about the run is a statement about the sequence, because the
answers determine the run (`Plays.unique`). -/

instance (p : RetryPolicy (Raised E)) (r : Except (Raised E) R) : Decidable (Retried p r) :=
  match r with
  | .error (.exception _) => inferInstanceAs (Decidable (_ ∧ _))
  | .error .cancelled => .isFalse id
  | .error (.base _) => .isFalse id
  | .ok _ => .isFalse id

/-- The loop ends with the attempt. -/
def Stops (p : RetryPolicy (Raised E)) (w : Attempts E R) (k : ℕ) : Prop :=
  Retried p (w.outcome k) → p.maxTime ≤ finish p w k

/-- What the loop is answered from the `k`-th attempt on, when `m` more are
retried. -/
def answers (p : RetryPolicy (Raised E)) (w : Attempts E R) (now : ℚ) : ℕ → ℕ → Trace (sig E R)
  | 0, k => .op .attempt (w.outcome k) ::
      if Retried p (w.outcome k) then [.call () (now + finish p w k)] else []
  | m + 1, k => .op .attempt (w.outcome k) :: .call () (now + finish p w k) ::
      .op (.sleep (delay p k)) (.ok ()) :: answers p w now m (k + 1)

section Run

variable {p : RetryPolicy (Raised E)} {w : Attempts E R}

/-- What is done with an error. -/
def react (p : RetryPolicy (Raised E)) (deadline : ℚ) (again : Co (sig E R) R) (e : E) :
    Co (sig E R) R :=
  if !p.on (.exception e) then
    Co.throw (S := sig E R) (.exception e)
  else if p.giveup.any (· (.exception e)) then
    Co.throw (S := sig E R) (.exception e)
  else Co.bind (Co.sync (S := sig E R) ()) fun now =>
    if deadline ≤ now then Co.throw (S := sig E R) (.exception e) else again

/-- An error that is retried is raised again only if the time is over. -/
theorem react_retried {deadline : ℚ} {again : Co (sig E R) R} {e : E}
    (h : Retried p (.error (.exception e) : Except (Raised E) R)) :
    react p deadline again e = Co.bind (Co.sync (S := sig E R) ()) fun now =>
      if deadline ≤ now then Co.throw (S := sig E R) (.exception e) else again := by
  obtain ⟨hon, hgiveup⟩ := h
  unfold react
  rw [hon, hgiveup]
  rfl

/-- Any other error is raised again. -/
theorem react_not_retried {deadline : ℚ} {again : Co (sig E R) R} {e : E}
    (h : ¬Retried p (.error (.exception e) : Except (Raised E) R)) :
    react p deadline again e = Co.throw (S := sig E R) (.exception e) := by
  unfold react
  split
  · rfl
  split
  · rfl
  next hon hgiveup => exact absurd ⟨by simpa using hon, by simpa using hgiveup⟩ h

/-- The last attempt. -/
theorem finishes_last {now d : ℚ} {fuel k : ℕ} (h : Stops p w k) :
    Finishes (retryFrom (loop E R) p (func E R) (now + p.maxTime) (fuel + 1) d)
      (answers p w now 0 k) (w.outcome k) := by
  refine finishes_attempt_bind.mpr ⟨w.outcome k, [.op .attempt (w.outcome k)], _, rfl,
    finishes_op.mpr rfl, ?_⟩
  unfold Stops at h
  match w.outcome k, h with
  | .ok r, _ => exact ⟨rfl, rfl⟩
  | .error .cancelled, _ => exact ⟨rfl, rfl⟩
  | .error (.base name), _ => exact ⟨rfl, rfl⟩
  | .error (.exception e), h =>
    show Finishes (react p (now + p.maxTime) _ e)
      (if Retried p (.error (.exception e) : Except (Raised E) R) then
        [.call () (now + finish p w k)] else []) _
    split_ifs with hretried
    · rw [react_retried hretried]
      refine ⟨now + finish p w k, [], rfl, ?_⟩
      show Finishes (if now + p.maxTime ≤ now + finish p w k then _ else _) _ _
      rw [if_pos (by linarith [h hretried])]
      exact ⟨rfl, rfl⟩
    · rw [react_not_retried hretried]
      exact ⟨rfl, rfl⟩

/-- An attempt that is retried. -/
theorem finishes_retried {now : ℚ} {fuel k m : ℕ} {r : Except (Raised E) R}
    (h : Retried p (w.outcome k)) (htime : finish p w k < p.maxTime)
    (hrest : Finishes (retryFrom (loop E R) p (func E R) (now + p.maxTime) fuel
      (min (delay p k * p.factor) p.maxDelay)) (answers p w now m (k + 1)) r) :
    Finishes (retryFrom (loop E R) p (func E R) (now + p.maxTime) (fuel + 1) (delay p k))
      (answers p w now (m + 1) k) r := by
  refine finishes_attempt_bind.mpr ⟨w.outcome k, [.op .attempt (w.outcome k)], _, rfl,
    finishes_op.mpr rfl, ?_⟩
  match w.outcome k, h with
  | .error (.exception e), h =>
    show Finishes (react p (now + p.maxTime) _ e) _ _
    rw [react_retried h]
    refine ⟨now + finish p w k, _, rfl, ?_⟩
    show Finishes (if now + p.maxTime ≤ now + finish p w k then _ else _) _ _
    rw [if_neg (by linarith)]
    exact ⟨.ok (), _, rfl, hrest⟩

/-- **The run**: so many attempts are retried, and the next one is the last. By
induction on how many are retried. -/
theorem finishes_answers (hp : Sane p) {now : ℚ} {fuel k m : ℕ} (hfuel : m < fuel)
    (hretried : ∀ i, k ≤ i → i < k + m → Retried p (w.outcome i) ∧ finish p w i < p.maxTime)
    (hstops : Stops p w (k + m)) :
    Finishes (retryFrom (loop E R) p (func E R) (now + p.maxTime) fuel (delay p k))
      (answers p w now m k) (w.outcome (k + m)) := by
  induction m generalizing k fuel with
  | zero =>
    obtain ⟨fuel, rfl⟩ := Nat.exists_eq_succ_of_ne_zero (Nat.ne_of_gt hfuel)
    exact finishes_last hstops
  | succ m ih =>
    obtain ⟨fuel, rfl⟩ := Nat.exists_eq_succ_of_ne_zero (Nat.ne_of_gt (Nat.zero_lt_of_lt hfuel))
    obtain ⟨hfirst, htime⟩ := hretried k le_rfl (by omega)
    refine finishes_retried hfirst htime ?_
    rw [min_delay hp, show k + (m + 1) = k + 1 + m by omega]
    refine ih (by omega) (fun i hk hi => hretried i (by omega) (by omega)) ?_
    rw [show k + 1 + m = k + (m + 1) by omega]
    exact hstops

/-- Its answers are those of the sequence. -/
theorem plays_answers {now : ℚ} {k m : ℕ} :
    Plays w (now + start p w k) k (answers p w now m k) := by
  induction m generalizing k with
  | zero =>
    refine ⟨rfl, ?_⟩
    split
    · exact ⟨(add_assoc ..).symm, trivial⟩
    · trivial
  | succ m ih =>
    refine ⟨rfl, (add_assoc ..).symm, rfl, ?_⟩
    rw [show now + start p w k + w.duration k + delay p k + w.late k = now + start p w (k + 1) by
      rw [start]; ring]
    exact ih

/-- The answers of the sequence determine the run. By induction on the program,
since every step has one answer. -/
theorem Plays.unique {x : Co (sig E R) R} {now : ℚ} {k : ℕ} {tr tr' : Trace (sig E R)}
    {r r' : Except (Raised E) R} (h : Finishes x tr r) (h' : Finishes x tr' r')
    (hplays : Plays w now k tr) (hplays' : Plays w now k tr') : tr = tr' ∧ r = r' := by
  induction x generalizing now k tr tr' with
  | ret a =>
    obtain ⟨rfl, rfl⟩ := h
    obtain ⟨rfl, rfl⟩ := h'
    exact ⟨rfl, rfl⟩
  | throw e =>
    obtain ⟨rfl, rfl⟩ := h
    obtain ⟨rfl, rfl⟩ := h'
    exact ⟨rfl, rfl⟩
  | call c f ih =>
    obtain ⟨t, tl, rfl, htl⟩ := h
    obtain ⟨t', tl', rfl, htl'⟩ := h'
    obtain ⟨rfl, hplays⟩ := hplays
    obtain ⟨rfl, hplays'⟩ := hplays'
    obtain ⟨rfl, rfl⟩ := ih _ htl htl' hplays hplays'
    exact ⟨rfl, rfl⟩
  | await o f ih =>
    obtain ⟨a, tl, rfl, htl⟩ := h
    obtain ⟨a', tl', rfl, htl'⟩ := h'
    cases o with
    | diverge => exact hplays.elim
    | attempt =>
      obtain ⟨rfl, hplays⟩ := hplays
      obtain ⟨rfl, hplays'⟩ := hplays'
      obtain ⟨rfl, rfl⟩ := ih _ htl htl' hplays hplays'
      exact ⟨rfl, rfl⟩
    | sleep delay =>
      obtain ⟨rfl, hplays⟩ := hplays
      obtain ⟨rfl, hplays'⟩ := hplays'
      obtain ⟨rfl, rfl⟩ := ih _ htl htl' hplays hplays'
      exact ⟨rfl, rfl⟩

/-- The attempts of the run. -/
theorem steps_answers {now : ℚ} {k m : ℕ} : steps (answers p w now m k) =
    (List.range' k m).map (fun i => (w.outcome i, [delay p i])) ++ [(w.outcome (k + m), [])] := by
  induction m generalizing k with
  | zero =>
    show (w.outcome k, waits (if _ then _ else _)) :: steps (if _ then _ else _) = _
    split <;> rfl
  | succ m ih =>
    have hwaits : waits (answers p w now m (k + 1)) = [] := by cases m <;> rfl
    show (w.outcome k, delay p k :: waits (answers p w now m (k + 1))) ::
      steps (answers p w now m (k + 1)) = _
    rw [hwaits, ih, List.range'_succ, show k + (m + 1) = k + 1 + m by omega]
    rfl

end Run

/-! ## The law, and when it holds

The clock is read when an attempt has failed. If there is time then, the next
attempt is made after the wait, and it is too late if the time has ended during
the wait. This can only happen with the last wait, since a failed attempt that
comes too late is the last one. -/

section

variable {p : RetryPolicy (Raised E)} {w : Attempts E R}

/-- All of the law but the deadline holds, and the deadline holds unless it falls
into a wait. Only the last wait can be concerned, since the time was not over before
it. -/
theorem law_answers_iff (hp : Sane p) {now : ℚ} {n : ℕ}
    (hretried : ∀ i < n, Retried p (w.outcome i) ∧ finish p w i < p.maxTime)
    (hstops : Stops p w n) :
    Law p w (.call () now :: answers p w now n 0) (w.outcome n) ↔ EndsOutsideWaits p w := by
  have hsteps : steps (.call () now :: answers p w now n 0) =
      (List.range n).map (fun i => (w.outcome i, [delay p i])) ++ [(w.outcome n, [])] := by
    show steps (answers p w now n 0) = _
    rw [steps_answers, List.range_eq_range', Nat.zero_add]
  have hlength : (steps (.call () now :: answers p w now n 0)).length = n + 1 := by
    rw [hsteps, List.length_append, List.length_map, List.length_range]
    rfl
  constructor
  · intro hlaw k hall htime
    -- all attempts up to the `k`-th are retried, so there is one more
    have hk : k < n := by
      by_contra hle
      have hover := hstops (hall n (Nat.le_of_not_lt hle))
      have hmono := finish_mono hp w (Nat.le_of_not_lt hle)
      linarith
    exact hlaw.deadline (k + 1) (Nat.succ_pos k) (by omega)
  · intro houtside
    refine ⟨?_, ?_, ?_, ?_, fun k hpos hk => ?_⟩
    · rw [hsteps, List.dropLast_concat]
      intro o ho
      obtain ⟨i, hi, rfl⟩ := List.mem_map.mp ho
      exact (hretried i (List.mem_range.mp hi)).1
    · rw [hsteps, List.getLast?_concat]
      rfl
    · rw [hlength]
      exact hstops
    · rw [hlength, hsteps, List.map_append, List.map_map]
      rfl
    · obtain ⟨k, rfl⟩ := Nat.exists_eq_succ_of_ne_zero (Nat.ne_of_gt hpos)
      have hkn : k < n := by omega
      exact houtside k (fun i hi => (hretried i (by omega)).1) (hretried k hkn).2

/-- A retry comes to an end, in one way. The number of its attempts is the first one
that is not retried, or after which the time is over. -/
theorem exists_run (hp : Sane p) (w : Attempts E R) (now : ℚ) {fuel : ℕ}
    (hfuel : ⌈p.maxTime / p.initialDelay⌉₊ < fuel) :
    ∃ n, (∀ i < n, Retried p (w.outcome i) ∧ finish p w i < p.maxTime) ∧ Stops p w n ∧
      ∀ tr r, Finishes (retry (loop E R) p fuel (func E R)) tr r ∧ Plays w now 0 tr ↔
        tr = .call () now :: answers p w now n 0 ∧ r = w.outcome n := by
  classical
  -- the attempt that is not retried, or ends when the time is over
  have hexists : ∃ n, Stops p w n := ⟨_, fun _ => exists_over hp w⟩
  set n := Nat.find hexists with hn
  have hstops : Stops p w n := Nat.find_spec hexists
  have hretried : ∀ i < n, Retried p (w.outcome i) ∧ finish p w i < p.maxTime := by
    intro i hi
    have hnot : ¬Stops p w i := Nat.find_min hexists hi
    obtain ⟨hagain, hover⟩ := Classical.not_imp.mp hnot
    exact ⟨hagain, not_le.mp hover⟩
  have hle : n ≤ ⌈p.maxTime / p.initialDelay⌉₊ := Nat.find_min' hexists fun _ => exists_over hp w
  have hfirst : delay p 0 = p.initialDelay := by
    unfold delay
    rw [pow_zero, mul_one, min_eq_left hp.le]
  have hrun : Finishes (retry (loop E R) p fuel (func E R)) (.call () now :: answers p w now n 0)
      (w.outcome n) := by
    have hloop : Finishes (retryFrom (loop E R) p (func E R) (now + p.maxTime) fuel (delay p 0))
        (answers p w now n 0) (w.outcome (0 + n)) :=
      finishes_answers hp (hle.trans_lt hfuel) (fun i _ hi => hretried i (by omega))
        (by rw [Nat.zero_add]; exact hstops)
    rw [hfirst, Nat.zero_add] at hloop
    exact ⟨now, _, rfl, hloop⟩
  have hplays : Plays w now 0 (.call () now :: answers p w now n 0) := by
    have hloop : Plays w (now + start p w 0) 0 (answers p w now n 0) := plays_answers
    rw [start, add_zero] at hloop
    exact ⟨rfl, hloop⟩
  refine ⟨n, hretried, hstops, fun tr r => ⟨fun ⟨h, hplays'⟩ => ?_, ?_⟩⟩
  · exact Plays.unique h hrun hplays' hplays
  · rintro ⟨rfl, rfl⟩
    exact ⟨hrun, hplays⟩

/-- **A retry comes to an end, in one way, and does what it is to do if and only
if** the time is not over during a wait. It holds for every sequence of outcomes,
however long each attempt takes and however late each wait ends. -/
theorem retry_law_iff (hp : Sane p) (w : Attempts E R) (now : ℚ) {fuel : ℕ}
    (hfuel : ⌈p.maxTime / p.initialDelay⌉₊ < fuel) :
    ∃ tr r, (∀ tr' r', Finishes (retry (loop E R) p fuel (func E R)) tr' r' ∧ Plays w now 0 tr' ↔
        tr' = tr ∧ r' = r) ∧
      (Law p w tr r ↔ EndsOutsideWaits p w) := by
  obtain ⟨n, hretried, hstops, hrun⟩ := exists_run hp w now hfuel
  exact ⟨_, _, hrun, law_answers_iff hp hretried hstops⟩

end

/-! ## A retry of two attempts -/

/-- Every error is retried, with the default times. -/
def always : RetryPolicy (Raised Unit) where
  on _ := true

/-- The first attempt fails, and the others succeed. -/
def failsOnce (seconds : ℚ) (h : 0 ≤ seconds) : Attempts Unit ℕ where
  outcome k := if k = 0 then .error (.exception ()) else .ok k
  duration _ := seconds
  late _ := 0
  duration_nonneg _ := h
  late_nonneg _ := le_rfl

theorem sane_always : Sane always := by
  constructor <;> norm_num [always]

theorem fuel_always : ⌈always.maxTime / always.initialDelay⌉₊ < 61 := by
  rw [Nat.lt_succ_iff, Nat.ceil_le]
  norm_num [always]

/-- It fails after a second, and there is time for the next. -/
theorem retry_failsOnce : ∃ tr r,
    (∀ tr' r', Finishes (retry (loop Unit ℕ) always 61 (func Unit ℕ)) tr' r' ∧
      Plays (failsOnce 1 zero_le_one) 0 0 tr' ↔ tr' = tr ∧ r' = r) ∧
      Law always (failsOnce 1 zero_le_one) tr r := by
  obtain ⟨tr, r, hrun, hlaw⟩ := retry_law_iff sane_always (failsOnce 1 zero_le_one) 0 fuel_always
  refine ⟨tr, r, hrun, hlaw.mpr fun k hall htime => ?_⟩
  obtain rfl : k = 0 := by
    by_contra hk
    exact hall 1 (Nat.one_le_iff_ne_zero.mpr hk)
  norm_num [finish, start, delay, always, failsOnce]

/-- It fails half a second before the time is over, and the next attempt is started
half a second after. What it is answered there is returned, as if it had come in
time. -/
theorem not_retry_late : ¬∀ (p : RetryPolicy (Raised Unit)) (w : Attempts Unit ℕ) (now : ℚ)
    (fuel : ℕ) tr r, Sane p → Finishes (retry (loop Unit ℕ) p fuel (func Unit ℕ)) tr r →
      Plays w now 0 tr → Law p w tr r := by
  intro hall
  have hseconds : (0 : ℚ) ≤ 119 / 2 := by norm_num
  obtain ⟨n, hretried, hstops, hrun⟩ :=
    exists_run sane_always (failsOnce _ hseconds) 0 fuel_always
  obtain ⟨hfinishes, hplays⟩ := (hrun _ _).mpr ⟨rfl, rfl⟩
  have houtside := (law_answers_iff sane_always hretried hstops).mp
    (hall always _ 0 61 _ _ sane_always hfinishes hplays)
  have hlate := houtside 0 (fun i hi => by
    obtain rfl := Nat.le_zero.mp hi
    exact ⟨rfl, rfl⟩) (by norm_num [finish, start, always, failsOnce])
  norm_num [finish, start, delay, always, failsOnce] at hlate

end Yascheduler.Retry
