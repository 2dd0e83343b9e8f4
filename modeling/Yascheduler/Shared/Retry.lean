import Mathlib.Algebra.Order.Ring.Rat
import Yascheduler.Async.Trace

/-!
# Retrying with a growing delay

`retry` wraps a coroutine: it is awaited again after an error that the policy
retries, until it succeeds, fails for good, or the time is over. Times are
rational numbers. The loop has fuel; when the fuel ends it awaits what has no
result.

How long an attempt takes is not known before it has been made, and a wait may
last longer than it was asked to. Both are part of the answers a retry is given,
so what is proved of it holds for any durations.

The delay grows by a factor from attempt to attempt, up to a bound. It depends on
the number of the attempt alone, and which attempt is the last can be computed
from the durations.
-/

namespace Yascheduler

open Async

/-- What `retry` is given. Which errors are retried is a function, as in the source.
-/
structure RetryPolicy (E : Type) where
  /-- the errors that are retried -/
  on : E → Bool
  maxTime : ℚ := 60
  giveup : Option (E → Bool) := none
  initialDelay : ℚ := 1
  maxDelay : ℚ := 30
  factor : ℚ := 3 / 2

/-- What it uses of the event loop. It is a parameter, because the connections, the
transactions and the tests of the retry itself have different vocabularies. -/
structure EventLoop (S : Sig) where
  time : Co S ℚ
  sleep : ℚ → Co S Unit
  /-- the loop goes on -/
  diverge : Co S Empty
  isCancelled : S.Err → Bool
  /-- whether `except Exception` catches it -/
  isException : S.Err → Bool

section

variable {S : Sig} {R : Type}

/-- The `while` loop of `wrapper`. The fuel is for the attempts; when it is used up
the loop is taken to go on for ever. -/
def retryFrom (loop : EventLoop S) (p : RetryPolicy S.Err) (func : Co S R) (deadline : ℚ) :
    Nat → ℚ → Co S R
  | 0, _ => Co.bind loop.diverge Empty.elim
  | fuel + 1, delay => do
    match ← Co.attempt func with
    | .ok r => return r
    | .error exc =>
      if loop.isCancelled exc then
        Co.throw exc
      else if !loop.isException exc then
        Co.throw exc
      else if !p.on exc then
        Co.throw exc
      else if p.giveup.any (· exc) then
        Co.throw exc
      else do
        let now ← loop.time
        if deadline ≤ now then
          Co.throw exc
        else do
          loop.sleep delay
          retryFrom loop p func deadline fuel (min (delay * p.factor) p.maxDelay)

/-- **`retry`**: the `wrapper` of a function. -/
def retry (loop : EventLoop S) (p : RetryPolicy S.Err) (fuel : Nat) (func : Co S R) : Co S R := do
  let now ← loop.time
  retryFrom loop p func (now + p.maxTime) fuel p.initialDelay

/-! ## What holds of a retry

A property of traces that every attempt has is one of the retry if it does not
mind failed attempts before it, nor the clock and the waits. This is what most
uses of a retry need: nothing about how often it attempts or when. -/

/-- What the loop itself is answered has this property. The clock and the waits have
nothing to do with the attempts. -/
structure EventLoop.Quiet (loop : EventLoop S) (q : Answer S → Prop) : Prop where
  time : Sees q loop.time
  sleep : ∀ d, Sees q (loop.sleep d)
  diverge : Sees q loop.diverge

/-- **What holds of every attempt holds of the retry**, if it is kept when a failed
attempt is put before the rest, and holds of what the loop itself is answered when
nothing comes of it. By induction on the fuel. -/
theorem Finishes.retry {loop : EventLoop S} {p : RetryPolicy S.Err} {func : Co S R} {fuel : Nat}
    {q : Answer S → Prop} {P : Trace S → Except S.Err R → Prop} (hloop : loop.Quiet q)
    (hquiet : ∀ tr e, (∀ a ∈ tr, q a) → P tr (.error e))
    (happend : ∀ tr₁ tr₂ e r, P tr₁ (.error e) → P tr₂ r → P (tr₁ ++ tr₂) r)
    (hfunc : ∀ tr r, Finishes func tr r → P tr r) {tr : Trace S} {r : Except S.Err R}
    (h : Finishes (Yascheduler.retry loop p fuel func) tr r) : P tr r := by
  -- what the loop does itself, before the rest
  have hthen : ∀ {α : Type} {x : Co S α} {f : α → Co S R}, Sees q x →
      (∀ a tr r, Finishes (f a) tr r → P tr r) →
      ∀ tr r, Finishes (Co.bind x f) tr r → P tr r := by
    intro α x f hx hf tr r hbind
    rcases finishes_bind.mp hbind with ⟨e, rfl, h₁⟩ | ⟨a, tr₁, tr₂, rfl, h₁, h₂⟩
    · exact hquiet tr e (hx tr _ h₁)
    · exact happend tr₁ tr₂ S.cancelled r (hquiet tr₁ _ (hx tr₁ _ h₁)) (hf a tr₂ r h₂)
  have hthrow : ∀ (e : S.Err) tr r, Finishes (.throw e : Co S R) tr r → P tr r := by
    rintro e tr r ⟨rfl, rfl⟩
    exact hquiet [] e fun _ ha => nomatch ha
  refine hthen hloop.time (fun now => ?_) tr r h
  clear h
  generalize p.initialDelay = delay
  induction fuel generalizing delay with
  | zero => exact hthen hloop.diverge fun a => a.elim
  | succ fuel ih =>
    intro tr r h
    obtain ⟨r₀, tr₁, tr₂, rfl, hattempt, hrest⟩ := finishes_attempt_bind.mp h
    cases r₀ with
    | ok b =>
      obtain ⟨rfl, rfl⟩ := hrest
      rw [List.append_nil]
      exact hfunc tr₁ _ hattempt
    | error e =>
      refine happend tr₁ tr₂ e r (hfunc tr₁ _ hattempt) ?_
      -- the error leaves, or the loop goes on
      dsimp only at hrest
      split at hrest
      · exact hthrow e tr₂ r hrest
      split at hrest
      · exact hthrow e tr₂ r hrest
      split at hrest
      · exact hthrow e tr₂ r hrest
      split at hrest
      · exact hthrow e tr₂ r hrest
      refine hthen hloop.time (fun later tr r h => ?_) tr₂ r hrest
      split at h
      · exact hthrow e tr r h
      · exact hthen (hloop.sleep delay) (fun _ tr r h => ih _ tr r h) tr r h

end

end Yascheduler
