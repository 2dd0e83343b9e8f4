import Mathlib.Data.List.Induction
import Yascheduler.Async.Footprint
import Yascheduler.Async.Trace

/-!
# Executions over a shared memory

Programs that are executed one after the other may keep a memory between
them, and what one of them is answered depends on what the others have done.
An execution is a program with a trace, every answer of it stamped with the
time at which it was given. Its calls are answered by the memory; while it
awaits, and between two executions, others may change the memory, within
what `rely` says of them.

This stands between a trace and a run. A trace says nothing of the memory, and a
run says everything about everybody; here the memory is one value – a counter, a
time that was noted – the executions of one program are written out, and all
that is said of the rest of the system is how it may change that value. So a
statement about a sequence of ticks can be made and proved without the pool, and
holds for whatever else is going on as long as `rely` does.
-/

namespace Async

variable {S : Sig} {α M X J : Type}

/-- A trace with the time of every answer. -/
abbrev Timed (S : Sig) := List (Nat × Answer S)

/-- **A memory**: how it answers a call at a time, and what others may do to it
meanwhile. Between two awaits nobody else does anything, so `rely` is for the
awaits. -/
structure Shared (S : Sig) (M : Type) where
  call : Nat → M → (c : S.Call) → S.Ans c × M
  rely : M → M → Prop

namespace Shared

variable (D : Shared S M)

/-- The memory answers the calls of a trace. -/
def Serves : M → Timed S → M → Prop
  | m, [], m' => m' = m
  | m, (t, .call c a) :: tr, m' => a = (D.call t m c).1 ∧ Serves (D.call t m c).2 tr m'
  | m, (_, .op _ _) :: tr, m' => ∃ m₁, D.rely m m₁ ∧ Serves m₁ tr m'

/-- An execution of a program. It is what is left of a coroutine when everything that
others have done is left out. -/
structure Execution (S : Sig) (J : Type) where
  job : J
  answers : Timed S
  result : Except S.Err Unit

/-- What the execution was answered, without the times. -/
def Execution.trace (x : Execution S J) : Trace S := x.answers.map Prod.snd

/-- **Executions one after the other**, on one memory. They may be of different
jobs, and need not end well. -/
def Executes (program : J → Co S Unit) : M → List (Execution S J) → M → Prop
  | m, [], m' => m' = m
  | m, x :: xs, m' => ∃ m₁ m₂, Finishes (program x.job) x.trace x.result ∧
      D.Serves m x.answers m₁ ∧ D.rely m₁ m₂ ∧ Executes program m₂ xs m'

variable {D} {m m' : M}

/-- The answers of two parts, one after the other. -/
theorem serves_append {tr tr' : Timed S} :
    D.Serves m (tr ++ tr') m' ↔ ∃ m₁, D.Serves m tr m₁ ∧ D.Serves m₁ tr' m' := by
  induction tr generalizing m with
  | nil =>
    constructor
    · exact fun h => ⟨m, rfl, h⟩
    · rintro ⟨m₁, rfl, h⟩
      exact h
  | cons a tr ih =>
    obtain ⟨t, c | o⟩ := a
    · simp only [List.cons_append, Serves, ih]
      constructor
      · rintro ⟨ha, m₁, h₁, h₂⟩
        exact ⟨m₁, ⟨ha, h₁⟩, h₂⟩
      · rintro ⟨m₁, ⟨ha, h₁⟩, h₂⟩
        exact ⟨ha, m₁, h₁, h₂⟩
    · simp only [List.cons_append, Serves, ih]
      constructor
      · rintro ⟨m₀, hr, m₁, h₁, h₂⟩
        exact ⟨m₁, ⟨m₀, hr, h₁⟩, h₂⟩
      · rintro ⟨m₁, ⟨m₀, hr, h₁⟩, h₂⟩
        exact ⟨m₀, hr, m₁, h₁, h₂⟩

/-- **What no call of the trace changes**, and nobody else does, is the same
after it. -/
theorem Serves.keeps {f : M → X} {tr : Timed S} (h : D.Serves m tr m')
    (hcall : ∀ t c a, (t, .call c a) ∈ tr → ∀ m, f (D.call t m c).2 = f m)
    (hrely : ∀ m m', D.rely m m' → f m' = f m) : f m' = f m := by
  induction tr generalizing m with
  | nil => exact congrArg f h
  | cons a tr ih =>
    have hrest : ∀ t c a', (t, .call c a') ∈ tr → ∀ m, f (D.call t m c).2 = f m :=
      fun t c a' ha => hcall t c a' (List.mem_cons_of_mem a ha)
    obtain ⟨t, c | o⟩ := a
    · exact (ih h.2 hrest).trans (hcall t c _ List.mem_cons_self m)
    · obtain ⟨m₁, hr, h₁⟩ := h
      exact (ih h₁ hrest).trans (hrely m m₁ hr)

variable {program : J → Co S Unit} {xs ys : List (Execution S J)}

/-- Executions can be taken in two lots. -/
theorem executes_append : D.Executes program m (xs ++ ys) m' ↔
    ∃ m₁, D.Executes program m xs m₁ ∧ D.Executes program m₁ ys m' := by
  induction xs generalizing m with
  | nil =>
    constructor
    · exact fun h => ⟨m, rfl, h⟩
    · rintro ⟨m₁, rfl, h⟩
      exact h
  | cons x xs ih =>
    simp only [List.cons_append, Executes, ih]
    constructor
    · rintro ⟨m₁, m₂, hends, hserves, hrely, m₃, h₁, h₂⟩
      exact ⟨m₃, ⟨m₁, m₂, hends, hserves, hrely, h₁⟩, h₂⟩
    · rintro ⟨m₃, ⟨m₁, m₂, hends, hserves, hrely, h₁⟩, h₂⟩
      exact ⟨m₁, m₂, hends, hserves, hrely, m₃, h₁, h₂⟩

/-- **The run rule.** What holds at first, and is kept by every execution, holds
between the memory and all the executions so far. By induction from the end, since
what is claimed looks back. -/
theorem Executes.induction_on {I : List (Execution S J) → M → Prop}
    (h : D.Executes program m xs m') (hnil : I [] m)
    (hstep : ∀ before x m m₁ m₂, I before m → Finishes (program x.job) x.trace x.result →
      D.Serves m x.answers m₁ → D.rely m₁ m₂ → I (before ++ [x]) m₂) : I xs m' := by
  induction xs using List.reverseRecOn generalizing m' with
  | nil =>
    obtain rfl := h
    exact hnil
  | append_singleton xs x ih =>
    obtain ⟨m₁, hxs, m₂, m₃, hends, hserves, hrely, rfl⟩ := executes_append.mp h
    exact hstep xs x m₁ m₂ m' (ih hxs) hends hserves hrely

end Shared

/-- A program that stays inside a footprint makes only the calls of it. -/
theorem Footprint.Inside.sees {N : Type} {F : Footprint S N} {own : Set N} {x : Co S α}
    (h : F.Inside own x) : Sees (fun a => ∀ c r, a = .call c r → F.call c) x := by
  rintro tr r hends _ ha c a rfl
  exact h.admits tr r hends _ ha

end Async
