import Yascheduler.Async.Logic

/-!
# What a coroutine is answered

What a coroutine does is determined by what it is answered. A *trace* lists
these answers: of every call, and of every awaited operation, in order.
`Finishes` says that a coroutine comes to an end with a trace, and nothing about
where the answers come from – a statement about all traces is a statement
about everything the outside world can do to it.

There is one rule for each combinator, and each is an equivalence: read from
left to right it takes an execution apart, read from right to left it puts
one together.

## Traces and runs

A run of the pool is more than most statements about a program need. Whether a
creation deletes the machine it has created, say, depends on what this coroutine
is answered, and on nothing that others do in between. Such a statement is made
about all traces: the answers are arbitrary, and that covers every world that
could give them, a hostile one included. What the answers have to satisfy is
then a hypothesis about the trace, and can be read off the statement.

A trace determines how the coroutine ends (`Finishes.unique`). So to say that a
program ends in a certain way exactly when its answers are of a certain kind, it
is enough to follow the program once.

## What is seen on the way

`Sees` says that all answers of a program are of a kind, and it is closed under
the combinators like everything else here. Most of its uses are negative: a part
of a program that never inserts a row, or never asks for a deletion, can be left
out when a trace is searched for one.
-/

namespace Async

open Co hiding bind

variable {S : Sig} {α β ρ : Type}

/-! ## Traces

Attempts and sequences are the two rules that need an induction. The others
follow from them, since a handler, a context and what finally runs are
attempts, followed by something that depends on the outcome.

Each rule is an equivalence and not an implication, so that a proof may go in
both directions with it: from the end of a program to what it was answered, and
from answers to the end that they lead to. -/

/-- An answer: of a call, or of an awaited operation. It is kept with what was asked,
so that a trace can be read by itself. -/
inductive Answer (S : Sig) where
  | call (c : S.Call) (r : S.Ans c)
  | op (o : S.Op) (r : Except S.Err (S.Res o))

/-- The answers a coroutine was given, in order. -/
abbrev Trace (S : Sig) := List (Answer S)

/-- **The coroutine ends**: with these answers it comes to this outcome. Nothing is
said of where the answers come from, so what is proved of all traces holds for every
outside world, however the coroutines are interleaved. -/
def Finishes : Co S α → Trace S → Except S.Err α → Prop
  | .ret a, tr, r => tr = [] ∧ r = .ok a
  | .throw e, tr, r => tr = [] ∧ r = .error e
  | .call c k, tr, r => ∃ a rest, tr = .call c a :: rest ∧ Finishes (k a) rest r
  | .await o k, tr, r => ∃ a rest, tr = .op o a :: rest ∧ Finishes (k a) rest r

variable {tr : Trace S} {r : Except S.Err α}

@[simp] theorem finishes_ret (a : α) : Finishes (.ret a : Co S α) tr r ↔ tr = [] ∧ r = .ok a :=
  Iff.rfl

@[simp] theorem finishes_throw (e : S.Err) :
    Finishes (.throw e : Co S α) tr r ↔ tr = [] ∧ r = .error e := Iff.rfl

/-- A value is returned or an error raised, and nothing is asked for. -/
@[simp] theorem finishes_ofExcept (r₀ : Except S.Err α) :
    Finishes (ofExcept r₀) tr r ↔ tr = [] ∧ r = r₀ := by
  cases r₀ <;> rfl

/-- A call has one answer. -/
@[simp] theorem finishes_sync {c : S.Call} {r : Except S.Err (S.Ans c)} :
    Finishes (sync c) tr r ↔ ∃ a, tr = [.call c a] ∧ r = .ok a := by
  constructor
  · rintro ⟨a, rest, rfl, rfl, rfl⟩
    exact ⟨a, rfl, rfl⟩
  · rintro ⟨a, rfl, rfl⟩
    exact ⟨a, [], rfl, rfl, rfl⟩

/-- An operation comes to what it is answered. -/
@[simp] theorem finishes_op {o : S.Op} {r : Except S.Err (S.Res o)} :
    Finishes (op o) tr r ↔ tr = [.op o r] := by
  constructor
  · rintro ⟨a, rest, rfl, hrest⟩
    obtain ⟨rfl, rfl⟩ := (finishes_ofExcept a).mp hrest
    rfl
  · rintro rfl
    exact ⟨r, [], rfl, (finishes_ofExcept r).mpr ⟨rfl, rfl⟩⟩

/-- **Sequencing.** The first part raises, or both parts share the trace. By
induction on the first part; all other rules about composed programs follow from
this one. -/
theorem finishes_bind {x : Co S α} {f : α → Co S β} {r : Except S.Err β} :
    Finishes (Co.bind x f) tr r ↔
      (∃ e, r = .error e ∧ Finishes x tr (.error e)) ∨
      ∃ a tr₁ tr₂, tr = tr₁ ++ tr₂ ∧ Finishes x tr₁ (.ok a) ∧ Finishes (f a) tr₂ r := by
  induction x generalizing tr with
  | ret a =>
    constructor
    · exact fun h => .inr ⟨a, [], tr, rfl, ⟨rfl, rfl⟩, h⟩
    · rintro (⟨e, -, -, h⟩ | ⟨_, _, _, rfl, ⟨rfl, ha⟩, h⟩)
      · cases h
      · cases ha
        exact h
  | throw e =>
    constructor
    · rintro ⟨rfl, rfl⟩
      exact .inl ⟨e, rfl, rfl, rfl⟩
    · rintro (⟨_, rfl, rfl, h⟩ | ⟨_, _, _, -, ⟨-, h⟩, -⟩) <;> cases h
      exact ⟨rfl, rfl⟩
  | call c k ih =>
    simp only [Co.bind, Finishes, ih]
    constructor
    · rintro ⟨a, rest, rfl, ⟨e, rfl, h⟩ | ⟨b, tr₁, tr₂, rfl, h₁, h₂⟩⟩
      · exact .inl ⟨e, rfl, a, rest, rfl, h⟩
      · exact .inr ⟨b, _, tr₂, (List.cons_append ..).symm, ⟨a, tr₁, rfl, h₁⟩, h₂⟩
    · rintro (⟨e, rfl, a, rest, rfl, h⟩ | ⟨b, _, tr₂, rfl, ⟨a, tr₁, rfl, h₁⟩, h₂⟩)
      · exact ⟨a, rest, rfl, .inl ⟨e, rfl, h⟩⟩
      · exact ⟨a, _, List.cons_append .., .inr ⟨b, tr₁, tr₂, rfl, h₁, h₂⟩⟩
  | await o k ih =>
    simp only [Co.bind, Finishes, ih]
    constructor
    · rintro ⟨a, rest, rfl, ⟨e, rfl, h⟩ | ⟨b, tr₁, tr₂, rfl, h₁, h₂⟩⟩
      · exact .inl ⟨e, rfl, a, rest, rfl, h⟩
      · exact .inr ⟨b, _, tr₂, (List.cons_append ..).symm, ⟨a, tr₁, rfl, h₁⟩, h₂⟩
    · rintro (⟨e, rfl, a, rest, rfl, h⟩ | ⟨b, _, tr₂, rfl, ⟨a, tr₁, rfl, h₁⟩, h₂⟩)
      · exact ⟨a, rest, rfl, .inl ⟨e, rfl, h⟩⟩
      · exact ⟨a, _, List.cons_append .., .inr ⟨b, tr₁, tr₂, rfl, h₁, h₂⟩⟩

/-- An attempt ends normally, with the outcome as its value. -/
theorem finishes_attempt {x : Co S α} {r : Except S.Err (Except S.Err α)} :
    Finishes (attempt x) tr r ↔ ∃ r₀, r = .ok r₀ ∧ Finishes x tr r₀ := by
  induction x generalizing tr with
  | ret a =>
    exact ⟨fun h => ⟨.ok a, h.2, h.1, rfl⟩, fun ⟨_, hr, htr, h⟩ => ⟨htr, h ▸ hr⟩⟩
  | throw e =>
    exact ⟨fun h => ⟨.error e, h.2, h.1, rfl⟩, fun ⟨_, hr, htr, h⟩ => ⟨htr, h ▸ hr⟩⟩
  | call c k ih =>
    simp only [attempt, Finishes, ih]
    constructor
    · rintro ⟨a, rest, rfl, r₀, rfl, h⟩
      exact ⟨r₀, rfl, a, rest, rfl, h⟩
    · rintro ⟨r₀, rfl, a, rest, rfl, h⟩
      exact ⟨a, rest, rfl, r₀, rfl, h⟩
  | await o k ih =>
    simp only [attempt, Finishes, ih]
    constructor
    · rintro ⟨a, rest, rfl, r₀, rfl, h⟩
      exact ⟨r₀, rfl, a, rest, rfl, h⟩
    · rintro ⟨r₀, rfl, a, rest, rfl, h⟩
      exact ⟨a, rest, rfl, r₀, rfl, h⟩

/-- Going on after an attempt. -/
theorem finishes_attempt_bind {x : Co S α} {f : Except S.Err α → Co S β}
    {r : Except S.Err β} : Finishes (Co.bind (attempt x) f) tr r ↔
      ∃ r₀ tr₁ tr₂, tr = tr₁ ++ tr₂ ∧ Finishes x tr₁ r₀ ∧ Finishes (f r₀) tr₂ r := by
  rw [finishes_bind]
  simp only [finishes_attempt]
  constructor
  · rintro (⟨e, rfl, r₀, h, -⟩ | ⟨_, tr₁, tr₂, rfl, ⟨r₀, h, h₁⟩, h₂⟩)
    · cases h
    · cases h
      exact ⟨_, tr₁, tr₂, rfl, h₁, h₂⟩
  · rintro ⟨r₀, tr₁, tr₂, rfl, h₁, h₂⟩
    exact .inr ⟨r₀, tr₁, tr₂, rfl, ⟨r₀, rfl, h₁⟩, h₂⟩

/-- The guarded part ends normally, or the handler goes on with its error. -/
theorem finishes_tryCatch {x : Co S α} {h : S.Err → Co S α} :
    Finishes (tryCatch x h) tr r ↔
      (∃ a, r = .ok a ∧ Finishes x tr (.ok a)) ∨
      ∃ e tr₁ tr₂, tr = tr₁ ++ tr₂ ∧ Finishes x tr₁ (.error e) ∧ Finishes (h e) tr₂ r := by
  rw [Co.tryCatch, finishes_attempt_bind]
  constructor
  · rintro ⟨r₀ | a, tr₁, tr₂, rfl, h₁, h₂⟩
    · exact .inr ⟨r₀, tr₁, tr₂, rfl, h₁, h₂⟩
    · obtain ⟨rfl, rfl⟩ := h₂
      rw [List.append_nil]
      exact .inl ⟨a, rfl, h₁⟩
  · rintro (⟨a, rfl, h₁⟩ | ⟨e, tr₁, tr₂, rfl, h₁, h₂⟩)
    · exact ⟨.ok a, tr, [], (List.append_nil tr).symm, h₁, rfl, rfl⟩
    · exact ⟨.error e, tr₁, tr₂, rfl, h₁, h₂⟩

/-- The guarded part and what finally runs; an error of the latter wins. -/
theorem finishes_tryFinally {x : Co S α} {f : Co S Unit} :
    Finishes (tryFinally x f) tr r ↔ ∃ r₀ tr₁ tr₂ rf, tr = tr₁ ++ tr₂ ∧ Finishes x tr₁ r₀ ∧
      Finishes f tr₂ rf ∧ r = rf.bind fun _ => r₀ := by
  rw [Co.tryFinally, finishes_attempt_bind]
  constructor
  · rintro ⟨r₀, tr₁, tr₂, rfl, h₁, h₂⟩
    rcases finishes_bind.1 h₂ with ⟨e, rfl, hf⟩ | ⟨u, tr₃, tr₄, rfl, hf, hr⟩
    · exact ⟨r₀, tr₁, tr₂, .error e, rfl, h₁, hf, rfl⟩
    · obtain ⟨rfl, rfl⟩ := (finishes_ofExcept _).mp hr
      rw [List.append_nil]
      exact ⟨r, tr₁, tr₃, .ok u, rfl, h₁, hf, rfl⟩
  · rintro ⟨r₀, tr₁, tr₂, rf, rfl, h₁, hf, rfl⟩
    refine ⟨r₀, tr₁, tr₂, rfl, h₁, finishes_bind.2 ?_⟩
    cases rf with
    | error e => exact .inl ⟨e, rfl, hf⟩
    | ok u =>
      exact .inr ⟨u, tr₂, [], (List.append_nil _).symm, hf, (finishes_ofExcept _).mpr ⟨rfl, rfl⟩⟩

/-- Entering raises, or the body and the exit follow; an error of the exit
wins. -/
theorem finishes_asyncWith {enter : Co S ρ} {exit : ρ → Option S.Err → Co S Unit}
    {body : ρ → Co S α} : Finishes (asyncWith enter exit body) tr r ↔
      (∃ e, r = .error e ∧ Finishes enter tr (.error e)) ∨
      ∃ v r₀ tr₁ tr₂ tr₃ rx, tr = tr₁ ++ (tr₂ ++ tr₃) ∧ Finishes enter tr₁ (.ok v) ∧
        Finishes (body v) tr₂ r₀ ∧ Finishes (exit v (errorOf r₀)) tr₃ rx ∧
        r = rx.bind fun _ => r₀ := by
  unfold Co.asyncWith
  rw [finishes_bind]
  refine or_congr_right ?_
  constructor
  · rintro ⟨v, tr₁, rest, rfl, h₁, h₂⟩
    obtain ⟨r₀, tr₂, tr₃, rfl, hbody, hexit⟩ := finishes_attempt_bind.1 h₂
    rcases finishes_bind.1 hexit with ⟨e, rfl, hx⟩ | ⟨u, tr₄, tr₅, rfl, hx, hr⟩
    · exact ⟨v, r₀, tr₁, tr₂, tr₃, .error e, rfl, h₁, hbody, hx, rfl⟩
    · obtain ⟨rfl, rfl⟩ := (finishes_ofExcept _).mp hr
      rw [List.append_nil]
      exact ⟨v, r, tr₁, tr₂, tr₄, .ok u, rfl, h₁, hbody, hx, rfl⟩
  · rintro ⟨v, r₀, tr₁, tr₂, tr₃, rx, rfl, h₁, hbody, hx, rfl⟩
    refine ⟨v, tr₁, _, rfl, h₁, finishes_attempt_bind.2 ⟨r₀, tr₂, tr₃, rfl, hbody, ?_⟩⟩
    rw [finishes_bind]
    cases rx with
    | error e => exact .inl ⟨e, rfl, hx⟩
    | ok u =>
      exact .inr ⟨u, tr₃, [], (List.append_nil _).symm, hx, (finishes_ofExcept _).mpr ⟨rfl, rfl⟩⟩

/-- A sequence that ends normally consists of parts that do. -/
theorem Finishes.bind_ok {x : Co S α} {f : α → Co S β} {b : β}
    (h : Finishes (Co.bind x f) tr (.ok b)) :
    ∃ a tr₁ tr₂, tr = tr₁ ++ tr₂ ∧ Finishes x tr₁ (.ok a) ∧ Finishes (f a) tr₂ (.ok b) := by
  rcases finishes_bind.1 h with ⟨_, he, -⟩ | h
  · cases he
  · exact h

/-- So does a guarded part. -/
theorem Finishes.asyncWith_ok {enter : Co S ρ} {exit : ρ → Option S.Err → Co S Unit}
    {body : ρ → Co S α} {a : α} (h : Finishes (asyncWith enter exit body) tr (.ok a)) :
    ∃ v tr₁ tr₂ tr₃, tr = tr₁ ++ (tr₂ ++ tr₃) ∧ Finishes enter tr₁ (.ok v) ∧
      Finishes (body v) tr₂ (.ok a) ∧ Finishes (exit v none) tr₃ (.ok ()) := by
  rcases finishes_asyncWith.1 h with
    ⟨_, he, -⟩ | ⟨v, r₀, tr₁, tr₂, tr₃, rx, rfl, henter, hbody, hexit, hr⟩
  · cases he
  · cases rx with
    | error e => cases hr
    | ok u =>
      obtain rfl : r₀ = .ok a := hr.symm
      exact ⟨v, tr₁, tr₂, tr₃, rfl, henter, hbody, hexit⟩

/-- Something is made of the value at the end. -/
theorem finishes_map {x : Co S α} {g : α → β} {r : Except S.Err β} :
    Finishes (Co.bind x fun a => .ret (g a)) tr r ↔ ∃ r₀, Finishes x tr r₀ ∧ r = r₀.map g := by
  rw [finishes_bind]
  constructor
  · rintro (⟨e, rfl, h⟩ | ⟨a, tr₁, _, rfl, h, rfl, rfl⟩)
    · exact ⟨.error e, h, rfl⟩
    · rw [List.append_nil]
      exact ⟨.ok a, h, rfl⟩
  · rintro ⟨r₀ | a, h, rfl⟩
    · exact .inl ⟨r₀, rfl, h⟩
    · exact .inr ⟨a, tr, [], (List.append_nil tr).symm, h, rfl, rfl⟩

/-- A part whose errors are ignored ends normally. -/
theorem finishes_ignore {x : Co S Unit} {r : Except S.Err Unit} :
    Finishes (tryCatch x fun _ => .ret ()) tr r ↔ r = .ok () ∧ ∃ r₀, Finishes x tr r₀ := by
  rw [finishes_tryCatch]
  constructor
  · rintro (⟨a, rfl, h⟩ | ⟨e, tr₁, tr₂, rfl, h, rfl, rfl⟩)
    · exact ⟨rfl, _, h⟩
    · exact ⟨rfl, _, (List.append_nil tr₁).symm ▸ h⟩
  · rintro ⟨rfl, e | a, h⟩
    · exact .inr ⟨e, tr, [], (List.append_nil tr).symm, h, rfl, rfl⟩
    · exact .inl ⟨a, rfl, h⟩

/-- **The answers determine the outcome**, and how many of them are asked for. A
coroutine has no choices of its own. -/
theorem Finishes.unique {x : Co S α} {tr' rest rest' : Trace S} {r' : Except S.Err α}
    (h : Finishes x tr r) (h' : Finishes x tr' r') (heq : tr ++ rest = tr' ++ rest') :
    tr = tr' ∧ r = r' ∧ rest = rest' := by
  induction x generalizing tr tr' with
  | ret a =>
    obtain ⟨rfl, rfl⟩ := h
    obtain ⟨rfl, rfl⟩ := h'
    exact ⟨rfl, rfl, heq⟩
  | throw e =>
    obtain ⟨rfl, rfl⟩ := h
    obtain ⟨rfl, rfl⟩ := h'
    exact ⟨rfl, rfl, heq⟩
  | call c k ih =>
    obtain ⟨a, tl, rfl, htl⟩ := h
    obtain ⟨a', tl', rfl, htl'⟩ := h'
    obtain ⟨ha, htail⟩ := List.cons.inj heq
    cases ha
    obtain ⟨rfl, rfl, rfl⟩ := ih a htl htl' htail
    exact ⟨rfl, rfl, rfl⟩
  | await o k ih =>
    obtain ⟨a, tl, rfl, htl⟩ := h
    obtain ⟨a', tl', rfl, htl'⟩ := h'
    obtain ⟨ha, htail⟩ := List.cons.inj heq
    cases ha
    obtain ⟨rfl, rfl, rfl⟩ := ih a htl htl' htail
    exact ⟨rfl, rfl, rfl⟩

/-- What a coroutine can return is what it returns. -/
theorem Returns.finishes {Q : α → Prop} {x : Co S α} {a : α} (hx : Returns Q x)
    (h : Finishes x tr (.ok a)) : Q a := by
  induction x generalizing tr with
  | ret b =>
    obtain ⟨-, hab⟩ := h
    cases hab
    exact hx
  | throw e => exact nomatch h.2
  | call c k ih =>
    obtain ⟨b, rest, -, hrest⟩ := h
    exact ih b (hx b) hrest
  | await o k ih =>
    obtain ⟨b, rest, -, hrest⟩ := h
    exact ih b (hx b) hrest

/-! ## What is seen on the way -/

/-- Whatever happens, every answer the coroutine gets satisfies `q`. It says what a
part of a program does not do, so that the part can be passed over. -/
def Sees (q : Answer S → Prop) (x : Co S α) : Prop :=
  ∀ tr r, Finishes x tr r → ∀ a ∈ tr, q a

section Sees

variable {q : Answer S → Prop}

/-- It is enough to see less. -/
theorem Sees.mono {p : Answer S → Prop} {x : Co S α} (h : Sees p x) (hpq : ∀ a, p a → q a) :
    Sees q x := fun tr r hends a ha => hpq a (h tr r hends a ha)

/-- Returning asks for nothing, -/
theorem sees_ret (a : α) : Sees q (.ret a : Co S α) := by
  rintro tr r ⟨rfl, -⟩ a ha
  cases ha

/-- and raising neither. -/
theorem sees_throw (e : S.Err) : Sees q (.throw e : Co S α) := by
  rintro tr r ⟨rfl, -⟩ a ha
  cases ha

/-- A call gets one answer. -/
theorem sees_sync {c : S.Call} (h : ∀ a, q (.call c a)) : Sees q (sync c) := by
  intro tr r hends a ha
  obtain ⟨b, rfl, -⟩ := finishes_sync.1 hends
  exact List.mem_singleton.mp ha ▸ h b

/-- So does an operation. -/
theorem sees_op {o : S.Op} (h : ∀ r, q (.op o r)) : Sees q (op o) := by
  intro tr r hends a ha
  obtain rfl := finishes_op.1 hends
  exact List.mem_singleton.mp ha ▸ h r

/-- Of a sequence, both parts have to be looked at, whatever the first one returns.
-/
theorem sees_bind {x : Co S α} {f : α → Co S β} (hx : Sees q x) (hf : ∀ a, Sees q (f a)) :
    Sees q (Co.bind x f) := by
  intro tr r hends a ha
  rcases finishes_bind.1 hends with ⟨e, -, h⟩ | ⟨b, tr₁, tr₂, rfl, h₁, h₂⟩
  · exact hx tr _ h a ha
  · rcases List.mem_append.mp ha with ha | ha
    · exact hx tr₁ _ h₁ a ha
    · exact hf b tr₂ r h₂ a ha

theorem sees_attempt_bind {x : Co S α} {f : Except S.Err α → Co S β} (hx : Sees q x)
    (hf : ∀ r, Sees q (f r)) : Sees q (Co.bind (attempt x) f) := by
  intro tr r hends a ha
  obtain ⟨r₀, tr₁, tr₂, rfl, h₁, h₂⟩ := finishes_attempt_bind.1 hends
  rcases List.mem_append.mp ha with ha | ha
  · exact hx tr₁ r₀ h₁ a ha
  · exact hf r₀ tr₂ r h₂ a ha

/-- A handler is a part like any other. -/
theorem sees_tryCatch {x : Co S α} {h : S.Err → Co S α} (hx : Sees q x)
    (hh : ∀ e, Sees q (h e)) : Sees q (tryCatch x h) := by
  intro tr r hends a ha
  rcases finishes_tryCatch.1 hends with ⟨b, -, h₁⟩ | ⟨e, tr₁, tr₂, rfl, h₁, h₂⟩
  · exact hx tr _ h₁ a ha
  · rcases List.mem_append.mp ha with ha | ha
    · exact hx tr₁ _ h₁ a ha
    · exact hh e tr₂ r h₂ a ha

theorem sees_ofExcept (r : Except S.Err α) : Sees q (ofExcept r) := by
  cases r with
  | ok a => exact sees_ret a
  | error e => exact sees_throw e

/-- A context has three parts. -/
theorem sees_asyncWith {enter : Co S ρ} {exit : ρ → Option S.Err → Co S Unit}
    {body : ρ → Co S α} (henter : Sees q enter) (hbody : ∀ v, Sees q (body v))
    (hexit : ∀ v e, Sees q (exit v e)) : Sees q (asyncWith enter exit body) :=
  sees_bind henter fun v => sees_attempt_bind (hbody v) fun _ =>
    sees_bind (hexit v _) fun _ => sees_ofExcept _

end Sees

/-! ## What comes before

That one answer comes before another says more than that both are there, and it
is not kept by taking a part of a trace away from its front. So the statement
quantifies over all places where the later answer stands. A sequence is cut at
the place where its first part ends, and the answer is looked for on either
side. -/

/-- **An answer that satisfies `q` comes after one that satisfies `d`.** It is about
order, and so about whole traces; what neither part can do alone has to be put
together. -/
def Precedes (d q : Answer S → Prop) (x : Co S α) : Prop :=
  ∀ tr r, Finishes x tr r → ∀ before a after, tr = before ++ a :: after → q a → ∃ b ∈ before, d b

/-- **An answer is in the earlier or in the later part** of a trace. -/
theorem split_append {γ : Type} {l₁ l₂ before after : List γ} {a : γ}
    (h : l₁ ++ l₂ = before ++ a :: after) :
    (∃ mid, l₁ = before ++ a :: mid) ∨ ∃ mid, before = l₁ ++ mid ∧ l₂ = mid ++ a :: after := by
  rcases List.append_eq_append_iff.mp h with ⟨mid, rfl, hmid⟩ | ⟨mid, rfl, hmid⟩
  · exact .inr ⟨mid, rfl, hmid⟩
  · cases mid with
    | nil => exact .inr ⟨[], by simp, hmid.symm⟩
    | cons b mid =>
      obtain ⟨rfl, -⟩ := List.cons.inj hmid
      exact .inl ⟨mid, rfl⟩

/-- An answer that is not in the earlier part comes after it. -/
theorem split_later {γ : Type} {l₁ l₂ before after : List γ} {a : γ}
    (h : l₁ ++ l₂ = before ++ a :: after) (ha : a ∉ l₁) :
    ∃ mid, before = l₁ ++ mid ∧ l₂ = mid ++ a :: after := by
  rcases split_append h with ⟨mid, rfl⟩ | hlater
  · exact absurd (List.mem_append_right before List.mem_cons_self) ha
  · exact hlater

/-- An answer that is not in the later part. -/
theorem split_earlier {γ : Type} {l₁ l₂ before after : List γ} {a : γ}
    (h : l₁ ++ l₂ = before ++ a :: after) (ha : a ∉ l₂) :
    ∃ mid, l₁ = before ++ a :: mid := by
  rcases split_append h with hearlier | ⟨mid, rfl, rfl⟩
  · exact hearlier
  · exact absurd (List.mem_append_right mid List.mem_cons_self) ha

section Split

variable {q : Answer S → Prop} {before after : Trace S} {a : Answer S}

/-- **An answer that only the later part can get.** The part before it has ended by
then, and ended normally. -/
theorem Finishes.bind_split {x : Co S α} {f : α → Co S β} {r : Except S.Err β}
    (h : Finishes (Co.bind x f) (before ++ a :: after) r) (ha : q a)
    (hx : Sees (fun a => ¬q a) x) :
    ∃ v tr₁ tr₂, before = tr₁ ++ tr₂ ∧ Finishes x tr₁ (.ok v) ∧
      Finishes (f v) (tr₂ ++ a :: after) r := by
  rcases finishes_bind.1 h with ⟨e, -, h₁⟩ | ⟨v, tr₁, tr₂, htr, h₁, h₂⟩
  · exact absurd ha (hx _ _ h₁ a (List.mem_append_right before List.mem_cons_self))
  · obtain ⟨mid, rfl, rfl⟩ := split_later htr.symm fun hmem => hx _ _ h₁ a hmem ha
    exact ⟨v, tr₁, mid, rfl, h₁, h₂⟩

/-- An answer that only the body can get. -/
theorem Finishes.asyncWith_split {enter : Co S ρ} {exit : ρ → Option S.Err → Co S Unit}
    {body : ρ → Co S α} {r : Except S.Err α}
    (h : Finishes (asyncWith enter exit body) (before ++ a :: after) r) (ha : q a)
    (henter : Sees (fun a => ¬q a) enter) (hexit : ∀ v e, Sees (fun a => ¬q a) (exit v e)) :
    ∃ v r₀ tr₁ tr₂ mid, before = tr₁ ++ tr₂ ∧ Finishes (body v) (tr₂ ++ a :: mid) r₀ ∧
      ∀ b, r = .ok b → r₀ = .ok b := by
  rcases finishes_asyncWith.1 h with
    ⟨e, -, h₁⟩ | ⟨v, r₀, tr₁, tr₂, tr₃, rx, htr, h₁, h₂, h₃, rfl⟩
  · exact absurd ha (henter _ _ h₁ a (List.mem_append_right before List.mem_cons_self))
  · obtain ⟨mid, rfl, hmid⟩ := split_later htr.symm fun hmem => henter _ _ h₁ a hmem ha
    obtain ⟨rest, rfl⟩ := split_earlier hmid fun hmem => hexit _ _ _ _ h₃ a hmem ha
    refine ⟨v, r₀, tr₁, mid, rest, rfl, h₂, fun b hb => ?_⟩
    cases rx with
    | error e => cases hb
    | ok u => exact hb

end Split

section Precedes

variable {d q : Answer S → Prop}

/-- Where nothing satisfies `q`. -/
theorem precedes_of_sees {x : Co S α} (h : Sees (fun a => ¬q a) x) : Precedes d q x := by
  rintro tr r hends before a after rfl ha
  exact absurd ha (h _ r hends a (List.mem_append_right before List.mem_cons_self))

/-- What holds of both parts holds of the sequence. -/
theorem precedes_bind {x : Co S α} {f : α → Co S β} (hx : Precedes d q x)
    (hf : ∀ a, Precedes d q (f a)) : Precedes d q (Co.bind x f) := by
  intro tr r hends before a after htr ha
  rcases finishes_bind.1 hends with ⟨e, -, h⟩ | ⟨v, tr₁, tr₂, rfl, h₁, h₂⟩
  · exact hx tr _ h before a after htr ha
  · rcases split_append htr with ⟨mid, rfl⟩ | ⟨mid, rfl, rfl⟩
    · exact hx _ _ h₁ before a mid rfl ha
    · obtain ⟨b, hb, hd⟩ := hf v _ r h₂ mid a after rfl ha
      exact ⟨b, List.mem_append_right _ hb, hd⟩

/-- Once an answer with `d` was there, anything may follow. -/
theorem precedes_bind_of_done {x : Co S α} {f : α → Co S β} (hx : Precedes d q x)
    (hd : ∀ tr a, Finishes x tr (.ok a) → ∃ b ∈ tr, d b) : Precedes d q (Co.bind x f) := by
  intro tr r hends before a after htr ha
  rcases finishes_bind.1 hends with ⟨e, -, h⟩ | ⟨v, tr₁, tr₂, rfl, h₁, -⟩
  · exact hx tr _ h before a after htr ha
  · rcases split_append htr with ⟨mid, rfl⟩ | ⟨mid, rfl, -⟩
    · exact hx _ _ h₁ before a mid rfl ha
    · obtain ⟨b, hb, hb'⟩ := hd tr₁ v h₁
      exact ⟨b, List.mem_append_left _ hb, hb'⟩

/-- What finally runs may come after anything. -/
theorem precedes_tryFinally {x : Co S α} {f : Co S Unit} (hx : Precedes d q x)
    (hf : Sees (fun a => ¬q a) f) : Precedes d q (tryFinally x f) := by
  intro tr r hends before a after htr ha
  obtain ⟨r₀, tr₁, tr₂, rf, rfl, h₁, h₂, -⟩ := finishes_tryFinally.1 hends
  obtain ⟨mid, rfl⟩ := split_earlier htr fun hmem => hf tr₂ rf h₂ a hmem ha
  exact hx _ _ h₁ before a mid rfl ha

end Precedes

/-! ## The first failure

Where a program has no handlers, its error is that of the first operation that
fails. With this one fact an error can be described by the answers alone, and
two runs with the same failing answers raise the same error. -/

/-- **The coroutine ends with its first failure.** `failure` says which answers are
failures, and `kept` what may become of their errors. The errors are read from the
trace, so that the program need not be mentioned where the error is described. -/
def FailsFast (failure : Answer S → Option S.Err) (kept : S.Err → S.Err → Prop)
    (x : Co S α) : Prop :=
  ∀ tr r, Finishes x tr r →
    (∀ a, r = .ok a → ∀ b ∈ tr, failure b = none) ∧
    ∀ e, r = .error e → ∃ good bad e₀, tr = good ++ [bad] ∧
      (∀ b ∈ good, failure b = none) ∧ failure bad = some e₀ ∧ kept e₀ e

section FailsFast

variable {failure : Answer S → Option S.Err} {kept : S.Err → S.Err → Prop}

/-- Nothing fails. -/
theorem failsFast_ret (a : α) : FailsFast failure kept (.ret a : Co S α) := by
  rintro tr r ⟨rfl, rfl⟩
  refine ⟨fun _ _ b hb => ?_, fun e he => ?_⟩
  · cases hb
  · cases he

/-- An operation fails with its error. -/
theorem failsFast_op {o : S.Op} (hok : ∀ a, failure (.op o (.ok a)) = none)
    (herr : ∀ e, failure (.op o (.error e)) = some e) (hkept : ∀ e, kept e e) :
    FailsFast failure kept (op o) := by
  intro tr r hends
  obtain rfl := finishes_op.1 hends
  constructor
  · rintro a rfl b hb
    exact List.mem_singleton.mp hb ▸ hok a
  · rintro e rfl
    exact ⟨[], _, e, rfl, fun _ hb => (nomatch hb), herr e, hkept e⟩

/-- A sequence fails with its first part, or goes on. -/
theorem failsFast_bind {x : Co S α} {f : α → Co S β} (hx : FailsFast failure kept x)
    (hf : ∀ a, FailsFast failure kept (f a)) : FailsFast failure kept (Co.bind x f) := by
  intro tr r hends
  rcases finishes_bind.1 hends with ⟨e, rfl, h⟩ | ⟨b, tr₁, tr₂, rfl, h₁, h₂⟩
  · refine ⟨fun _ he => (nomatch he), fun e' he => ?_⟩
    cases he
    exact (hx tr _ h).2 e rfl
  · have hclean := (hx tr₁ _ h₁).1 b rfl
    refine ⟨fun a ha c hc => ?_, fun e he => ?_⟩
    · exact (List.mem_append.mp hc).elim (hclean c) ((hf b tr₂ r h₂).1 a ha c)
    · obtain ⟨good, bad, e₀, rfl, hgood, hbad, hkept⟩ := (hf b tr₂ r h₂).2 e he
      exact ⟨tr₁ ++ good, bad, e₀, (List.append_assoc ..).symm,
        fun c hc => (List.mem_append.mp hc).elim (hclean c) (hgood c), hbad, hkept⟩

end FailsFast

/-! ## The same answers under other names

Two programs that differ in a field they send, and in nothing they do with an
answer, need not be followed twice. An answer of the first is renamed to one of
the second, and what is shown of the traces of one is a statement about those
of the other. -/

/-- **Another coroutine does the same** when its answers are renamed by `f`. It
compares programs that differ in what they ask for, but not in what they make of it.
-/
def Mirrors (f : Answer S → Answer S) (x y : Co S α) : Prop :=
  ∀ tr r, Finishes x tr r → Finishes y (tr.map f) r

section Mirrors

variable {f : Answer S → Answer S}

/-- Both return. -/
theorem mirrors_ret (a : α) : Mirrors f (.ret a : Co S α) (.ret a) := by
  rintro tr r ⟨rfl, rfl⟩
  exact ⟨rfl, rfl⟩

/-- Both raise. -/
theorem mirrors_throw (e : S.Err) : Mirrors f (.throw e : Co S α) (.throw e) := by
  rintro tr r ⟨rfl, rfl⟩
  exact ⟨rfl, rfl⟩

theorem mirrors_sync {c : S.Call} (h : ∀ a, f (.call c a) = .call c a) :
    Mirrors f (sync c) (sync c) := by
  intro tr r hends
  obtain ⟨a, rfl, rfl⟩ := finishes_sync.1 hends
  exact finishes_sync.2 ⟨a, congrArg (fun b => [b]) (h a), rfl⟩

theorem mirrors_op {o : S.Op} (h : ∀ r, f (.op o r) = .op o r) : Mirrors f (op o) (op o) := by
  intro tr r hends
  obtain rfl := finishes_op.1 hends
  exact finishes_op.2 (congrArg (fun b => [b]) (h r))

/-- Both go on in the same way. -/
theorem mirrors_bind {x y : Co S α} {g k : α → Co S β} (hx : Mirrors f x y)
    (hg : ∀ a, Mirrors f (g a) (k a)) : Mirrors f (Co.bind x g) (Co.bind y k) := by
  intro tr r hends
  rcases finishes_bind.1 hends with ⟨e, rfl, h⟩ | ⟨a, tr₁, tr₂, rfl, h₁, h₂⟩
  · exact finishes_bind.2 (.inl ⟨e, rfl, hx tr _ h⟩)
  · exact finishes_bind.2 (.inr ⟨a, _, _, List.map_append, hx tr₁ _ h₁, hg a tr₂ r h₂⟩)

/-- The two may come to different outcomes, if they go on in the same way. -/
theorem mirrors_attempt_bind {x y : Co S α} {g k : Except S.Err α → Co S β}
    (hx : ∀ tr r, Finishes x tr r → ∃ r', Finishes y (tr.map f) r' ∧ Mirrors f (g r) (k r')) :
    Mirrors f (Co.bind (attempt x) g) (Co.bind (attempt y) k) := by
  intro tr r hends
  obtain ⟨r₀, tr₁, tr₂, rfl, h₁, h₂⟩ := finishes_attempt_bind.1 hends
  obtain ⟨r₀', h₁', hgo⟩ := hx tr₁ r₀ h₁
  exact finishes_attempt_bind.2 ⟨r₀', _, _, List.map_append, h₁', hgo tr₂ r h₂⟩

/-- Both take the same branch. -/
theorem mirrors_ite {p : Prop} [Decidable p] {x x' y y' : Co S α} (hx : Mirrors f x x')
    (hy : Mirrors f y y') : Mirrors f (if p then x else y) (if p then x' else y') := by
  split
  · exact hx
  · exact hy

end Mirrors

end Async
