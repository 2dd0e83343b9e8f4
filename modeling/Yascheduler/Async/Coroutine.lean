import Mathlib.Logic.Relation

/-!
# Coroutines as trees of awaits

A coroutine of a cooperative event loop runs without interruption from one
`await` to the next. Everything it does to the memory of its process in
between is atomic for the other coroutines of the same loop; only at an
`await` may they run, and only there may the coroutine itself be cancelled.

A coroutine is therefore a tree with two kinds of inner nodes. A *call* asks
the memory of the process something, or changes it, and continues at once
with the answer. An *await* hands an operation to the outside world and
suspends; it continues either with a result or with an error, cancellation
being one of the errors. The leaves are a returned value and a raised error.
Structured error handling – `try`, `finally`, `async with` – is defined on
these trees and never inspects the outside world.

## Why a tree

A coroutine could be a function of the memory, as it is in a state monad. But the
memory is shared, and what a coroutine finds there after an `await` is what the
others have left. As a tree of questions a coroutine says nothing about who
answers them, so one definition of a program serves for everything that is said
of it: it is run by a pool together with others (`Pool`), executed alone
(`Solo`), and taken apart along its answers, whatever they are (`Trace`).

It also keeps the model close to the code it is made from. An `await` of the
source is an `await` here, one for one, and so the places where another
coroutine may run, or where a cancellation may arrive, can be checked line by
line. A piece of code between two of them that only touches the memory is one
call.
-/

namespace Async

/-- **The vocabulary of a family of coroutines**: the calls it makes on the
memory of its process and their answers, the operations it awaits and their
results, the errors, among them the one that a cancellation raises, and the
choices the outside world makes when it performs an operation. -/
structure Sig where
  /-- calls on the memory of the process -/
  Call : Type
  /-- the answer of each call -/
  Ans : Call → Type
  /-- operations that are awaited -/
  Op : Type
  /-- the result of each operation -/
  Res : Op → Type
  /-- errors -/
  Err : Type
  /-- the error raised in a coroutine that is cancelled at an await -/
  cancelled : Err
  /-- how the outside world resolves an operation -/
  Choice : Type

/-- A coroutine over the vocabulary `S` that returns an `α`. It is the tree of what
it may do: each answer leads to one branch. -/
inductive Co (S : Sig) (α : Type) : Type where
  /-- return -/
  | ret (a : α)
  /-- raise -/
  | throw (e : S.Err)
  /-- call the memory of the process and go on at once -/
  | call (c : S.Call) (k : S.Ans c → Co S α)
  /-- suspend until the operation is resolved -/
  | await (o : S.Op) (k : Except S.Err (S.Res o) → Co S α)

namespace Co

variable {S : Sig} {α β ρ : Type}

/-- Sequencing. It is defined by recursion on the first part, so a program is the
tree of everything it could do. -/
def bind : Co S α → (α → Co S β) → Co S β
  | .ret a, f => f a
  | .throw e, _ => .throw e
  | .call c k, f => .call c fun r => bind (k r) f
  | .await o k, f => .await o fun r => bind (k r) f

instance : Monad (Co S) where
  pure := .ret
  bind := bind

/-- The outcome of a coroutine as a value: nothing is raised. All handlers are made
of this and of sequencing. -/
def attempt : Co S α → Co S (Except S.Err α)
  | .ret a => .ret (.ok a)
  | .throw e => .ret (.error e)
  | .call c k => .call c fun r => attempt (k r)
  | .await o k => .await o fun r => attempt (k r)

/-- Return a value or raise an error. -/
def ofExcept : Except S.Err α → Co S α
  | .ok a => .ret a
  | .error e => .throw e

/-- A single call. -/
def sync (c : S.Call) : Co S (S.Ans c) := .call c .ret

/-- A single awaited operation. What it resolves to may be an error, which is raised
where it is awaited. -/
def op (o : S.Op) : Co S (S.Res o) := .await o ofExcept

/-- A single call that may raise. That its answer is of this kind is a proof
obligation of whoever makes the call. -/
def fallible (c : S.Call) (h : S.Ans c = Except S.Err α) : Co S α :=
  bind (sync c) fun a => ofExcept (h ▸ a)

/-- `try: x  except BaseException as e: h(e)`. -/
def tryCatch (x : Co S α) (h : S.Err → Co S α) : Co S α :=
  bind (attempt x) fun
    | .ok a => .ret a
    | .error e => h e

/-- `try: x finally: f`. An error raised by `f` replaces the outcome of `x`. -/
def tryFinally (x : Co S α) (f : Co S Unit) : Co S α :=
  bind (attempt x) fun r => bind f fun _ => ofExcept r

/-- The error of an outcome, if it is one. -/
def errorOf : Except S.Err α → Option S.Err
  | .ok _ => none
  | .error e => some e

/-- `async with enter() as v: body(v)`. The exit handler is told the error of the
body, if any; when it raises, its own error replaces the outcome. It cannot suppress
an error. -/
def asyncWith (enter : Co S ρ) (exit : ρ → Option S.Err → Co S Unit)
    (body : ρ → Co S α) : Co S α :=
  bind enter fun v => bind (attempt (body v)) fun r =>
    bind (exit v (errorOf r)) fun _ => ofExcept r

/-- Programs are written with `do`; proofs are about the constructors. -/
@[simp] theorem pure_eq (a : α) : (pure a : Co S α) = .ret a := rfl

@[simp] theorem bind_eq (x : Co S α) (f : α → Co S β) :
    (x >>= f) = Co.bind x f := rfl

/-- Sequencing is associative. By induction on the first part. -/
theorem bind_assoc (x : Co S α) (f : α → Co S β) (g : β → Co S ρ) :
    bind (bind x f) g = bind x fun a => bind (f a) g := by
  induction x with
  | ret a => rfl
  | throw e => rfl
  | call c k ih => simp only [bind, ih]
  | await o k ih => simp only [bind, ih]

end Co

end Async
