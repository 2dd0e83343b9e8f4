import Yascheduler.Async.Coroutine

/-!
# Weakest preconditions of coroutines

What a coroutine can rely on between two of its own steps is little: other
coroutines run at every `await`. So a coroutine is verified against an
abstract environment. A `Logic` fixes a type of local states – what the
coroutine knows, and what it has done so far – and says of every call and of
every awaited operation in which local states it may be issued, and which
answers it may get with which local state after them. The weakest
precondition `wp` then folds these rules over the tree of the coroutine.

The rules below follow the syntax: one for each combinator, so that a proof
about a program has the shape of the program. `Keeps` is the special case of
a program that preserves a property of the local state whatever happens.

## Why a local state

The state that a program is verified against is not that of the world, since the
world changes whenever the program waits. It is what the program itself has done:
which locks it holds, which rows it has written. Nobody else can change that, so
a postcondition about it stays true, and a fact about the world that depends on
it – *the row under this lock is still TO_DO* – is left to the invariant of the
pool, where all coroutines are looked at together.

A program is only ever verified once for each protocol. How it is interleaved
with others does not occur in that proof.
-/

namespace Async

open Co hiding bind

variable {S : Sig} {L α β ρ : Type}

/-- **An abstract environment**: when a call or an operation may be issued in a
local state, and what may come back. It knows one coroutine only; that the real
environment behaves so is shown once, for all of them together. -/
structure Logic (S : Sig) (L : Type) where
  /-- local states in which a call may be made -/
  callPre : S.Call → L → Prop
  /-- answers a call may get, with the local state after it -/
  callRel : (c : S.Call) → L → S.Ans c → L → Prop
  /-- local states in which an operation may be awaited -/
  awaitPre : S.Op → L → Prop
  /-- results an operation may get, with the local state after it -/
  awaitRel : (o : S.Op) → L → Except S.Err (S.Res o) → L → Prop

/-- **The weakest precondition**: from the local state, the coroutine issues nothing
that is not allowed there, and every outcome satisfies `Q`. The outcome may be an
error, so no path of the program is left out. -/
def wp (P : Logic S L) : Co S α → (Except S.Err α → L → Prop) → L → Prop
  | .ret a, Q, l => Q (.ok a) l
  | .throw e, Q, l => Q (.error e) l
  | .call c k, Q, l =>
      P.callPre c l ∧ ∀ r l', P.callRel c l r l' → wp P (k r) Q l'
  | .await o k, Q, l =>
      P.awaitPre o l ∧ ∀ r l', P.awaitRel o l r l' → wp P (k r) Q l'

variable {P : Logic S L} {Q Q' : Except S.Err α → L → Prop} {l : L}

/-! ## Rules -/

@[simp] theorem wp_ret (a : α) : wp P (.ret a) Q = Q (.ok a) := rfl

@[simp] theorem wp_throw (e : S.Err) :
    wp P (.throw e : Co S α) Q = Q (.error e) := rfl

/-- The rule of consequence. -/
theorem wp_mono {x : Co S α} (h : wp P x Q l)
    (hQ : ∀ r l', Q r l' → Q' r l') : wp P x Q' l := by
  induction x generalizing l with
  | ret a => exact hQ _ _ h
  | throw e => exact hQ _ _ h
  | call c k ih => exact ⟨h.1, fun r l' hr => ih r (h.2 r l' hr)⟩
  | await o k ih => exact ⟨h.1, fun r l' hr => ih r (h.2 r l' hr)⟩

/-- The postcondition of a first part: go on with its value, or end with its
error. -/
def onOk (f : α → L → Prop) (R : Except S.Err β → L → Prop) :
    Except S.Err α → L → Prop
  | .ok a, l => f a l
  | .error e, l => R (.error e) l

/-- The postcondition of a guarded part: end with its value, or go on with
its error. -/
def onError (f : S.Err → L → Prop) (R : Except S.Err α → L → Prop) :
    Except S.Err α → L → Prop
  | .ok a, l => R (.ok a) l
  | .error e, l => f e l

@[simp] theorem onOk_ok (f : α → L → Prop) (R : Except S.Err β → L → Prop)
    (a : α) : onOk f R (.ok a) = f a := rfl

@[simp] theorem onOk_error (f : α → L → Prop) (R : Except S.Err β → L → Prop)
    (e : S.Err) : onOk f R (.error e) = R (.error e) := rfl

@[simp] theorem onError_ok (f : S.Err → L → Prop) (a : α) :
    onError f Q (.ok a) = Q (.ok a) := rfl

@[simp] theorem onError_error (f : S.Err → L → Prop) (e : S.Err) :
    onError f Q (.error e) = f e := rfl

/-- **Sequencing.** The continuation starts from whatever the first part leaves; an
error of the first part is the error of the whole. -/
theorem wp_bind {x : Co S α} {f : α → Co S β}
    {R : Except S.Err β → L → Prop} :
    wp P (Co.bind x f) R = wp P x (onOk (fun a => wp P (f a) R) R) := by
  funext l
  induction x generalizing l with
  | ret a => rfl
  | throw e => rfl
  | call c k ih => simp only [Co.bind, wp, ih]
  | await o k ih => simp only [Co.bind, wp, ih]

/-- Attempting a coroutine turns its error into a value. -/
theorem wp_attempt {x : Co S α} {R : Except S.Err (Except S.Err α) → L → Prop} :
    wp P (attempt x) R = wp P x (fun r => R (.ok r)) := by
  funext l
  induction x generalizing l with
  | ret a => rfl
  | throw e => rfl
  | call c k ih => simp only [attempt, wp, ih]
  | await o k ih => simp only [attempt, wp, ih]

@[simp] theorem wp_ofExcept (r : Except S.Err α) :
    wp P (ofExcept r) Q = Q r := by
  cases r <;> rfl

/-- A call goes on from the state after its answer. -/
theorem wp_sync {c : S.Call} {R : Except S.Err (S.Ans c) → L → Prop} :
    wp P (sync c) R l ↔
      P.callPre c l ∧ ∀ r l', P.callRel c l r l' → R (.ok r) l' := Iff.rfl

/-- So does an operation, which may also come to an error. -/
theorem wp_op {o : S.Op} {R : Except S.Err (S.Res o) → L → Prop} :
    wp P (op o) R l ↔
      P.awaitPre o l ∧ ∀ r l', P.awaitRel o l r l' → R r l' := by
  simp only [op, wp, wp_ofExcept]

/-- The handler goes on where the error was raised. -/
theorem wp_tryCatch {x : Co S α} {h : S.Err → Co S α} :
    wp P (tryCatch x h) Q = wp P x (onError (fun e => wp P (h e) Q) Q) := by
  rw [Co.tryCatch, wp_bind, wp_attempt]
  refine congrArg (wp P x) ?_
  funext r
  cases r <;> rfl

/-- What finally runs starts from either outcome. -/
theorem wp_tryFinally {x : Co S α} {f : Co S Unit} :
    wp P (tryFinally x f) Q = wp P x (fun r => wp P f (onOk (fun _ => Q r) Q)) := by
  simp only [Co.tryFinally, wp_bind, wp_attempt, onOk_ok, wp_ofExcept]

/-- The exit runs in any case, once the context is entered. -/
theorem wp_asyncWith {enter : Co S ρ} {exit : ρ → Option S.Err → Co S Unit}
    {body : ρ → Co S α} :
    wp P (asyncWith enter exit body) Q =
      wp P enter (onOk (fun v => wp P (body v) (fun r =>
        wp P (exit v (errorOf r)) (onOk (fun _ => Q r) Q))) Q) := by
  simp only [Co.asyncWith, wp_bind, wp_attempt, onOk_ok, wp_ofExcept]

/-! ## Programs that preserve a property of the local state

A weakest precondition has to be computed through the whole program, and for a
long one most of the computation says that nothing has changed. If the property
is the same before and after, it need not be computed at all: each part keeps
it, and so does whatever is put together from the parts. -/

/-- `x` preserves `I`, whatever the environment answers. Most parts of a program
have to do with one local state only, and for these it saves the computation of a
precondition. -/
def Keeps (P : Logic S L) (I : L → Prop) (x : Co S α) : Prop :=
  ∀ l, I l → wp P x (fun _ l' => I l') l

section Keeps

variable {I : L → Prop}

theorem keeps_ret (a : α) : Keeps P I (.ret a) := fun _ h => h

theorem keeps_throw (e : S.Err) : Keeps P I (.throw e : Co S α) := fun _ h => h

theorem keeps_ofExcept (r : Except S.Err α) : Keeps P I (ofExcept r) := by
  intro l h
  rw [wp_ofExcept]
  exact h

/-- Both parts preserve it, whatever the first one returns. -/
theorem keeps_bind {x : Co S α} {f : α → Co S β} (hx : Keeps P I x)
    (hf : ∀ a, Keeps P I (f a)) : Keeps P I (Co.bind x f) := by
  intro l h
  rw [wp_bind]
  refine wp_mono (hx l h) fun r l' hl => ?_
  cases r with
  | ok a => exact hf a l' hl
  | error e => exact hl

theorem keeps_attempt {x : Co S α} (hx : Keeps P I x) :
    Keeps P I (attempt x) := by
  intro l h
  rw [wp_attempt]
  exact hx l h

/-- So does the handler. -/
theorem keeps_tryCatch {x : Co S α} {h : S.Err → Co S α} (hx : Keeps P I x)
    (hh : ∀ e, Keeps P I (h e)) : Keeps P I (tryCatch x h) := by
  refine keeps_bind (keeps_attempt hx) fun r => ?_
  cases r with
  | ok a => exact keeps_ret a
  | error e => exact hh e

theorem keeps_tryFinally {x : Co S α} {f : Co S Unit} (hx : Keeps P I x)
    (hf : Keeps P I f) : Keeps P I (tryFinally x f) :=
  keeps_bind (keeps_attempt hx) fun r => keeps_bind hf fun _ => keeps_ofExcept r

/-- And the two ends of a context. -/
theorem keeps_asyncWith {enter : Co S ρ} {exit : ρ → Option S.Err → Co S Unit}
    {body : ρ → Co S α} (henter : Keeps P I enter)
    (hexit : ∀ v e, Keeps P I (exit v e)) (hbody : ∀ v, Keeps P I (body v)) :
    Keeps P I (asyncWith enter exit body) :=
  keeps_bind henter fun v => keeps_bind (keeps_attempt (hbody v)) fun r =>
    keeps_bind (hexit v (errorOf r)) fun _ => keeps_ofExcept r

theorem keeps_sync {c : S.Call}
    (h : ∀ l, I l → P.callPre c l ∧ ∀ r l', P.callRel c l r l' → I l') :
    Keeps P I (sync c) := fun l hl => wp_sync.mpr (h l hl)

theorem keeps_op {o : S.Op}
    (h : ∀ l, I l → P.awaitPre o l ∧ ∀ r l', P.awaitRel o l r l' → I l') :
    Keeps P I (op o) := fun l hl => wp_op.mpr (h l hl)

/-- A program that preserves `I` may be followed by anything that `I`
allows. -/
theorem Keeps.wp {x : Co S α} (hx : Keeps P I x) (hl : I l)
    (hQ : ∀ r l', I l' → Q r l') : wp P x Q l :=
  wp_mono (hx l hl) hQ

end Keeps

/-! ## What a program can return

A value may be known without anything being known of the state: the id of a
node that is returned is that of the node that was passed in, because the
program copies it. Such facts hold beside every protocol, and are proved
without one. -/

/-- **Every value the program can return satisfies `Q`**, whatever it is answered.
It is a matter of the program alone, and may be used beside any environment. -/
def Returns (Q : α → Prop) : Co S α → Prop
  | .ret a => Q a
  | .throw _ => True
  | .call _ k => ∀ r, Returns Q (k r)
  | .await _ k => ∀ r, Returns Q (k r)

section Returns

variable {Q : α → Prop} {R : β → Prop}

theorem returns_any (x : Co S α) : Returns (fun _ => True) x := by
  induction x with
  | ret a => trivial
  | throw e => trivial
  | call c k ih => exact ih
  | await o k ih => exact ih

/-- It may be weakened. -/
theorem Returns.mono {Q' : α → Prop} {x : Co S α} (hx : Returns Q x) (h : ∀ a, Q a → Q' a) :
    Returns Q' x := by
  induction x with
  | ret a => exact h a hx
  | throw e => trivial
  | call c k ih => exact fun r => ih r (hx r)
  | await o k ih => exact fun r => ih r (hx r)

/-- What the first part returns may be used in the second. -/
theorem returns_bind {x : Co S α} {f : α → Co S β} (hx : Returns Q x)
    (hf : ∀ a, Q a → Returns R (f a)) : Returns R (Co.bind x f) := by
  induction x with
  | ret a => exact hf a hx
  | throw e => trivial
  | call c k ih => exact fun r => ih r (hx r)
  | await o k ih => exact fun r => ih r (hx r)

/-- What follows decides what is returned. -/
theorem returns_then {x : Co S α} {f : α → Co S β} (hf : ∀ a, Returns R (f a)) :
    Returns R (Co.bind x f) :=
  returns_bind (returns_any x) fun a _ => hf a

theorem returns_ofExcept {r : Except S.Err α} (h : ∀ a, r = .ok a → Q a) :
    Returns Q (ofExcept r) := by
  cases r with
  | ok a => exact h a rfl
  | error e => trivial

theorem returns_attempt {x : Co S α} (hx : Returns Q x) :
    Returns (fun r => ∀ a, r = .ok a → Q a) (attempt x) := by
  induction x with
  | ret a => exact fun b hb => Except.ok.inj hb ▸ hx
  | throw e => exact fun b hb => nomatch hb
  | call c k ih => exact fun r => ih r (hx r)
  | await o k ih => exact fun r => ih r (hx r)

/-- The handler may return as well. -/
theorem returns_tryCatch {x : Co S α} {h : S.Err → Co S α} (hx : Returns Q x)
    (hh : ∀ e, Returns Q (h e)) : Returns Q (tryCatch x h) := by
  refine returns_bind (returns_attempt hx) fun r hr => ?_
  cases r with
  | ok a => exact hr a rfl
  | error e => exact hh e

/-- What the body returns is returned. -/
theorem returns_asyncWith {enter : Co S ρ} {exit : ρ → Option S.Err → Co S Unit}
    {body : ρ → Co S α} (hbody : ∀ v, Returns Q (body v)) :
    Returns Q (asyncWith enter exit body) :=
  returns_then fun v => returns_bind (returns_attempt (hbody v)) fun _ hr =>
    returns_then fun _ => returns_ofExcept hr

/-- What a program can return may be used in its postcondition. -/
theorem Returns.wp {x : Co S α} {R : Except S.Err α → L → Prop} (hx : Returns Q x)
    (h : wp P x R l) : Async.wp P x (fun r l' => R r l' ∧ ∀ a, r = .ok a → Q a) l := by
  induction x generalizing l with
  | ret a => exact ⟨h, fun b hb => Except.ok.inj hb ▸ hx⟩
  | throw e => exact ⟨h, fun b hb => nomatch hb⟩
  | call c k ih => exact ⟨h.1, fun r l' hr => ih r (hx r) (h.2 r l' hr)⟩
  | await o k ih => exact ⟨h.1, fun r l' hr => ih r (hx r) (h.2 r l' hr)⟩

end Returns

end Async
