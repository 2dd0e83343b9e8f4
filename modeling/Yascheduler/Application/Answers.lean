import Yascheduler.Application.UnitOfWork
import Yascheduler.Async.Trace

/-!
# What a unit of work is answered

Most statements about the answers of a program say nothing about the unit of
work around it: they hold of a unit of work as soon as they hold of its body.

Opening the connection, ending the transaction, handing over the events: these
are the same in every unit of work, and whoever looks for an answer in the trace
of a use case has to get past them. The lemmas say that none of these steps is of
the kind looked for, once for all kinds that are `Unspecific`.
-/

namespace Yascheduler

open Async

section

variable {q : Answer sig → Prop} {α : Type}

theorem sees_exceptException {x : Prog α} {h : Exc → Prog α} (hx : Sees q x)
    (hh : ∀ e, Sees q (h e)) : Sees q (exceptException x h) := by
  refine sees_tryCatch hx fun e => ?_
  split
  · exact hh e
  · exact sees_throw e

theorem sees_suppress {x : Prog Unit} (hx : Sees q x) : Sees q (suppress x) :=
  sees_exceptException hx fun _ => sees_ret ()

/-- The operations of a unit of work itself. -/
def ofUow : Op → Bool
  | .connect | .begin _ | .commit _ | .rollback _ | .close _ | .handler _ => true
  | _ => false

/-- A predicate that says nothing of a unit of work itself. What it holds of then
depends on the body only, and not on the frame around it. -/
structure Unspecific (q : Answer sig → Prop) : Prop where
  op : ∀ o r, ofUow o = true → q (.op o r)
  savedTake : ∀ c a, q (.call (.savedTake c) a)
  savedClear : ∀ c a, q (.call (.savedClear c) a)

variable (hq : Unspecific q)

include hq

theorem sees_enter : Sees q Uow.enter := by
  refine sees_bind (sees_op fun r => hq.op _ r rfl) fun c => sees_tryCatch ?_ ?_
  · exact sees_bind (sees_op fun r => hq.op _ r rfl) fun _ => sees_ret c
  · exact fun e => sees_bind (sees_suppress (sees_op fun r => hq.op _ r rfl))
      fun _ => sees_throw e

theorem sees_exit (c : Nat) (e : Option Exc) : Sees q (Uow.exit c e) := by
  have hclose : Sees q (suppress (await (.close c))) :=
    sees_suppress (sees_op fun r => hq.op _ r rfl)
  have hrollback : Sees q (suppress (Uow.rollback c)) :=
    sees_suppress (sees_bind (sees_op fun r => hq.op _ r rfl) fun _ =>
      sees_sync fun a => hq.savedClear c a)
  show Sees q (if e.isSome then _ else _)
  split
  · exact sees_bind hrollback fun _ => hclose
  · exact hclose

theorem sees_commit (cfg : Settings) (c : Nat) : Sees q (Uow.commit cfg c) := by
  have hdispatch : ∀ es, Sees q (Uow.dispatch cfg es) := by
    intro es
    induction es with
    | nil => exact sees_ret ()
    | cons e es ih =>
      show Sees q (if cfg.webhooks then _ else _)
      split
      · exact sees_bind (sees_suppress (sees_op fun r => hq.op _ r rfl)) fun _ => ih
      · exact ih
  refine sees_bind (sees_op fun r => hq.op _ r rfl) fun _ => sees_suppress ?_
  exact sees_bind (sees_sync fun a => hq.savedTake c a) fun tasks =>
    sees_bind (hdispatch _) fun _ => sees_sync fun a => hq.savedClear c a

theorem sees_within {body : Nat → Prog α} (h : ∀ c, Sees q (body c)) :
    Sees q (Uow.within body) :=
  sees_asyncWith (sees_enter hq) h (sees_exit hq)

end

end Yascheduler
