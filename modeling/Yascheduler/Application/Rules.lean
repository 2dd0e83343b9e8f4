import Yascheduler.Application.UnitOfWork
import Yascheduler.Async.Logic

/-!
# Rules for the error handling of the scheduler

The rules of the weakest precondition for `except Exception`, which lets a
cancellation through.

They are kept apart from the general rules because what `except Exception`
catches is a matter of the language and not of coroutines: a cancellation derives
from `BaseException`, and so do the errors that end the interpreter.
-/

namespace Yascheduler

open Async

variable {L α : Type} {P : Logic sig L} {I : L → Prop}

theorem wp_exceptException {x : Prog α} {h : Exc → Prog α}
    {Q : Except Exc α → L → Prop} :
    wp P (exceptException x h) Q =
      wp P x (onError (fun e => wp P (if e.isException then h e else raise e) Q) Q) :=
  wp_tryCatch

theorem keeps_exceptException {x : Prog α} {h : Exc → Prog α}
    (hx : Keeps P I x) (hh : ∀ e, Keeps P I (h e)) :
    Keeps P I (exceptException x h) := by
  refine keeps_tryCatch hx fun e => ?_
  by_cases he : e.isException
  · rw [if_pos he]
    exact hh e
  · rw [if_neg he]
    exact keeps_throw _

theorem keeps_suppress {x : Prog Unit} (hx : Keeps P I x) :
    Keeps P I (suppress x) :=
  keeps_exceptException hx fun _ => keeps_ret ()

end Yascheduler
