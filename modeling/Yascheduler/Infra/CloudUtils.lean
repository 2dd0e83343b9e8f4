import Yascheduler.Async.Coroutine

/-!
# Names of cloud resources

Each provider gives what it creates a name of its own: the label of the
configuration and eight random letters. The letters are drawn by the process
that creates, so they are an answer to a call like any other, and whether two
names differ is for the outside world to say. It is the same function for all
providers, whatever vocabulary their code is written in.
-/

namespace Yascheduler

open Async

/-- **`get_rnd_name`**, with how the letters are drawn. -/
def getRndName {S : Sig} (letters : Co S String) (label : String) : Co S String := do
  return label ++ "-" ++ (← letters)

end Yascheduler
