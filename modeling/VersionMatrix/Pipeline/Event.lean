import VersionMatrix.Engine.Basic
import VersionMatrix.Stage

/-!
What a run lets others see: its states, its lines of output and its calls to the engine.
-/

namespace VersionMatrix

inductive RunEvent where
  | state (state : RunState)
  | line (text : String)
  | pull (reference : String)
  | build (tag : String) (context : BuildContext)
  | run (image : String) (command : List String)
  | remove (container : String)
deriving DecidableEq, Repr

namespace RunEvent

def state? : RunEvent → Option RunState
  | .state s => some s
  | _ => none

def line? : RunEvent → Option String
  | .line text => some text
  | _ => none

/-- Whether an event is a call to the engine. -/
def isCall : RunEvent → Bool
  | .state _ => false
  | .line _ => false
  | _ => true

end RunEvent

end VersionMatrix
