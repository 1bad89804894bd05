import VersionMatrix.Display.Tone

/-!
Progress as lines that are only ever added.
-/

namespace VersionMatrix.ProgressLines

/-- The line for a state. A version that waits is not worth one. -/
def state (colors : Bool) (version : String) : RunState → String
  | .pending => ""
  | state => (Tone.ofState state).paint (version ++ "\t| " ++ state.display) colors ++ "\n"

def output (version line : String) : String := version ++ "\t| " ++ line ++ "\n"

end VersionMatrix.ProgressLines
