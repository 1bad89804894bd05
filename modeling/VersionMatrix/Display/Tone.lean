import VersionMatrix.Stage

/-!
Colours of terminal text.
-/

namespace VersionMatrix

inductive Tone where
  | plain
  | green
  | red
  | yellow
  | blue
deriving DecidableEq, Repr

namespace Tone

def code? : Tone → Option String
  | plain => none
  | green => some "\x1b[32m"
  | red => some "\x1b[31m"
  | yellow => some "\x1b[33m"
  | blue => some "\x1b[34m"

def reset : String := "\x1b[0m"

def paint (tone : Tone) (text : String) (enabled : Bool) : String :=
  match tone.code? with
  | some code => if enabled then code ++ text ++ reset else text
  | none => text

def ofState : RunState → Tone
  | .pending => .plain
  | .active _ => .yellow
  | .succeeded true => .green
  | .succeeded false => .red
  | .failed .. => .red

end Tone

end VersionMatrix
