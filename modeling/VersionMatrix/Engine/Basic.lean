import VersionMatrix.Error
import VersionMatrix.Staging.Context

/-!
The container engine as a run sees it: four operations and what they answer.
-/

namespace VersionMatrix

/-- A progress record of a pull or a build. A record may carry any of its parts. -/
structure EngineEvent where
  status : Option String := none
  id : Option String := none
  log : Option String := none
  error : Option String := none
deriving DecidableEq, Repr

/-- The records of a pull or build in their order. An error breaks the stream at its place. -/
abbrev EventStream := List (Except EngineError EngineEvent)

/-- A container that ran to its end. -/
structure ContainerExit where
  exitCode : Int
  container : String
deriving DecidableEq, Repr

/-- What running a container yields: the chunks of its output, and how it came to an end. -/
structure ContainerRun where
  chunks : List String := []
  outcome : Except EngineError ContainerExit

/-- An answer that comes after some milliseconds. -/
structure Reply (α : Type) where
  delay : Nat := 0
  answer : α

/-- A container engine. The answer to a call depends on its arguments alone. -/
structure Engine where
  pull : (reference : String) → Reply (Except EngineError EventStream)
  build : BuildContext → (tag : String) → Reply (Except EngineError EventStream)
  run : (image : String) → (command : List String) → Reply ContainerRun
  remove : (container : String) → Except EngineError Unit

end VersionMatrix
