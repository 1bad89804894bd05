/-!
The stages of a run, and the states that a run reports.
-/

namespace VersionMatrix

inductive Stage where
  | validating
  | copying
  | templating
  | pulling
  | building
  | running
deriving DecidableEq, Repr

namespace Stage

def all : List Stage := [.validating, .copying, .templating, .pulling, .building, .running]

def name : Stage → String
  | .validating => "validating"
  | .copying => "copying"
  | .templating => "templating"
  | .pulling => "pulling"
  | .building => "building"
  | .running => "running"

def description : Stage → String
  | .validating => "Validating configuration"
  | .copying => "Copying project"
  | .templating => "Writing Dockerfile"
  | .pulling => "Pulling base image"
  | .building => "Building testing image"
  | .running => "Running application tests"

def ofName? (name : String) : Option Stage := all.find? (·.name == name)

/-- No two stages share a name. -/
theorem ofName?_name (stage : Stage) : ofName? stage.name = some stage := by
  cases stage <;> decide

end Stage

/-- What a run reports of itself. -/
inductive RunState where
  | pending
  | active (stage : Stage)
  | succeeded (success : Bool)
  | failed (stage : Stage) (message : String)
deriving DecidableEq, Repr

namespace RunState

def isTerminal : RunState → Bool
  | .succeeded _ => true
  | .failed .. => true
  | _ => false

def display : RunState → String
  | .pending => "Waiting"
  | .active stage => stage.description
  | .succeeded true => "Done running all the tests!"
  | .succeeded false => "Tests failed"
  | .failed stage message => "Something went wrong in " ++ stage.name ++ ": " ++ message

end RunState

end VersionMatrix
