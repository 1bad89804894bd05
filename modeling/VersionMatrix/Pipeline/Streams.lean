import VersionMatrix.Engine.Basic
import VersionMatrix.Text.Blank

/-!
What the progress streams of the engine mean for a run: the lines to show, and whether the stage
succeeds.
-/

namespace VersionMatrix

/-- What was read from a stream: the lines to show, and the result. -/
abbrev StreamReading := List String × Except StageError Unit

/-- The text for a record of a pull. The phases that are reported over and over show nothing. -/
def pullLine? (event : EngineEvent) : Option String :=
  match event.status with
  | none => none
  | some status =>
    if status = "Downloading" ∨ status = "Extracting" then none
    else
      match event.id with
      | some id => some (id ++ ": " ++ status)
      | none => some status

def readPull : EventStream → StreamReading
  | [] => ([], .ok ())
  | .error error :: _ => ([], .error (.engine error))
  | .ok event :: rest =>
    let (lines, result) := readPull rest
    ((pullLine? event).toList ++ lines, result)

def buildLines (event : EngineEvent) : List String :=
  match event.log with
  | none => []
  | some log => (Text.lines log).filter fun line => !Text.isBlank line

/-- Reads a build stream up to its end or to where it breaks. A record with an error fails the
build but does not stop the reading; of several errors the last one counts. -/
def readBuildFrom (lastError : Option String) : EventStream → StreamReading
  | [] =>
    match lastError with
    | some text => ([], .error (.brokenBuild text))
    | none => ([], .ok ())
  | .error error :: _ => ([], .error (.engine error))
  | .ok event :: rest =>
    let (lines, result) := readBuildFrom (event.error.or lastError) rest
    (buildLines event ++ lines, result)

def readBuild (stream : EventStream) : StreamReading := readBuildFrom none stream

end VersionMatrix
