import VersionMatrix.Request
import VersionMatrix.Time.Rfc3339

/-!
The report over all versions of an invocation, and its JSON form.
-/

namespace VersionMatrix

namespace Stage

def toJson (stage : Stage) : Json := .text stage.name

/-- The stage of a JSON value: its name, or an object with the name as its only key and null. -/
def ofJson? : Json → Option Stage
  | .string (some name) => ofName? name
  | .object [(some name, .null)] => ofName? name
  | _ => none

end Stage

/-- A version that did not pass: its tests failed, or a stage broke. -/
structure FailedVersion where
  version : String
  output : String
  stage : Option Stage
deriving DecidableEq, Repr

namespace FailedVersion

def toJson (failed : FailedVersion) : Json :=
  .record
    [("version", .text failed.version), ("output", .text failed.output),
      ("stage", match failed.stage with | some stage => stage.toJson | none => .null)]

def ofJson? (json : Json) : Option FailedVersion := do
  let [version, output, stage] ← json.fields? ["version", "output", "stage"] | none
  return {
    version := ← Json.required Json.text? version
    output := ← Json.required Json.text? output
    stage := ← Json.omissible Stage.ofJson? stage }

end FailedVersion

structure Report where
  total : Nat
  passed : List String
  failed : List FailedVersion
  startedAt : Instant
  finishedAt : Instant
deriving DecidableEq, Repr

namespace Report

def passed? : RunOutcome → Option String
  | .ok result => if result.success then some result.version else none
  | .error _ => none

/-- The failure of an outcome that did not pass, with the test output or the stage and its error. -/
def failed? : RunOutcome → Option FailedVersion
  | .ok result =>
    if result.success then none
    else some { version := result.version, output := result.output, stage := none }
  | .error error =>
    some { version := error.version, output := error.source.message, stage := some error.stage }

/-- Sorts outcomes into those that passed and the others, each in their order. -/
def ofOutcomes (outcomes : List RunOutcome) (startedAt finishedAt : Instant) : Report where
  total := outcomes.length
  passed := outcomes.filterMap passed?
  failed := outcomes.filterMap failed?
  startedAt := startedAt
  finishedAt := finishedAt

def successes (report : Report) : Nat := report.passed.length

def failures (report : Report) : Nat := report.failed.length

def allPassed (report : Report) : Bool := report.failed.isEmpty

def milliseconds (report : Report) : Int :=
  report.startedAt.elapsedMilliseconds report.finishedAt

def toJson (report : Report) : Json :=
  .record
    [("total", .nat report.total), ("passed", .array (report.passed.map .text)),
      ("failed", .array (report.failed.map FailedVersion.toJson)),
      ("started_at", .text report.startedAt.write), ("finished_at", .text report.finishedAt.write)]

def instant? (json : Json) : Option Instant := json.text?.bind Instant.read?

def ofJson? (json : Json) : Option Report := do
  let [total, passed, failed, startedAt, finishedAt] ←
    json.fields? ["total", "passed", "failed", "started_at", "finished_at"] | none
  return {
    total := ← Json.required Json.word? total
    passed := ← Json.required (Json.list? Json.text?) passed
    failed := ← Json.required (Json.list? FailedVersion.ofJson?) failed
    startedAt := ← Json.required instant? startedAt
    finishedAt := ← Json.required instant? finishedAt }

end Report

end VersionMatrix
