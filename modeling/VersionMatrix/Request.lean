import VersionMatrix.Error
import VersionMatrix.Json.Record
import VersionMatrix.Json.Writer
import VersionMatrix.Staging.Template
import VersionMatrix.Text.Blank

/-!
Requests to test one version, their results, and the JSON form of both.
-/

namespace VersionMatrix

structure RunRequest where
  version : String := ""
  projectName : String := ""
  sourcePath : String := ""
  imageNameTemplate : String := ""
  dockerfileTemplate : String := ""
  baseImage : String := ""
  testCommand : List String := []
  verbose : Bool := false
deriving DecidableEq, Repr

namespace RunRequest

/-- The first required field that is missing: a blank text, an empty path or an empty command. -/
def missingField? (request : RunRequest) : Option String :=
  if Text.isBlank request.version then some "version"
  else if Text.isBlank request.projectName then some "project_name"
  else if request.sourcePath = "" then some "source_path"
  else if Text.isBlank request.imageNameTemplate then some "image_name_template"
  else if Text.isBlank request.dockerfileTemplate then some "dockerfile_template"
  else if Text.isBlank request.baseImage then some "base_image"
  else if request.testCommand = [] then some "test_command"
  else none

def validate (request : RunRequest) : Except StageError Unit :=
  match request.missingField? with
  | some field => .error (.configuration (.missingField field))
  | none =>
    if !hasPlaceholder request.imageNameTemplate then
      .error (.configuration (.missingPlaceholder "image_name_template"))
    else if !hasPlaceholder request.dockerfileTemplate then
      .error (.configuration (.missingPlaceholder "dockerfile_template"))
    else .ok ()

def forVersion (request : RunRequest) (version : String) : RunRequest :=
  { request with version }

/-- The names of the fields in JSON, in the order they are written. -/
def fieldNames : List String :=
  ["version", "project_name", "source_path", "image_name_template", "dockerfile_template",
    "base_image", "test_command", "verbose"]

def toJson (request : RunRequest) : Json :=
  .record
    [("version", .text request.version), ("project_name", .text request.projectName),
      ("source_path", .text request.sourcePath),
      ("image_name_template", .text request.imageNameTemplate),
      ("dockerfile_template", .text request.dockerfileTemplate),
      ("base_image", .text request.baseImage),
      ("test_command", .array (request.testCommand.map .text)), ("verbose", .bool request.verbose)]

/-- The request of a JSON value. It is not validated. -/
def ofJson? (json : Json) : Option RunRequest := do
  let [version, projectName, sourcePath, imageName, dockerfile, baseImage, command, verbose] ←
    json.fields? fieldNames | none
  return {
    version := ← Json.required Json.text? version
    projectName := ← Json.required Json.text? projectName
    sourcePath := ← Json.required Json.text? sourcePath
    imageNameTemplate := ← Json.required Json.text? imageName
    dockerfileTemplate := ← Json.required Json.text? dockerfile
    baseImage := ← Json.required Json.text? baseImage
    testCommand := ← Json.required (Json.list? Json.text?) command
    verbose := ← Json.required Json.bool? verbose }

end RunRequest

structure RunResult where
  version : String
  success : Bool
  output : String
deriving DecidableEq, Repr

namespace RunResult

def toJson (result : RunResult) : Json :=
  .record
    [("version", .text result.version), ("success", .bool result.success),
      ("output", .text result.output)]

def ofJson? (json : Json) : Option RunResult := do
  let [version, success, output] ← json.fields? ["version", "success", "output"] | none
  return {
    version := ← Json.required Json.text? version
    success := ← Json.required Json.bool? success
    output := ← Json.required Json.text? output }

end RunResult

/-- How a run settled: with a verdict, or with the stage that broke. -/
abbrev RunOutcome := Except RunError RunResult

end VersionMatrix
