import VersionMatrix.Request
import VersionMatrix.Proofs.Json.Form

/-! Requests and results in JSON: what is written of one is read as the same, whatever characters its
texts hold and whether or not it is valid. Every other form of it is read as it too. -/
namespace VersionMatrix

namespace RunRequest

variable {request : RunRequest} {json : Json}

theorem isProper_toJson (request : RunRequest) : request.toJson.IsProper := by
  simp [toJson]

def rows (request : RunRequest) : List (String × Json) :=
  [("version", .text request.version), ("project_name", .text request.projectName),
    ("source_path", .text request.sourcePath), ("image_name_template", .text request.imageNameTemplate),
    ("dockerfile_template", .text request.dockerfileTemplate), ("base_image", .text request.baseImage),
    ("test_command", .array (request.testCommand.map .text)), ("verbose", .bool request.verbose)]

def fields (request : RunRequest) : List Json.Field := request.rows.map .exact

/-- What is written of a request is one of its forms. -/
theorem isForm_toJson (request : RunRequest) : Json.IsForm request.fields request.toJson :=
  .of_lists (.exact request.rows)

/-- A request is read from each of its forms. -/
theorem ofJson?_of_isForm (form : Json.IsForm request.fields json) : ofJson? json = some request := by
  have distinct : fieldNames.Nodup := by decide
  have fields : json.fields? fieldNames = _ := form.fields?_eq distinct
  rw [ofJson?, fields]
  simp [rows, Json.required, Json.list?_map Json.text?_text]

theorem exists_fields? (read : ofJson? json = some request) : ∃ found, json.fields? fieldNames = some found := by
  obtain ⟨found, fields, -⟩ := Option.bind_eq_some_iff.1 read
  exact ⟨found, fields⟩

/-- A request is read from no misfit. -/
theorem ofJson?_eq_none (misfits : Json.Misfits fieldNames fieldNames json) : ofJson? json = none := by
  refine misfits.refused (fun _ => exists_fields?) fun found fields name asked missing => ?_
  rw [ofJson?, fields]
  simp only [fieldNames, List.mem_cons, List.not_mem_nil, or_false] at asked
  rcases asked with rfl | rfl | rfl | rfl | rfl | rfl | rfl | rfl <;>
    simp [fieldNames, Json.required, missing]

/-- A request that is written is read back. -/
theorem ofJson?_toJson (request : RunRequest) : ofJson? request.toJson = some request :=
  ofJson?_of_isForm request.isForm_toJson

/-- The text of a request is read as the request. -/
theorem ofJson?_render (request : RunRequest) :
    (Json.read? request.toJson.render).bind ofJson? = some request := by
  rw [Json.read?, Json.read_render request.isProper_toJson]
  exact ofJson?_toJson request

end RunRequest

namespace RunResult

variable {result : RunResult} {json : Json}

theorem isProper_toJson (result : RunResult) : result.toJson.IsProper := by
  simp [toJson]

def fieldNames : List String := ["version", "success", "output"]

def rows (result : RunResult) : List (String × Json) :=
  [("version", .text result.version), ("success", .bool result.success), ("output", .text result.output)]

def fields (result : RunResult) : List Json.Field := result.rows.map .exact

/-- What is written of a result is one of its forms. -/
theorem isForm_toJson (result : RunResult) : Json.IsForm result.fields result.toJson :=
  .of_lists (.exact result.rows)

/-- A result is read from each of its forms. -/
theorem ofJson?_of_isForm (form : Json.IsForm result.fields json) : ofJson? json = some result := by
  have distinct : fieldNames.Nodup := by decide
  have fields : json.fields? ["version", "success", "output"] = _ := form.fields?_eq distinct
  rw [ofJson?, fields]
  simp [rows, Json.required]

theorem exists_fields? (read : ofJson? json = some result) : ∃ found, json.fields? fieldNames = some found := by
  obtain ⟨found, fields, -⟩ := Option.bind_eq_some_iff.1 read
  exact ⟨found, fields⟩

/-- A result is read from no misfit. -/
theorem ofJson?_eq_none (misfits : Json.Misfits fieldNames fieldNames json) : ofJson? json = none := by
  refine misfits.refused (fun _ => exists_fields?) fun found fields name asked missing => ?_
  rw [fieldNames] at fields
  rw [ofJson?, fields]
  simp only [fieldNames, List.mem_cons, List.not_mem_nil, or_false] at asked
  rcases asked with rfl | rfl | rfl <;> simp [Json.required, missing]

/-- A result that is written is read back. -/
theorem ofJson?_toJson (result : RunResult) : ofJson? result.toJson = some result :=
  ofJson?_of_isForm result.isForm_toJson

/-- The text of a result is read as the result. -/
theorem ofJson?_render (result : RunResult) :
    (Json.read? result.toJson.render).bind ofJson? = some result := by
  rw [Json.read?, Json.read_render result.isProper_toJson]
  exact ofJson?_toJson result

end RunResult

/-- Requests and results are read as they were written, and what is read of any text is the same after it
has been written and read again. A request need not be valid for this. -/
theorem requests_and_results_read_back :
    (∀ request : RunRequest, (Json.read? request.toJson.render).bind RunRequest.ofJson? = some request) ∧
    (∀ result : RunResult, (Json.read? result.toJson.render).bind RunResult.ofJson? = some result) ∧
    (∀ text, ((Json.read? text).bind RunRequest.ofJson?).bind
        (fun request => (Json.read? request.toJson.render).bind RunRequest.ofJson?) =
      (Json.read? text).bind RunRequest.ofJson?) ∧
    (∀ text, ((Json.read? text).bind RunResult.ofJson?).bind
        (fun result => (Json.read? result.toJson.render).bind RunResult.ofJson?) =
      (Json.read? text).bind RunResult.ofJson?) ∧
    ∀ (request : RunRequest) (error : StageError), request.validate = .error error →
      (Json.read? request.toJson.render).bind RunRequest.ofJson? = some request := by
  refine ⟨RunRequest.ofJson?_render, RunResult.ofJson?_render, fun text => ?_, fun text => ?_,
    fun request _ _ => request.ofJson?_render⟩
  · simp only [RunRequest.ofJson?_render, Option.bind_fun_some]
  · simp only [RunResult.ofJson?_render, Option.bind_fun_some]

/-- A request without most of its fields, and with characters that need an escape in the others. -/
theorem requests_and_results_read_back_invalid :
    let request : RunRequest := { version := "1.0.0", testCommand := ["say", "\"\\\n\x00\u001f\u2028😀"] }
    request.validate = .error (.configuration (.missingField "project_name")) ∧
      (Json.read? request.toJson.render).bind RunRequest.ofJson? = some request := by
  intro request
  have invalid : request.validate = .error (.configuration (.missingField "project_name")) := by
    decide +kernel
  exact ⟨invalid, requests_and_results_read_back.2.2.2.2 request _ invalid⟩

end VersionMatrix
