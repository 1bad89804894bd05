import VersionMatrix.Request

/-! What a request needs to be valid. -/
namespace VersionMatrix.RunRequest

variable {request : RunRequest}

/-- A request is valid if nothing is missing and both templates have a place for the version. -/
theorem validate_eq_ok_iff :
    request.validate = .ok () ↔
      request.missingField? = none ∧ hasPlaceholder request.imageNameTemplate = true ∧
        hasPlaceholder request.dockerfileTemplate = true := by
  unfold validate
  cases request.missingField? with
  | some field => simp
  | none =>
      cases hasPlaceholder request.imageNameTemplate <;>
        cases hasPlaceholder request.dockerfileTemplate <;> simp

/-- What must be there for nothing to be missing. -/
theorem missingField?_eq_none_iff :
    request.missingField? = none ↔
      Text.isBlank request.version = false ∧ Text.isBlank request.projectName = false ∧
        request.sourcePath ≠ "" ∧ Text.isBlank request.imageNameTemplate = false ∧
        Text.isBlank request.dockerfileTemplate = false ∧ Text.isBlank request.baseImage = false ∧
        request.testCommand ≠ [] := by
  have step : ∀ {missing : Prop} [Decidable missing] {field : String} {others : Option String},
      (if missing then some field else others) = none ↔ ¬missing ∧ others = none := by
    intro missing _ field others
    split
    next holds => simp [holds]
    next fails => simp [fails]
  simp only [missingField?, step, Bool.not_eq_true, and_true]

/-- Of a valid request nothing but a blank version makes an invalid one. -/
theorem validate_forVersion (valid : request.validate = .ok ()) {version : String}
    (proper : Text.isBlank version = false) : (request.forVersion version).validate = .ok () := by
  obtain ⟨nothing, placeholders⟩ := validate_eq_ok_iff.1 valid
  obtain ⟨-, others⟩ := missingField?_eq_none_iff.1 nothing
  exact validate_eq_ok_iff.2 ⟨missingField?_eq_none_iff.2 ⟨proper, others⟩, placeholders⟩

end VersionMatrix.RunRequest
