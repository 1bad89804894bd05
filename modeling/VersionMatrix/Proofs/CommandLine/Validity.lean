import VersionMatrix.Proofs.CommandLine.Requests
import VersionMatrix.Proofs.Request

/-! Which requests of an invocation are valid. Only the one for the first version is checked, so a blank
version is refused or let through by its place among the others. -/
namespace VersionMatrix

/-- A template with a placeholder is not blank. -/
theorem isBlank_of_hasPlaceholder {template : String} (holds : hasPlaceholder template = true) :
    Text.isBlank template = false := by
  have dollar : '$' ∈ placeholder.toList := by decide
  rw [Text.isBlank, List.all_eq_false]
  exact ⟨'$', (Text.contains_iff.1 holds).subset dollar, by decide⟩

def requestFor (project : Project) (config : RunConfig) (template : String) (loud : Bool)
    (version : String) : RunRequest where
  version
  projectName := project.name
  sourcePath := project.root
  imageNameTemplate := project.imageNameTemplate
  dockerfileTemplate := template
  baseImage := config.baseImage
  testCommand := config.testCommand
  verbose := loud

/-- What all requests of an invocation have in common makes a valid request of each version that is not
blank. -/
structure Furnished (project : Project) (config : RunConfig) (template : String) : Prop where
  name : Text.isBlank project.name = false
  root : project.root ≠ ""
  imageName : hasPlaceholder project.imageNameTemplate = true
  template : hasPlaceholder template = true
  baseImage : Text.isBlank config.baseImage = false
  testCommand : config.testCommand ≠ []

variable {project : Project} {config : RunConfig} {template : String} {versions others : List String}
  {verbose : Bool} {requests : List RunRequest}

/-- Whether a request is valid hangs on its version, and on what all requests have in common. -/
theorem validate_requestFor_iff {loud : Bool} {version : String} :
    (requestFor project config template loud version).validate = .ok () ↔
      Text.isBlank version = false ∧ Furnished project config template := by
  rw [RunRequest.validate_eq_ok_iff, RunRequest.missingField?_eq_none_iff]
  constructor
  · rintro ⟨⟨proper, name, root, -, -, baseImage, testCommand⟩, imageName, template⟩
    exact ⟨proper, name, root, imageName, template, baseImage, testCommand⟩
  · rintro ⟨proper, name, root, imageName, template, baseImage, testCommand⟩
    exact ⟨⟨proper, name, root, isBlank_of_hasPlaceholder imageName,
      isBlank_of_hasPlaceholder template, baseImage, testCommand⟩, imageName, template⟩

/-- The requests are made for the versions in turn once the first of them has been checked. -/
theorem exists_requestsFor_cons (first : String) (rest : List String) :
    ∃ loud, requestsFor project config template (first :: rest) verbose =
      (requestFor project config template loud first).validate.map fun _ =>
        (first :: rest).eraseDups.map (requestFor project config template loud) := by
  refine ⟨verbose || (first :: rest).eraseDups.length == 1, ?_⟩
  rw [requestsFor, List.eraseDups_cons]
  simp only
  rw [requestFor]
  cases RunRequest.validate _ <;> rfl

/-- Requests are made unless the first version is blank or something that all of them need is missing. -/
theorem exists_requestsFor_iff :
    (∃ requests, requestsFor project config template versions verbose = .ok requests) ↔
      ∀ first, versions.head? = some first →
        Text.isBlank first = false ∧ Furnished project config template := by
  cases versions with
  | nil => exact iff_of_true ⟨[], rfl⟩ nofun
  | cons first rest =>
      obtain ⟨loud, made⟩ := @exists_requestsFor_cons project config template verbose first rest
      simp only [made, List.head?_cons, Option.some.injEq, forall_eq', ← @validate_requestFor_iff _ _ _ loud]
      cases (requestFor project config template loud first).validate <;> simp [Except.map]

/-- The requests that are made are one for each version, and all of them are valid but those for blank
versions. -/
theorem valid_of_requestsFor
    (made : requestsFor project config template versions verbose = .ok requests) :
    requests.map (·.version) = versions.eraseDups ∧
      ∀ request ∈ requests,
        (request.validate = .ok () ↔ Text.isBlank request.version = false) := by
  cases versions with
  | nil =>
      obtain rfl := Except.ok.inj made
      exact ⟨rfl, nofun⟩
  | cons first rest =>
      obtain ⟨-, furnished⟩ := exists_requestsFor_iff.1 ⟨requests, made⟩ first rfl
      obtain ⟨loud, same⟩ := @exists_requestsFor_cons project config template verbose first rest
      rw [same] at made
      cases checked : (requestFor project config template loud first).validate with
      | error error =>
          rw [checked] at made
          cases made
      | ok _ =>
          rw [checked] at made
          obtain rfl := Except.ok.inj made
          refine ⟨?_, fun request member => ?_⟩
          · rw [List.map_map]
            exact List.map_id _
          · obtain ⟨version, -, rfl⟩ := List.mem_map.1 member
            rw [validate_requestFor_iff]
            exact and_iff_left furnished

/-- A request is made for each version that was asked for, and for no other. -/
theorem mem_versions_of_requestsFor
    (made : requestsFor project config template versions verbose = .ok requests) {version : String} :
    version ∈ versions ↔ ∃ request ∈ requests, request.version = version := by
  rw [← List.mem_eraseDups, ← (valid_of_requestsFor made).1, List.mem_map]

/-- Versions of which none is blank or all are cannot be told apart by that. -/
theorem alike_of_uniform (uniform : (∀ version ∈ versions, Text.isBlank version = false) ∨
      ∀ version ∈ versions, Text.isBlank version = true) :
    ∀ first ∈ versions, ∀ second ∈ versions, Text.isBlank first = Text.isBlank second := by
  intro first member second member'
  rcases uniform with filled | blank
  · rw [filled first member, filled second member']
  · rw [blank first member, blank second member']

section

variable (alike : Furnished project config template →
  ∀ first ∈ versions, ∀ second ∈ versions, Text.isBlank first = Text.isBlank second)

include alike

/-- Where only versions that are not blank are asked for, their order does not decide whether there
are requests. -/
theorem exists_requestsFor_of_perm (reordered : others.Perm versions)
    (prepared : ∃ requests, requestsFor project config template versions verbose = .ok requests) :
    ∃ requests, requestsFor project config template others verbose = .ok requests := by
  refine exists_requestsFor_iff.2 fun first atHead => ?_
  have member := reordered.mem_iff.1 (List.mem_of_mem_head? atHead)
  cases versions with
  | nil => exact absurd member List.not_mem_nil
  | cons first' rest =>
      obtain ⟨filled, furnished⟩ := exists_requestsFor_iff.1 prepared first' rfl
      exact ⟨(alike furnished first member first' List.mem_cons_self).trans filled, furnished⟩

theorem valid_of_alike
    (made : requestsFor project config template versions verbose = .ok requests) :
    ∀ request ∈ requests, request.validate = .ok () := by
  intro request asked
  have member := (mem_versions_of_requestsFor made).2 ⟨request, asked, rfl⟩
  refine ((valid_of_requestsFor made).2 request asked).2 ?_
  cases versions with
  | nil => exact absurd member List.not_mem_nil
  | cons first rest =>
      obtain ⟨filled, furnished⟩ := exists_requestsFor_iff.1 ⟨requests, made⟩ first rfl
      exact (alike furnished _ member first List.mem_cons_self).trans filled

end

/-- In every order of the versions requests are made or are not, as in this one, and those that are made
are valid. -/
def Steady (project : Project) (config : RunConfig) (template : String) (versions : List String)
    (verbose : Bool) : Prop :=
  ∀ others, others.Perm versions →
    ((∃ requests, requestsFor project config template others verbose = .ok requests) ↔
      ∃ requests, requestsFor project config template versions verbose = .ok requests) ∧
    ∀ requests, requestsFor project config template others verbose = .ok requests →
      ∀ request ∈ requests, request.validate = .ok ()

/-- Among versions of which some are blank and some are not, a blank one gets a request that is not valid
as soon as another comes first. -/
theorem not_steady_of_blank (furnished : Furnished project config template) {blank proper : String}
    (member : blank ∈ versions) (isBlank : Text.isBlank blank = true) (member' : proper ∈ versions)
    (filled : Text.isBlank proper = false) : ¬Steady project config template versions verbose := by
  intro steady
  obtain ⟨-, valid⟩ := steady _ (List.perm_cons_erase member').symm
  obtain ⟨requests, made⟩ :=
    (@exists_requestsFor_iff project config template (proper :: versions.erase proper) verbose).2
      fun first same => Option.some.inj same ▸ ⟨filled, furnished⟩
  have kept : blank ∈ proper :: versions.erase proper :=
    (List.perm_cons_erase member').mem_iff.1 member
  obtain ⟨request, asked, rfl⟩ := (mem_versions_of_requestsFor made).1 kept
  have proper' := ((valid_of_requestsFor made).2 request asked).1 (valid requests made request asked)
  rw [isBlank] at proper'
  cases proper'

/-- When the requests of an invocation are valid. They are made unless the first version is blank or
something that all of them need is missing, and are then valid but for the blank versions. So the requests
that are made are valid in every order of the versions, and whether they are made does not depend on the
order, exactly if something is missing for all of them or the versions are all blank or none is. -/
theorem requestsFor_steady_iff (project : Project) (config : RunConfig) (template : String)
    (versions : List String) (verbose : Bool) :
    ((∃ requests, requestsFor project config template versions verbose = .ok requests) ↔
      ∀ first, versions.head? = some first →
        Text.isBlank first = false ∧ Furnished project config template) ∧
    (∀ requests, requestsFor project config template versions verbose = .ok requests →
      requests.map (·.version) = versions.eraseDups ∧
        ∀ request ∈ requests,
          (request.validate = .ok () ↔ Text.isBlank request.version = false)) ∧
    (Steady project config template versions verbose ↔
      (Furnished project config template → (∀ version ∈ versions, Text.isBlank version = false) ∨
        ∀ version ∈ versions, Text.isBlank version = true)) := by
  refine ⟨exists_requestsFor_iff, fun _ => valid_of_requestsFor, fun steady furnished => ?_,
    fun uniform others reordered => ?_⟩
  · by_contra mixed
    simp only [not_or, not_forall, Bool.not_eq_false, Bool.not_eq_true] at mixed
    obtain ⟨⟨blank, member, isBlank⟩, proper, member', filled⟩ := mixed
    exact not_steady_of_blank furnished member isBlank member' filled steady
  · have alike := fun furnished => alike_of_uniform (uniform furnished)
    have alike' := fun furnished first member second member' =>
      alike furnished first (reordered.mem_iff.1 member) second (reordered.mem_iff.1 member')
    exact ⟨⟨exists_requestsFor_of_perm alike' reordered.symm, exists_requestsFor_of_perm alike reordered⟩,
      fun _ => valid_of_alike alike'⟩

/-- A blank version is refused when it comes first, and after another it gets a request without a
version. -/
theorem exists_requestsFor_invalid :
    let project : Project := { root := "/proj", name := "p", revision := "r" }
    let config : RunConfig := { concurrency := 1, stagingRoot := "/s" }
    let template := "FROM b:$VERSION"
    config.validate = .ok () ∧ [" ", "1"].Perm ["1", " "] ∧
      requestsFor project config template [" ", "1"] false =
        .error (.configuration (.missingField "version")) ∧
      ∃ first second, requestsFor project config template ["1", " "] false = .ok [first, second] ∧
        first.validate = .ok () ∧
        second.validate = .error (.configuration (.missingField "version")) := by
  refine ⟨by decide, by decide, by decide +kernel, _, _, by rfl, ?_, ?_⟩
  · decide +kernel
  · decide +kernel

end VersionMatrix
