import VersionMatrix.Proofs.CommandLine.Configuration
import VersionMatrix.Proofs.CommandLine.Validity
import VersionMatrix.Proofs.Project.ImageName
import VersionMatrix.Proofs.Run.Refusal

/-! The requests of an invocation that is configured: each version is tested once, with a valid request
and under an image name of its own. -/
namespace VersionMatrix

open Job

variable {project : Project} {config : RunConfig} {template : String} {versions : List String}
  {request : RunRequest} {requests : List RunRequest}

/-- A list comes down to one element without its repetitions exactly if all of its elements are the
same. -/
theorem length_eraseDups_eq_one_iff {list : List String} {element : String} (member : element ∈ list) :
    list.eraseDups.length = 1 ↔ ∀ other ∈ list, other = element := by
  constructor
  · intro single other member'
    obtain ⟨only, same⟩ := List.length_eq_one_iff.1 single
    rw [← List.mem_eraseDups, same, List.mem_singleton] at member member'
    rw [member, member']
  · intro same
    have repeated := List.eq_replicate_of_mem fun other member' =>
      same other (List.mem_eraseDups.1 member')
    have once := nodup_eraseDups list
    rw [repeated, List.nodup_replicate] at once
    have filled := List.length_pos_of_mem (List.mem_eraseDups.2 member)
    exact Nat.le_antisymm once filled

/-- A base image is trimmed wherever it comes from, so that the check for an empty one lets no blank one
through. -/
theorem RunConfig.filled_of_resolve {concurrency : Nat} {stagingRoot : String}
    {environment : Environment} {arguments : RunArguments}
    (resolved : RunConfig.resolve { concurrency, stagingRoot } environment arguments = .ok config) :
    Text.isBlank config.baseImage = false ∧ config.testCommand ≠ [] := by
  obtain ⟨-, ⟨filled, trimmed⟩, testCommand, -⟩ :=
    (RunConfig.tidy_initial concurrency stagingRoot).usable_of_resolve resolved
  exact ⟨trimmed.isBlank_eq_false filled, testCommand⟩

/-- A request that is valid has a version to put into its image name. -/
theorem imageName_of_validate (valid : request.validate = .ok ()) :
    imageName request =
      substituteVersion request.imageNameTemplate request.version "image name" := by
  rw [imageName, valid]
  rfl

/-- Valid requests that differ in nothing but their versions have images that differ too. -/
theorem version_eq_of_imageName {other : RunRequest} (valid : request.validate = .ok ())
    (valid' : other.validate = .ok ()) (alike : request.imageNameTemplate = other.imageNameTemplate)
    (same : imageName request = imageName other) : request.version = other.version := by
  obtain ⟨image, named⟩ := exists_imageName_iff.2 valid
  have named' := same.symm.trans named
  rw [imageName_of_validate valid, alike] at named
  rw [imageName_of_validate valid'] at named'
  exact version_eq_of_substituteVersion named named'

/-- Requests that differ in nothing but their versions have different image names, since the
placeholder is there to be replaced. -/
theorem nodup_imageName (distinct : (requests.map (·.version)).Nodup)
    (valid : ∀ request ∈ requests, request.validate = .ok ())
    (alike : ∀ request ∈ requests, ∀ other ∈ requests,
      other = { request with version := other.version }) : (requests.map imageName).Nodup := by
  refine List.pairwise_map.2 ((List.pairwise_map.1 distinct).imp_of_mem ?_)
  intro first second member member' differ same
  refine differ (version_eq_of_imageName (valid first member) (valid second member') ?_ same)
  rw [alike first member second member']

/-- The requests of an invocation that is configured, for versions none of which is blank. There is one
for each version that is given, however often it is, in the order in which the versions are first
given. All of them are valid and differ in nothing but the version, they are verbose if that was asked
for or there is only one version, and each has an image name of its own. -/
theorem requestsFor_configured {concurrency : Nat} {stagingRoot : String} {environment : Environment}
    {arguments : RunArguments} (named : Text.isBlank project.name = false) (rooted : project.root ≠ "")
    (resolved : RunConfig.resolve { concurrency, stagingRoot } environment arguments = .ok config)
    (holds : hasPlaceholder template = true)
    (filled : ∀ version ∈ versions, Text.isBlank version = false) (verbose : Bool) :
    ∃ requests, requestsFor project config template versions verbose = .ok requests ∧
      (requests.map (·.version)).Nodup ∧
      (∀ version, version ∈ requests.map (·.version) ↔ version ∈ versions) ∧
      ((requests.map (·.version)).Pairwise fun first second =>
        versions.idxOf first < versions.idxOf second) ∧
      (∀ request ∈ requests, request.validate = .ok ()) ∧
      (∀ request ∈ requests, ∀ other ∈ requests, other = { request with version := other.version }) ∧
      (∀ request ∈ requests, request.verbose = true ↔
        verbose = true ∨ ∀ version ∈ versions, version = request.version) ∧
      (∀ request ∈ requests, ∃ image, imageName request = .ok image) ∧
      (requests.map imageName).Nodup := by
  obtain ⟨baseImage, testCommand⟩ := RunConfig.filled_of_resolve resolved
  have furnished : Furnished project config template :=
    ⟨named, rooted, Project.hasPlaceholder_imageNameTemplate project, holds, baseImage, testCommand⟩
  obtain ⟨requests, made⟩ := (@exists_requestsFor_iff project config template versions verbose).2
    fun first atHead => ⟨filled first (List.mem_of_mem_head? atHead), furnished⟩
  obtain ⟨listed, valid⟩ := valid_of_requestsFor made
  have members (version : String) : version ∈ requests.map (·.version) ↔ version ∈ versions := by
    rw [listed, List.mem_eraseDups]
  have valid (request) (member : request ∈ requests) : request.validate = .ok () :=
    (valid request member).2 (filled _ ((members _).1 (List.mem_map_of_mem member)))
  have distinct : (requests.map (·.version)).Nodup := listed ▸ nodup_eraseDups versions
  obtain ⟨model, copies, loud, -⟩ := exists_model_of_requestsFor made
  have modelled (request) (member : request ∈ requests) :
      request = model.forVersion request.version := by
    obtain ⟨version, -, rfl⟩ := List.mem_map.1 (copies ▸ member)
    rfl
  have alike (request) (member : request ∈ requests) (other) (member' : other ∈ requests) :
      other = { request with version := other.version } := by
    rw [modelled request member, modelled other member']
    rfl
  refine ⟨requests, made, distinct, members, listed ▸ pairwise_eraseDups versions, valid, alike,
    fun request member => ?_, fun request member => exists_imageName_iff.2 (valid request member),
    nodup_imageName distinct valid alike⟩
  have given := (members _).1 (List.mem_map_of_mem member)
  rw [modelled request member]
  simp only [RunRequest.forVersion, loud, Bool.or_eq_true, beq_iff_eq,
    length_eraseDups_eq_one_iff given]

/-- An environment and an argument between them configure two versions, one of which is given twice. -/
theorem requestsFor_configured_twice :
    let project : Project := { root := "/src/app", name := "@scope/app", revision := "abc" }
    let config : RunConfig :=
      { concurrency := 8, baseImage := "golang", testCommand := ["make", "check"], stagingRoot := "/s" }
    let versions := ["4.2.4", "5.0.0", "4.2.4"]
    RunConfig.resolve { concurrency := 8, stagingRoot := "/s" }
        [("AUTOCHECKER_BASE_IMAGE", " golang ")] { testCommand := some "make check" } = .ok config ∧
      hasPlaceholder "FROM x:$VERSION" = true ∧
      (∀ version ∈ versions, Text.isBlank version = false) ∧
      ∃ requests, requestsFor project config "FROM x:$VERSION" versions false = .ok requests ∧
        (requests.map (·.version)).Nodup ∧ "4.2.4" ∈ requests.map (·.version) ∧
        "5.0.0" ∈ requests.map (·.version) ∧ (∀ request ∈ requests, request.validate = .ok ()) ∧
        (requests.map imageName).Nodup := by
  intro project config versions
  have resolved : RunConfig.resolve { concurrency := 8, stagingRoot := "/s" }
      [("AUTOCHECKER_BASE_IMAGE", " golang ")] { testCommand := some "make check" } = .ok config := by
    decide +kernel
  have holds : hasPlaceholder "FROM x:$VERSION" = true := by decide
  have filled : ∀ version ∈ versions, Text.isBlank version = false := by decide
  obtain ⟨requests, made, distinct, members, -, valid, -, -, -, images⟩ :=
    @requestsFor_configured project config _ versions 8 "/s" _ _ (by decide) (by decide) resolved holds
      filled false
  exact ⟨resolved, holds, filled, requests, made, distinct, (members _).2 (by decide),
    (members _).2 (by decide), valid, images⟩

end VersionMatrix
