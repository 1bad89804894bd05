import VersionMatrix.Proofs.CommandLine.Batch
import VersionMatrix.Proofs.Text.Trim
import VersionMatrix.Project.Basic

/-! What a project is called. Of three names the first that there is counts: that of the package manifest,
that of the crate manifest and that of the directory. Only the first is passed over if it is blank, so a
blank name may come from the others, and then no request of an invocation is made. The revision is as the
version control program has it, of which nothing is assumed. -/
namespace VersionMatrix

/-- Whatever the version control program answers, and if it cannot be run, the revision is a label without
white space around it and not empty. -/
theorem Git.isTrimmed_revision (git : Git) (disk : Disk) (root : String) :
    Text.IsTrimmed (git.revision disk root) ∧ git.revision disk root ≠ "" := by
  have usual : Text.IsTrimmed fallback ∧ fallback ≠ "" :=
    ⟨⟨by rintro _ ⟨⟩; rfl, by rintro _ ⟨⟩; rfl⟩, by decide⟩
  unfold revision
  rcases git disk (question root) with _ | ⟨_ | _, output⟩
  · exact usual
  · exact usual
  · dsimp only
    split
    next => exact usual
    next filled => exact ⟨Text.isTrimmed_trim _, filled⟩

namespace Project

variable {git : Git} {disk : Disk} {root name : String} {project : Project} {config : RunConfig}
  {template : String} {versions : List String} {verbose : Bool}

/-- The text of a file, if there is one that can be read. -/
def contents? (disk : Disk) (path : String) : Option String := (readOptional disk path).toOption.join

/-- The name that the package manifest of a project gives, if it gives one that is not blank. -/
def packageName? (disk : Disk) (root : String) : Option String :=
  ((contents? disk (Path.join root "package.json")).bind Manifest.packageName?).join.filter fun name =>
    !Text.isBlank name

def crateName? (disk : Disk) (root : String) : Option String :=
  (contents? disk (Path.join root "Cargo.toml")).bind Manifest.crateName?

/-- What a project is called once its package manifest has been passed over. -/
def laterName (disk : Disk) (root : String) : Except ProjectError String := do
  if let some text := ← readOptional disk (Path.join root "Cargo.toml") then
    if let some name := Manifest.crateName? text then return name
  return directoryName disk root

/-- Without the package manifest the crate manifest and the directory are left, in this order. -/
theorem name_of_laterName (found : laterName disk root = .ok name) :
    name = (crateName? disk root).getD (directoryName disk root) := by
  obtain ⟨text?, stands, rest⟩ := exists_of_bind_eq_ok found
  rw [crateName?, contents?, stands]
  cases text? with
  | none => exact (Except.ok.inj rest).symm
  | some text =>
      simp only [Except.toOption, Option.join_some, Option.bind_some]
      cases given : Manifest.crateName? text with
      | none =>
          simp only [given] at rest
          exact (Except.ok.inj rest).symm
      | some other =>
          simp only [given] at rest
          exact (Except.ok.inj rest).symm

/-- A name that is found is the first that there is. -/
theorem name_of_findName (found : findName disk root = .ok name) :
    name = (packageName? disk root).getD ((crateName? disk root).getD (directoryName disk root)) := by
  obtain ⟨text?, stands, rest⟩ := exists_of_bind_eq_ok found
  rw [packageName?, contents?, stands]
  cases text? with
  | none => exact name_of_laterName rest
  | some text =>
      simp only [Except.toOption, Option.join_some, Option.bind_some]
      rcases given : Manifest.packageName? text with _ | _ | other
      · simp only [given] at rest
        cases rest
      · simp only [given] at rest
        exact name_of_laterName rest
      · simp only [given] at rest
        rw [Option.join_some, Option.filter_some]
        cases blank : Text.isBlank other with
        | true =>
            simp only [blank, Bool.not_true, Bool.false_eq_true, if_false] at rest ⊢
            exact name_of_laterName rest
        | false =>
            simp only [blank, Bool.not_false, if_true] at rest ⊢
            exact (Except.ok.inj rest).symm

/-- The name of the package manifest is never blank. -/
theorem isBlank_of_packageName? (given : packageName? disk root = some name) :
    Text.isBlank name = false := by
  simpa using (Option.filter_eq_some_iff.1 given).2

/-- A project is found at a directory that has a name, and the version control program is asked there. -/
theorem of_discover (found : discover git disk root = .ok project) :
    disk.isDirectory root = true ∧ findName disk root = .ok project.name ∧ project.root = root ∧
      project.revision = git.revision disk root := by
  unfold discover at found
  cases stands : disk.isDirectory root with
  | false =>
      rw [stands] at found
      cases found
  | true =>
      rw [stands] at found
      obtain ⟨name, named, same⟩ := exists_of_bind_eq_ok found
      obtain rfl := Except.ok.inj same
      exact ⟨rfl, named, rfl, rfl⟩

/-- An empty path leads to no directory. -/
theorem root_ne_empty_of_discover (found : discover git disk root = .ok project) :
    project.root ≠ "" := by
  obtain ⟨stands, -, same, -⟩ := of_discover found
  rintro empty
  rw [← same, empty] at stands
  cases stands

/-- A request is refused for want of a field if that is the first one that is missing. -/
theorem validate_eq_missingField_iff {request : RunRequest} {field : String} :
    request.validate = .error (.configuration (.missingField field)) ↔
      request.missingField? = some field := by
  unfold RunRequest.validate
  cases request.missingField? with
  | some other => simp
  | none =>
      cases hasPlaceholder request.imageNameTemplate <;>
        cases hasPlaceholder request.dockerfileTemplate <;> simp

/-- The name is the first thing that is missing if it is blank and the version is not. -/
theorem missingField?_eq_projectName_iff {request : RunRequest}
    (proper : Text.isBlank request.version = false) :
    request.missingField? = some "project_name" ↔ Text.isBlank request.projectName = true := by
  unfold RunRequest.missingField?
  rw [proper, if_neg Bool.false_ne_true]
  cases Text.isBlank request.projectName with
  | true => simp
  | false =>
      refine iff_of_false ?_ Bool.false_ne_true
      rw [if_neg Bool.false_ne_true]
      repeat' split
      all_goals decide

/-- The requests of an invocation are refused for want of a name exactly if that of the project is blank. -/
theorem requestsFor_eq_unnamed_iff (filled : ∀ version ∈ versions, Text.isBlank version = false) :
    requestsFor project config template versions verbose =
        .error (.configuration (.missingField "project_name")) ↔
      versions ≠ [] ∧ Text.isBlank project.name = true := by
  cases versions with
  | nil => exact iff_of_false nofun fun ⟨given, _⟩ => given rfl
  | cons first rest =>
      obtain ⟨loud, made⟩ := @exists_requestsFor_cons project config template verbose first rest
      have proper : Text.isBlank (requestFor project config template loud first).version = false :=
        filled first List.mem_cons_self
      have unnamed := validate_eq_missingField_iff.trans (missingField?_eq_projectName_iff proper)
      rw [made, iff_true_intro (List.cons_ne_nil first rest), true_and]
      refine Iff.trans ?_ unnamed
      cases (requestFor project config template loud first).validate <;> simp [Except.map]

/-- With a name that is not blank requests are made of whatever an invocation is configured to do. -/
theorem exists_requestsFor_of_named {concurrency : Nat} {stagingRoot : String}
    {environment : Environment} {arguments : RunArguments} (rooted : project.root ≠ "")
    (resolved : RunConfig.resolve { concurrency, stagingRoot } environment arguments = .ok config)
    (holds : hasPlaceholder template = true)
    (filled : ∀ version ∈ versions, Text.isBlank version = false)
    (named : Text.isBlank project.name = false) :
    ∃ requests, requestsFor project config template versions verbose = .ok requests := by
  obtain ⟨baseImage, testCommand⟩ := RunConfig.filled_of_resolve resolved
  exact exists_requestsFor_iff.2 fun first atHead => ⟨filled first (List.mem_of_mem_head? atHead),
    named, rooted, hasPlaceholder_imageNameTemplate project, holds, baseImage, testCommand⟩

/-- What a project that is found is called, and when that leaves it without requests, whatever the version
control program answers. Its name is the first that there is of that in the package manifest, if it is not
blank, that in the crate manifest, and that of the directory. So it is blank exactly if the package manifest
gives no other and the one that counts then is blank. For versions of which none is blank, that is exactly
when their requests are refused for want of a name; otherwise, in an invocation that is configured and has a
template with a placeholder, they are made. -/
theorem discover_names {git : Git} {disk : Disk} {root : String} {project : Project}
    (found : discover git disk root = .ok project) :
    let later := (crateName? disk root).getD (directoryName disk root)
    project.name = (packageName? disk root).getD later ∧
    (Text.isBlank project.name = true ↔ packageName? disk root = none ∧ Text.isBlank later = true) ∧
    ∀ (config : RunConfig) (template : String) (versions : List String) (verbose : Bool),
      (∀ version ∈ versions, Text.isBlank version = false) →
      (requestsFor project config template versions verbose =
          .error (.configuration (.missingField "project_name")) ↔
        versions ≠ [] ∧ Text.isBlank project.name = true) ∧
      ∀ concurrency stagingRoot environment arguments,
        RunConfig.resolve { concurrency, stagingRoot } environment arguments = .ok config →
        hasPlaceholder template = true →
        ((∃ requests, requestsFor project config template versions verbose = .ok requests) ↔
          versions = [] ∨ Text.isBlank project.name = false) := by
  intro later
  obtain ⟨-, named, -⟩ := of_discover found
  have name : project.name = (packageName? disk root).getD later := name_of_findName named
  refine ⟨name, ?_, fun config template versions verbose filled =>
    ⟨requestsFor_eq_unnamed_iff filled, ?_⟩⟩
  · cases given : packageName? disk root with
    | none => rw [name, given, Option.getD_none, iff_true_intro rfl, true_and]
    | some other =>
        rw [name, given, Option.getD_some, isBlank_of_packageName? given]
        exact iff_of_false Bool.false_ne_true fun absent => nomatch absent.1
  · intro concurrency stagingRoot environment arguments resolved holds
    constructor
    · rintro ⟨requests, made⟩
      by_contra! neither
      rw [(requestsFor_eq_unnamed_iff filled).2 ⟨neither.1, by simpa using neither.2⟩] at made
      cases made
    · rintro (rfl | proper)
      · exact ⟨[], rfl⟩
      · exact exists_requestsFor_of_named (root_ne_empty_of_discover found) resolved holds filled proper

/-- A project whose manifests give two blank names, and a directory that is called by a blank. -/
def blankDisk : Disk where
  tree :=
    { entries :=
        [(["proj"], .directory),
          (["proj", "package.json"], .file (Text.utf8 "\x7b\"name\": \"\\t\"\x7d") false),
          (["proj", "Cargo.toml"], .file (Text.utf8 "[package]\nname = \" \"\n") false),
          ([" "], .directory)] }

/-- The version control program where nothing is a checkout: it fails and prints nothing. -/
def bareGit : Git := fun _ _ => some { succeeded := false, output := [] }

def blankProject : Project := { root := "/proj", name := " ", revision := "latest" }

/-- The blank name of the package manifest is passed over, and that of the crate manifest is not. -/
theorem discover_names_blank :
    discover bareGit blankDisk "/proj" = .ok blankProject ∧
      packageName? blankDisk "/proj" = none ∧ Text.isBlank blankProject.name = true ∧
      ∀ config template verbose, requestsFor blankProject config template ["1"] verbose =
        .error (.configuration (.missingField "project_name")) := by
  have found : discover bareGit blankDisk "/proj" = .ok blankProject := by decide +kernel
  obtain ⟨-, blank, requests⟩ := discover_names found
  have unnamed : Text.isBlank blankProject.name = true := by decide
  refine ⟨found, (blank.1 unnamed).1, unnamed, fun config template verbose => ?_⟩
  exact (requests config template ["1"] verbose (by decide)).1.2 ⟨by decide, unnamed⟩

/-- A project is found under a blank name, which its crate manifest gives or its directory, and then nothing
can be requested for a version. -/
theorem exists_discover_unnamed :
    (discover bareGit blankDisk "/proj" = .ok blankProject ∧ Text.isBlank blankProject.name = true ∧
      requestsFor blankProject { concurrency := 1, stagingRoot := "/s" } "FROM b:$VERSION" ["1"] false =
        .error (.configuration (.missingField "project_name"))) ∧
    discover bareGit blankDisk "/ " = .ok { root := "/ ", name := " ", revision := "latest" } := by
  refine ⟨⟨?_, ?_, ?_⟩, ?_⟩
  · decide +kernel
  · decide
  · exact (requestsFor_eq_unnamed_iff (by decide)).2 ⟨by decide, by decide⟩
  · decide +kernel

end Project

end VersionMatrix
