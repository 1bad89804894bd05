import VersionMatrix.Pipeline.Run
import VersionMatrix.Proofs.CommandLine.Requests
import VersionMatrix.Proofs.FileTree.Names
import VersionMatrix.Staging.Place

/-! Which projects and versions have one staging directory in common. Its name keeps neither what
separated the words of the two nor where the project ends and the version begins. -/
namespace VersionMatrix

variable {root project project' version version' : String} {name name' : String}

/-- Whether nothing in a name separates path components or words. -/
def Unseparated (name : String) : Prop := ∀ c ∈ name.toList, c ∉ ['/', '\\', ' ']

/-- Names are flattened character by character. -/
theorem flattenName_append (first second : String) :
    flattenName (first ++ second) = flattenName first ++ flattenName second := by
  rw [← String.toList_inj]
  simp [flattenName, Text.replaceChars]

/-- A name in which nothing separates stays as it is. -/
theorem flattenName_of_unseparated (unseparated : Unseparated name) : flattenName name = name := by
  have kept : name.toList.map (fun c => if c ∈ ['/', '\\', ' '] then '_' else c) = name.toList :=
    (List.map_congr_left fun c member => if_neg (unseparated c member)).trans (List.map_id' _)
  rw [flattenName, Text.replaceChars, kept, String.ofList_toList]

/-- Below one base different names make different paths. -/
theorem Path.join_right_inj (base : String) : join base name = join base name' ↔ name = name' := by
  refine ⟨fun same => ?_, congrArg (join base)⟩
  unfold join at same
  split at same
  · exact same
  · split at same
    · exact String.append_right_inj _ |>.1 same
    · exact String.append_right_inj _ |>.1 same

/-- Two pairs share the name of a staging directory exactly if they are flattened to the same
text. -/
theorem stagingName_eq_iff :
    stagingName project version = stagingName project' version' ↔
      flattenName (project ++ version) = flattenName (project' ++ version') := by
  rw [stagingName, stagingName, String.append_assoc, String.append_assoc, String.append_right_inj,
    flattenName_append, flattenName_append]

/-- Two pairs share a staging directory exactly if they are flattened to the same text, whatever the
root. -/
theorem stagingPath_eq_iff (root : String) :
    stagingPath root project version = stagingPath root project' version' ↔
      flattenName (project ++ version) = flattenName (project' ++ version') := by
  rw [stagingPath, stagingPath, Path.join_right_inj, stagingName_eq_iff]

/-- Versions of one project share a staging directory exactly if they differ in separators only. -/
theorem stagingPath_version_eq_iff (root project : String) :
    stagingPath root project version = stagingPath root project version' ↔
      flattenName version = flattenName version' := by
  rw [stagingPath_eq_iff, flattenName_append, flattenName_append, String.append_right_inj]

/-- Below one root, two projects at two versions have one staging directory exactly if their names put
together differ in separators only. Two requests of one invocation have one exactly if their versions do,
so none have if nothing in the versions separates. -/
theorem stagingPath_eq_iff_flattenName (root project version project' version' : String) :
    (stagingPath root project version = stagingPath root project' version' ↔
      flattenName (project ++ version) = flattenName (project' ++ version')) ∧
    ∀ (pipeline : Pipeline) (inspected : Project) (config : RunConfig) (template : String)
      (versions : List String) (verbose : Bool) (requests : List RunRequest),
      requestsFor inspected config template versions verbose = .ok requests →
      (∀ first ∈ requests, ∀ second ∈ requests,
        (pipeline.stagingDirectory first = pipeline.stagingDirectory second ↔
          flattenName first.version = flattenName second.version)) ∧
      ((∀ version ∈ versions, Unseparated version) →
        (requests.map pipeline.stagingDirectory).Nodup) := by
  refine ⟨stagingPath_eq_iff root, ?_⟩
  intro pipeline inspected config template versions verbose requests made
  obtain ⟨model, rfl⟩ := exists_eq_map_forVersion made
  constructor
  · intro first member second member'
    obtain ⟨version, -, rfl⟩ := List.mem_map.1 member
    obtain ⟨version', -, rfl⟩ := List.mem_map.1 member'
    exact stagingPath_version_eq_iff pipeline.stagingRoot model.projectName
  · intro unseparated
    rw [List.map_map]
    refine (nodup_eraseDups versions).map_on ?_
    intro version member version' member' same
    have flat : flattenName version = flattenName version' :=
      (stagingPath_version_eq_iff pipeline.stagingRoot model.projectName).1 same
    rwa [flattenName_of_unseparated (unseparated version (List.mem_eraseDups.1 member)),
      flattenName_of_unseparated (unseparated version' (List.mem_eraseDups.1 member'))] at flat

/-- A blank is taken for an underscore, and the end of a project name for the start of a version. So an
invocation may have two requests of which one builds what the other has put into their directory. -/
theorem exists_stagingPath_eq :
    stagingPath "/s" "p" "1 2" = stagingPath "/s" "p" "1_2" ∧
      stagingPath "/s" "p" "11" = stagingPath "/s" "p1" "1" ∧
      ∃ first second, requestsFor { root := "/proj", name := "p", revision := "r" }
          { concurrency := 2, baseImage := "b", testCommand := ["t"], stagingRoot := "/s" }
          "FROM b:$VERSION" ["1 2", "1_2"] false = .ok [first, second] ∧
        first.version ≠ second.version ∧
        Pipeline.stagingDirectory { stagingRoot := "/s" } first =
          Pipeline.stagingDirectory { stagingRoot := "/s" } second := by
  refine ⟨by decide +kernel, by decide +kernel, _, _, by rfl, ?_, ?_⟩
  · decide +kernel
  · decide +kernel

end VersionMatrix
