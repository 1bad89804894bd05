import VersionMatrix.Project.Basic
import VersionMatrix.Proofs.Staging.Substitution
import VersionMatrix.Proofs.Text.LowerCase
import VersionMatrix.Proofs.Text.Trim

/-! The names of the images of a project: a label that is made of its name, then the version, then the
revision. A project may be called anything, and still no part of its name is taken for the placeholder. -/
namespace VersionMatrix.Project

variable {project : Project} {name : String}

/-- A name in lower case, with an underscore in place of each separator. -/
def plainName (name : String) : List Char :=
  (Text.lower name).toList.map fun c => if c = '@' ∨ c = '/' ∨ c = ' ' then '_' else c

/-- What a label looks like: there is no capital letter in it and no separator, and no underscore at
either end. -/
structure IsLabel (label : List Char) : Prop where
  lower : ∀ c ∈ label, c.isUpper = false
  plain : ∀ c ∈ label, c ≠ '@' ∧ c ≠ '/' ∧ c ≠ ' '
  first : label.head? ≠ some '_'
  last : label.getLast? ≠ some '_'

/-- The replacements of an image name go character by character. -/
theorem plainName_eq (name : String) :
    (Text.replaceChars ['@', '/', ' '] '_' (Text.lower name)).toList = plainName name := by
  simp [Text.replaceChars, plainName]

/-- A label is the plain name without underscores at its ends. -/
theorem toList_imageLabel (name : String) :
    (imageLabel name).toList = Text.stripWhile (· == '_') (plainName name) := by
  rw [imageLabel, plainName_eq, String.toList_ofList]

/-- A plain name holds no capital letter and no separator. -/
theorem of_mem_plainName {c : Char} (member : c ∈ plainName name) :
    c.isUpper = false ∧ c ≠ '@' ∧ c ≠ '/' ∧ c ≠ ' ' := by
  obtain ⟨original, lower, rfl⟩ := List.mem_map.1 member
  split
  next => exact ⟨rfl, by decide, by decide, by decide⟩
  next kept =>
      rw [not_or, not_or] at kept
      exact ⟨Text.isUpper_of_mem_lower lower, kept⟩

/-- A label is what is left of the plain name between the underscores at its ends. -/
theorem plainName_eq_imageLabel (name : String) :
    ∃ lead trail, plainName name =
      List.replicate lead '_' ++ (imageLabel name).toList ++ List.replicate trail '_' := by
  obtain ⟨lead, trail, whole, front, back⟩ := Text.exists_append_stripWhile (· == '_') (plainName name)
  rw [← toList_imageLabel] at whole
  refine ⟨lead.length, trail.length, ?_⟩
  rw [← List.eq_replicate_of_mem fun c member => eq_of_beq (front c member),
    ← List.eq_replicate_of_mem fun c member => eq_of_beq (back c member)]
  exact whole

/-- Every name makes a label. -/
theorem isLabel_imageLabel (name : String) : IsLabel (imageLabel name).toList := by
  have fits : ∀ c ∈ (imageLabel name).toList, c.isUpper = false ∧ c ≠ '@' ∧ c ≠ '/' ∧ c ≠ ' ' := by
    intro c member
    obtain ⟨lead, trail, whole⟩ := plainName_eq_imageLabel name
    have kept : c ∈ plainName name := by
      rw [whole]
      exact List.mem_append_left _ (List.mem_append_right _ member)
    exact of_mem_plainName kept
  refine ⟨fun c member => (fits c member).1, fun c member => (fits c member).2, ?_, ?_⟩
  · rw [toList_imageLabel]
    intro first
    exact Bool.noConfusion (Text.head?_stripWhile first)
  · rw [toList_imageLabel]
    intro last
    exact Bool.noConfusion (Text.getLast?_stripWhile last)

/-- The placeholder of an image name is its own: no earlier one is in the label, which holds no capital
letter, or begins there. -/
theorem leftmost_imageNameTemplate (project : Project) :
    Text.Leftmost placeholder project.imageNameTemplate (imageLabel project.name ++ "_")
      (":" ++ project.revision) := by
  have absent : 'V' ∉ (imageLabel project.name ++ "_").toList := by
    rw [String.toList_append, List.mem_append, not_or]
    exact ⟨fun member => Bool.noConfusion ((isLabel_imageLabel project.name).lower 'V' member), by decide⟩
  have spelled : placeholder.toList = '$' :: 'V' :: "ERSION".toList := by decide
  have whole : project.imageNameTemplate =
      imageLabel project.name ++ "_" ++ placeholder ++ (":" ++ project.revision) := by
    rw [imageNameTemplate, ← String.append_assoc]
  rw [whole]
  exact .of_notMem spelled (by decide) absent

/-- The template of image names has a place for the version, whatever the project is called. -/
theorem hasPlaceholder_imageNameTemplate (project : Project) :
    hasPlaceholder project.imageNameTemplate = true :=
  Text.contains_of_occurs (leftmost_imageNameTemplate project).occurs

/-- The image name of a version, whatever the project is called: a label, the version and the revision.
The label is the name of the project in lower case, with underscores in place of separators and none of
them at its ends. The version stands where the template has its own placeholder, even if the name of the
project holds another. -/
theorem substituteVersion_imageNameTemplate (project : Project) (version what : String) :
    substituteVersion project.imageNameTemplate version what =
      .ok (imageLabel project.name ++ "_" ++ version ++ ":" ++ project.revision) ∧
    (∃ lead trail, plainName project.name =
      List.replicate lead '_' ++ (imageLabel project.name).toList ++ List.replicate trail '_') ∧
    IsLabel (imageLabel project.name).toList ∧
    project.imageNameTemplate =
      imageLabel project.name ++ "_" ++ placeholder ++ ":" ++ project.revision ∧
    ∀ earlier later, project.imageNameTemplate = earlier ++ placeholder ++ later →
      (imageLabel project.name ++ "_").length ≤ earlier.length := by
  have cut := leftmost_imageNameTemplate project
  refine ⟨?_, plainName_eq_imageLabel project.name, isLabel_imageLabel project.name, rfl, cut.first⟩
  rw [substituteVersion_of_leftmost cut, ← String.append_assoc]

example : let project : Project := { root := "/src", name := "@Scope/My $VERSION ΟΔΟΣ", revision := "r" }
    substituteVersion? project.imageNameTemplate "4.2.4" = some "scope_my_$version_οδος_4.2.4:r" := by
  decide +kernel

end VersionMatrix.Project
