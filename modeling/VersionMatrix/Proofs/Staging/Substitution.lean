import VersionMatrix.Proofs.Request
import VersionMatrix.Proofs.Text.Occurrence

/-! What becomes of a template: its leftmost placeholder gives way to the version, and everything else in
it stays. -/
namespace VersionMatrix

variable {template version other what label text before after : String}

/-- A template has a placeholder exactly if the placeholder stands somewhere in it. -/
theorem hasPlaceholder_iff :
    hasPlaceholder template = true ↔ ∃ before after, template = before ++ placeholder ++ after := by
  refine ⟨fun holds => ?_, fun ⟨_, _, occurs⟩ => Text.contains_of_occurs occurs⟩
  obtain ⟨before, after, cut⟩ := Text.exists_leftmost holds
  exact ⟨before, after, cut.occurs⟩

/-- A version takes the place of the leftmost placeholder, with the text around it unchanged. -/
theorem substituteVersion_eq_ok_iff :
    substituteVersion template version what = .ok text ↔
      ∃ before after, Text.Leftmost placeholder template before after ∧
        text = before ++ version ++ after := by
  rw [← Text.replaceFirst?_eq_some_iff, substituteVersion, substituteVersion?]
  cases Text.replaceFirst? template placeholder version <;> simp

theorem substituteVersion_of_leftmost (cut : Text.Leftmost placeholder template before after) :
    substituteVersion template version what = .ok (before ++ version ++ after) :=
  substituteVersion_eq_ok_iff.2 ⟨before, after, cut, rfl⟩

/-- A version can be put in exactly where there is a placeholder. -/
theorem exists_substituteVersion_iff :
    (∃ text, substituteVersion template version what = .ok text) ↔ hasPlaceholder template = true := by
  refine ⟨fun ⟨text, substituted⟩ => ?_, fun holds => ?_⟩
  · obtain ⟨before, after, cut, -⟩ := substituteVersion_eq_ok_iff.1 substituted
    exact Text.contains_of_occurs cut.occurs
  · obtain ⟨before, after, cut⟩ := Text.exists_leftmost holds
    exact ⟨_, substituteVersion_of_leftmost cut⟩

/-- A template is refused exactly if it has no placeholder, by the name of what it is for. -/
theorem substituteVersion_eq_error_iff {error : StageError} :
    substituteVersion template version what = .error error ↔
      hasPlaceholder template = false ∧
        error = .configuration (.missingPlaceholder (what ++ " template")) := by
  rw [← Bool.not_eq_true, ← @exists_substituteVersion_iff template version what, substituteVersion]
  cases substituteVersion? template version <;> simp [eq_comm]

/-- No two versions make the same of a template. -/
theorem version_eq_of_substituteVersion (first : substituteVersion template version what = .ok text)
    (second : substituteVersion template other label = .ok text) : version = other := by
  obtain ⟨before, after, cut, rfl⟩ := substituteVersion_eq_ok_iff.1 first
  obtain ⟨front, back, cut', same⟩ := substituteVersion_eq_ok_iff.1 second
  obtain ⟨rfl, rfl⟩ := cut.unique cut'
  exact (String.append_right_inj _).1 ((String.append_left_inj _).1 same)

/-- What is made of a template. There is a result exactly if the placeholder occurs, and an error that
names the template otherwise. The result has the version in place of an occurrence that no other starts
before, and the same text around it, so the version that was put in can be told from it. Both
templates of a valid request have a result. -/
theorem substituteVersion_leftmost (template version what : String) :
    ((∃ text, substituteVersion template version what = .ok text) ↔
      ∃ before after, template = before ++ placeholder ++ after) ∧
    ((¬∃ before after, template = before ++ placeholder ++ after) →
      substituteVersion template version what =
        .error (.configuration (.missingPlaceholder (what ++ " template")))) ∧
    (∀ text, substituteVersion template version what = .ok text →
      ∃ before after, template = before ++ placeholder ++ after ∧
        text = before ++ version ++ after ∧
        ∀ earlier later, template = earlier ++ placeholder ++ later →
          before.length ≤ earlier.length) ∧
    (∀ other label text, substituteVersion template version what = .ok text →
      substituteVersion template other label = .ok text → version = other) ∧
    ∀ request : RunRequest, request.validate = .ok () →
      (∃ image, substituteVersion request.imageNameTemplate version what = .ok image) ∧
      ∃ text, substituteVersion request.dockerfileTemplate version what = .ok text := by
  refine ⟨exists_substituteVersion_iff.trans hasPlaceholder_iff, fun absent => ?_,
    fun text substituted => ?_, fun _ _ _ => version_eq_of_substituteVersion,
    fun request valid => ?_⟩
  · rw [← hasPlaceholder_iff, Bool.not_eq_true] at absent
    exact substituteVersion_eq_error_iff.2 ⟨absent, rfl⟩
  · obtain ⟨before, after, cut, same⟩ := substituteVersion_eq_ok_iff.1 substituted
    exact ⟨before, after, cut.occurs, same, cut.first⟩
  · obtain ⟨-, imageName, dockerfile⟩ := RunRequest.validate_eq_ok_iff.1 valid
    exact ⟨exists_substituteVersion_iff.2 imageName, exists_substituteVersion_iff.2 dockerfile⟩

end VersionMatrix
