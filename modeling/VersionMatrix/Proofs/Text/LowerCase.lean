import VersionMatrix.Text.LowerCase

/-! Lower case has no capital letter of the Latin alphabet left in it, whatever text it is made of. -/
namespace VersionMatrix.Text

theorem isUpper_eq_false_iff {c : Char} : c.isUpper = false ↔ c.toNat < 0x41 ∨ 0x5A < c.toNat := by
  have spelled : c.isUpper = decide ('A'.val ≤ c.val ∧ c.val ≤ 'Z'.val) := rfl
  have first : 'A'.val.toNat = 0x41 := rfl
  have last : 'Z'.val.toNat = 0x5A := rfl
  rw [spelled, decide_eq_false_iff_not, UInt32.le_iff_toNat_le, UInt32.le_iff_toNat_le, first, last,
    Char.toNat_val]
  omega

theorem isUpper_ofNat {code : Nat} (past : 0x5A < code) : (Char.ofNat code).isUpper = false := by
  by_cases valid : code.isValidChar
  · have same : (Char.ofNat code).toNat = code := congrArg Char.toNat (dif_pos valid)
    rw [isUpper_eq_false_iff, same]
    exact .inr past
  · have invalid : Char.ofNat code = Char.ofNat 0 := dif_neg valid
    rw [invalid]
    rfl

/-- No run of the table leads to a capital letter. -/
theorem lt_image?_of_mem {run : CaseRun} (member : run ∈ caseRuns) {code image : Nat}
    (mapped : run.image? code = some image) : 0x5A < image := by
  have past : ∀ run ∈ caseRuns, 0x5A < run.target := by decide +kernel
  rw [CaseRun.image?] at mapped
  split at mapped
  next =>
      obtain rfl := Option.some.inj mapped
      exact Nat.lt_add_right _ (past run member)
  next => cases mapped

/-- A letter in lower case is no capital. -/
theorem isUpper_lowerChar (c : Char) : (lowerChar c).isUpper = false := by
  rw [lowerChar]
  split
  next code mapped =>
      obtain ⟨run, member, mapped⟩ := List.exists_of_findSome?_eq_some mapped
      exact isUpper_ofNat (lt_image?_of_mem member mapped)
  next unmapped =>
      -- The capital letters have a run of their own, so a character without a run is none of them.
      have capitals : ⟨0x41, 0x5A, 1, 0x61⟩ ∈ caseRuns := List.mem_of_mem_head? (by rfl)
      have outside := List.findSome?_eq_none_iff.1 unmapped _ capitals
      simp only [CaseRun.image?, Nat.mod_one, and_true, ite_eq_right_iff, reduceCtorEq, imp_false,
        not_and, Nat.not_le] at outside
      rw [isUpper_eq_false_iff]
      omega

theorem isUpper_of_mem_lowerFrom {c : Char} {before text : List Char}
    (member : c ∈ lowerFrom before text) : c.isUpper = false := by
  induction text generalizing before with
  | nil => cases member
  | cons first rest ih =>
      rw [lowerFrom] at member
      rcases List.mem_append.1 member with image | later
      · split at image
        next =>
            split at image <;> rw [List.mem_singleton.1 image] <;> rfl
        next =>
            split at image
            next =>
                rcases List.mem_cons.1 image with rfl | image
                · rfl
                · rw [List.mem_singleton.1 image]
                  rfl
            next =>
                rw [List.mem_singleton.1 image]
                exact isUpper_lowerChar first
      · exact ih later

/-- A text in lower case has no capitals. -/
theorem isUpper_of_mem_lower {text : String} {c : Char} (member : c ∈ (lower text).toList) :
    c.isUpper = false := by
  rw [lower, String.toList_ofList] at member
  exact isUpper_of_mem_lowerFrom member

end VersionMatrix.Text
