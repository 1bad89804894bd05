import VersionMatrix.Text.Occurrence

/-! The leftmost occurrence of a fragment in a text, which is the one that a replacement is put in for. -/
namespace VersionMatrix.Text

/-- What stands before and after an occurrence of a fragment that no other one starts before. -/
structure Leftmost (fragment text before after : String) : Prop where
  occurs : text = before ++ fragment ++ after
  first : ∀ earlier later, text = earlier ++ fragment ++ later → before.length ≤ earlier.length

variable {fragment text before after replacement replaced : String}

namespace Leftmost

/-- There is one leftmost occurrence at most. -/
theorem unique {before' after' : String} (cut : Leftmost fragment text before after)
    (cut' : Leftmost fragment text before' after') : before = before' ∧ after = after' := by
  have same : before ++ fragment ++ after = before' ++ fragment ++ after' :=
    cut.occurs.symm.trans cut'.occurs
  have length : before.length = before'.length :=
    Nat.le_antisymm (cut.first _ _ cut'.occurs) (cut'.first _ _ cut.occurs)
  simp only [← String.toList_inj, String.toList_append, List.append_assoc] at same ⊢
  obtain ⟨front, back⟩ := List.append_inj same (by
    rw [String.length_toList, String.length_toList, length])
  exact ⟨front, List.append_cancel_left back⟩

/-- A fragment whose second character differs from its first, and is nowhere in what stands before it,
starts at no earlier place, be it inside of that or across its end. -/
theorem of_notMem {first second : Char} {rest : List Char}
    (spelled : fragment.toList = first :: second :: rest) (differ : first ≠ second)
    (absent : second ∉ before.toList) : Leftmost fragment (before ++ fragment ++ after) before after where
  occurs := rfl
  first earlier later occurs := by
    refine Nat.le_of_not_lt fun starts => ?_
    rw [← String.length_toList, ← String.length_toList] at starts
    have there : (before ++ fragment ++ after).toList[earlier.toList.length + 1]? = some second := by
      simp [occurs, spelled]
    simp only [String.toList_append, spelled, List.append_assoc, List.cons_append] at there
    -- The second character is either in what stands before the fragment, or the first one of it.
    rcases Nat.lt_or_eq_of_le (Nat.succ_le_of_lt starts) with inside | across
    · rw [List.getElem?_append_left inside] at there
      exact absent (List.mem_of_getElem? there)
    · rw [List.getElem?_append_right (Nat.le_of_eq across.symm), across, Nat.sub_self,
        List.getElem?_cons_zero, Option.some.injEq] at there
      exact differ there

end Leftmost

theorem contains_of_occurs (occurs : text = before ++ fragment ++ after) :
    contains text fragment = true :=
  contains_iff.2 ⟨before.toList, after.toList, by
    rw [occurs, String.toList_append, String.toList_append]⟩

/-- A fragment that is there can be replaced. -/
theorem exists_replaceFirst?_eq (found : contains text fragment = true) (replacement : String) :
    ∃ replaced, replaceFirst? text fragment replacement = some replaced := by
  rw [← Option.isSome_iff_exists, replaceFirst?, Option.isSome_map]
  exact found

/-- Of the occurrences of a fragment one is the leftmost. -/
theorem exists_leftmost (found : contains text fragment = true) :
    ∃ before after, Leftmost fragment text before after := by
  obtain ⟨replaced, replaces⟩ := exists_replaceFirst?_eq found ""
  obtain ⟨before, after, occurs, -, first⟩ := eq_of_replaceFirst?_eq_some replaces
  exact ⟨before, after, occurs, first⟩

/-- The replacement stands where the leftmost occurrence stood. -/
theorem replaceFirst?_of_leftmost (cut : Leftmost fragment text before after) :
    replaceFirst? text fragment replacement = some (before ++ replacement ++ after) := by
  obtain ⟨replaced, replaces⟩ := exists_replaceFirst?_eq (contains_of_occurs cut.occurs) replacement
  obtain ⟨front, back, occurs, same, first⟩ := eq_of_replaceFirst?_eq_some replaces
  obtain ⟨rfl, rfl⟩ := cut.unique ⟨occurs, first⟩
  rw [replaces, same]

/-- What is replaced is the leftmost occurrence and nothing else. -/
theorem replaceFirst?_eq_some_iff :
    replaceFirst? text fragment replacement = some replaced ↔
      ∃ before after, Leftmost fragment text before after ∧ replaced = before ++ replacement ++ after := by
  constructor
  · intro found
    obtain ⟨before, after, occurs, same, first⟩ := eq_of_replaceFirst?_eq_some found
    exact ⟨before, after, ⟨occurs, first⟩, same⟩
  · rintro ⟨before, after, cut, rfl⟩
    exact replaceFirst?_of_leftmost cut

/-- A text that is split once is its parts around the separator. -/
theorem eq_of_splitOnce?_eq_some {separator : Char} {before after : String}
    (found : splitOnce? separator text = some (before, after)) :
    text.toList = before.toList ++ separator :: after.toList := by
  obtain ⟨⟨front, back⟩, cut, same⟩ := Option.map_eq_some_iff.1 found
  obtain ⟨rfl, rfl⟩ := Prod.mk.inj same
  rw [eq_of_cut?_eq_some cut, String.toList_ofList, String.toList_ofList, List.append_assoc,
    List.singleton_append]

/-- A single character is found where it first stands. -/
theorem splitOnce?_eq_some {separator : Char} {before : List Char} (absent : separator ∉ before)
    (after : List Char) :
    splitOnce? separator (String.ofList (before ++ separator :: after)) =
      some (String.ofList before, String.ofList after) := by
  have cut : cut? [separator] (before ++ separator :: after) = some (before, after) := by
    induction before with
    | nil => simp [cut?]
    | cons c before ih =>
        rw [List.mem_cons, not_or] at absent
        rw [List.cons_append, cut?, if_neg (by simp [absent.1]), ih absent.2]
        rfl
  rw [splitOnce?, String.toList_ofList, cut]
  rfl

end VersionMatrix.Text
