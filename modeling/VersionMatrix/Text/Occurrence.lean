/-!
Occurrences of a fragment in a text: finding the leftmost one, replacing it, and replacing single
characters.
-/

namespace VersionMatrix.Text

/-- What stands before and after the leftmost occurrence of `fragment`. -/
def cut? (fragment : List Char) : List Char → Option (List Char × List Char)
  | [] => if fragment.isEmpty then some ([], []) else none
  | c :: rest =>
    if fragment.isPrefixOf (c :: rest) then
      some ([], (c :: rest).drop fragment.length)
    else
      (cut? fragment rest).map fun (before, after) => (c :: before, after)

def contains (text fragment : String) : Bool :=
  (cut? fragment.toList text.toList).isSome

/-- The text with the leftmost occurrence of `fragment` replaced, or `none` if there is none. -/
def replaceFirst? (text fragment replacement : String) : Option String :=
  (cut? fragment.toList text.toList).map fun (before, after) =>
    String.ofList before ++ replacement ++ String.ofList after

def replaceChars (chars : List Char) (replacement : Char) (text : String) : String :=
  String.ofList (text.toList.map fun c => if c ∈ chars then replacement else c)

/-- Splits a text at its first `separator`, which belongs to neither part. -/
def splitOnce? (separator : Char) (text : String) : Option (String × String) :=
  (cut? [separator] text.toList).map fun (before, after) =>
    (String.ofList before, String.ofList after)

/-- The two parts put around the fragment give the text back. -/
theorem eq_of_cut?_eq_some {fragment text before after : List Char}
    (found : cut? fragment text = some (before, after)) :
    text = before ++ fragment ++ after := by
  induction text generalizing before after with
  | nil =>
    cases fragment with
    | nil => simp_all [cut?]
    | cons => simp [cut?] at found
  | cons c rest ih =>
    rw [cut?] at found
    split at found
    · next isPrefix =>
      obtain ⟨tail, hTail⟩ := List.isPrefixOf_iff_prefix.1 isPrefix
      simp only [Option.some.injEq, Prod.mk.injEq] at found
      obtain ⟨rfl, rfl⟩ := found
      simp [← hTail]
    · obtain ⟨⟨b, a⟩, hRest, hEq⟩ := Option.map_eq_some_iff.1 found
      simp only [Prod.mk.injEq] at hEq
      obtain ⟨rfl, rfl⟩ := hEq
      simp [ih hRest]

/-- A fragment is found if and only if it occurs, and no occurrence starts before the one found. -/
theorem exists_cut?_eq_of_eq {fragment text before after : List Char}
    (occurs : text = before ++ fragment ++ after) :
    ∃ first rest, cut? fragment text = some (first, rest) ∧ first.length ≤ before.length := by
  induction text generalizing before with
  | nil =>
    obtain ⟨rfl, rfl, rfl⟩ : before = [] ∧ fragment = [] ∧ after = [] := by simpa using occurs
    exact ⟨[], [], rfl, Nat.le_refl 0⟩
  | cons c rest ih =>
    rw [cut?]
    split
    · exact ⟨[], _, rfl, Nat.zero_le _⟩
    · next noPrefix =>
      cases before with
      | nil =>
        refine absurd (List.isPrefixOf_iff_prefix.2 ⟨after, ?_⟩) noPrefix
        simpa using occurs.symm
      | cons c' before =>
        obtain ⟨first, last, found, le⟩ := ih (List.cons.inj occurs).2
        exact ⟨c :: first, last, by simp [found], Nat.succ_le_succ le⟩

/-- A text contains a fragment exactly if the fragment is a part of it without gaps. -/
theorem contains_iff {text fragment : String} :
    contains text fragment = true ↔ fragment.toList <:+: text.toList := by
  rw [contains, Option.isSome_iff_exists]
  constructor
  · rintro ⟨⟨before, after⟩, found⟩
    exact ⟨before, after, (eq_of_cut?_eq_some found).symm⟩
  · rintro ⟨before, after, occurs⟩
    obtain ⟨first, rest, found, -⟩ := exists_cut?_eq_of_eq occurs.symm
    exact ⟨_, found⟩

/-- Only the leftmost occurrence is replaced. -/
theorem eq_of_replaceFirst?_eq_some {text fragment replacement replaced : String}
    (found : replaceFirst? text fragment replacement = some replaced) :
    ∃ before after, text = before ++ fragment ++ after ∧
      replaced = before ++ replacement ++ after ∧
      ∀ earlier later, text = earlier ++ fragment ++ later → before.length ≤ earlier.length := by
  obtain ⟨⟨before, after⟩, cut, rfl⟩ := Option.map_eq_some_iff.1 found
  refine ⟨String.ofList before, String.ofList after, ?_, rfl, fun earlier later occurs => ?_⟩
  · rw [← String.toList_inj, String.toList_append, String.toList_append, String.toList_ofList,
      String.toList_ofList]
    exact eq_of_cut?_eq_some cut
  · rw [← String.toList_inj, String.toList_append, String.toList_append] at occurs
    obtain ⟨first, rest, cut', le⟩ := exists_cut?_eq_of_eq occurs
    obtain ⟨rfl, -⟩ := Prod.mk.inj (Option.some.inj (cut.symm.trans cut'))
    rwa [String.length_ofList, ← String.length_toList]

example : replaceFirst? "a $V $V" "$V" "$V1" = some "a $V1 $V" := by decide

end VersionMatrix.Text
