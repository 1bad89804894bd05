import VersionMatrix.FileTree.Operations
import Mathlib.Data.List.Basic

/-! The names in the text of a path, and how joining a name to a path adds it to them. -/
namespace VersionMatrix.Path

/-- The names in a path, without the empty step that a slash at the end asks for. -/
def names (path : String) : List String := (pieces path.toList).filter (· != "")

/-- The steps of a path are its names, and perhaps the empty step of a slash at its end. -/
theorem steps_eq_names_or (path : String) :
    steps path = names path ∨ steps path = names path ++ [""] := by
  unfold steps
  simp only
  split
  · exact Or.inr rfl
  · exact Or.inl rfl

theorem filter_steps (path : String) : (steps path).filter (· != "") = names path := by
  have idem : (names path).filter (· != "") = names path := by
    simp [names, List.filter_filter]
  rcases steps_eq_names_or path with same | slash
  · rw [same, idem]
  · rw [slash, List.filter_append, idem]
    simp

variable {name : String}

theorem ne_empty_of_isName (proper : isName name = true) : name ≠ "" := by
  rintro rfl
  exact absurd proper (by decide)

theorem ne_dot_of_isName (proper : isName name = true) : name ≠ "." := by
  rintro rfl
  exact absurd proper (by decide)

theorem ne_dots_of_isName (proper : isName name = true) : name ≠ ".." := by
  rintro rfl
  exact absurd proper (by decide)

/-- A name holds no slash. -/
theorem slash_notMem_of_isName (proper : isName name = true) : '/' ∉ name.toList := by
  intro member
  simp only [isName, Bool.and_eq_true, List.all_eq_true] at proper
  exact absurd (proper.2 '/' member) (by decide)

theorem pieces_of_slashless (slashless : '/' ∉ name.toList) : pieces name.toList = [name] := by
  simp [pieces, List.splitOn_eq_singleton slashless]

theorem names_of_slashless (filled : name ≠ "") (slashless : '/' ∉ name.toList) :
    names name = [name] := by
  simp [names, pieces_of_slashless slashless, filled]

/-- The pieces of a path are those before a slash and those after it. -/
theorem pieces_append_slash (before after : List Char) :
    pieces (before ++ '/' :: after) = pieces before ++ pieces after := by
  simp [pieces, List.splitOn_append_cons_self]

/-- A base that a name is joined to without a new slash is empty or has one at its end. -/
theorem join_cases (base name : String) :
    (base = "" ∧ join base name = name) ∨
    (∃ before, base.toList = before ++ ['/'] ∧ join base name = base ++ name) ∨
    base ≠ "" ∧ base.toList.getLast? ≠ some '/' ∧ join base name = base ++ "/" ++ name := by
  unfold join
  split
  next empty => exact Or.inl ⟨empty, rfl⟩
  next proper =>
      split
      next slash =>
          obtain ⟨before, split⟩ := List.getLast?_eq_some_iff.1 slash
          exact Or.inr (Or.inl ⟨before, split, rfl⟩)
      next slashless => exact Or.inr (Or.inr ⟨proper, slashless, rfl⟩)

/-- Joining a name to a path adds it to the names. -/
theorem names_join_of_slashless (base : String) (filled : name ≠ "")
    (slashless : '/' ∉ name.toList) : names (join base name) = names base ++ [name] := by
  have single := names_of_slashless filled slashless
  rcases join_cases base name with ⟨rfl, same⟩ | ⟨before, split, same⟩ | ⟨-, -, same⟩
  · rw [same, single]
    rfl
  · have text : (base ++ name).toList = before ++ '/' :: name.toList := by
      rw [String.toList_append, split, List.append_assoc]
      rfl
    have empty : (pieces []).filter (· != "") = [] := by decide
    rw [same, names, text, pieces_append_slash, names, split, pieces_append_slash,
      List.filter_append, List.filter_append, empty, List.append_nil]
    exact congrArg (_ ++ ·) single
  · have text : (base ++ "/" ++ name).toList = base.toList ++ '/' :: name.toList := by
      rw [String.toList_append, String.toList_append, List.append_assoc]
      rfl
    rw [same, names, text, pieces_append_slash, List.filter_append]
    exact congrArg (_ ++ ·) single

/-- A name that is joined to a path is its last name. -/
theorem names_join (base : String) (proper : isName name = true) :
    names (join base name) = names base ++ [name] :=
  names_join_of_slashless base (ne_empty_of_isName proper) (slash_notMem_of_isName proper)

/-- A joined path ends in what was joined to it. -/
theorem exists_join_eq (base name : String) : ∃ before, join base name = before ++ name := by
  rcases join_cases base name with ⟨-, same⟩ | ⟨-, -, same⟩ | ⟨-, -, same⟩
  · exact ⟨"", by rw [same, String.empty_append]⟩
  · exact ⟨_, same⟩
  · exact ⟨_, same⟩

/-- A path that a name was joined to does not end in a slash. -/
theorem getLast?_join (base : String) (filled : name ≠ "") (slashless : '/' ∉ name.toList) :
    (join base name).toList.getLast? ≠ some '/' := by
  obtain ⟨before, same⟩ := exists_join_eq base name
  have proper : name.toList ≠ [] := fun empty => filled (String.toList_eq_nil_iff.1 empty)
  rw [same, String.toList_append, List.getLast?_append_of_ne_nil _ proper]
  intro slash
  exact slashless (List.mem_of_getLast? slash)

theorem join_ne_empty (base : String) (filled : name ≠ "") : join base name ≠ "" := by
  obtain ⟨before, same⟩ := exists_join_eq base name
  intro empty
  rw [same, ← String.toList_eq_nil_iff, String.toList_append, List.append_eq_nil_iff] at empty
  exact filled (String.toList_eq_nil_iff.1 empty.2)

/-- A name at the end of a path asks for no directory. -/
theorem steps_join_of_slashless (base : String) (filled : name ≠ "")
    (slashless : '/' ∉ name.toList) : steps (join base name) = names base ++ [name] := by
  rw [← names_join_of_slashless base filled slashless, steps]
  simp [getLast?_join base filled slashless, names]

/-- A path that a name was joined to asks for no directory. -/
theorem steps_join (base : String) (proper : isName name = true) :
    steps (join base name) = names base ++ [name] :=
  steps_join_of_slashless base (ne_empty_of_isName proper) (slash_notMem_of_isName proper)

theorem isAbsolute_join_of_slashless (base : String) (slashless : '/' ∉ name.toList) :
    isAbsolute (join base name) = isAbsolute base := by
  have head : name.toList.head? ≠ some '/' := fun slash => slashless (List.mem_of_head? slash)
  rcases join_cases base name with ⟨rfl, same⟩ | ⟨before, split, same⟩ | ⟨filled, -, same⟩
  · rw [same, isAbsolute, beq_eq_false_iff_ne.2 head]
    rfl
  · have filled : base.toList ≠ [] := by simp [split]
    rw [same, isAbsolute, isAbsolute, String.toList_append, List.head?_append_of_ne_nil _ filled]
  · have filled : base.toList ≠ [] := fun empty => filled (String.toList_eq_nil_iff.1 empty)
    rw [same, isAbsolute, isAbsolute, String.append_assoc, String.toList_append,
      List.head?_append_of_ne_nil _ filled]

/-- Where a path starts does not change when a name is joined to it. -/
theorem isAbsolute_join (base : String) (proper : isName name = true) :
    isAbsolute (join base name) = isAbsolute base :=
  isAbsolute_join_of_slashless base (slash_notMem_of_isName proper)

theorem dropSlashes_join (base : String) (filled : name ≠ "") (slashless : '/' ∉ name.toList) :
    Disk.dropSlashes (join base name) = join base name := by
  obtain ⟨last, rest, reversed⟩ : ∃ last rest, (join base name).toList.reverse = last :: rest := by
    cases reversed : (join base name).toList.reverse with
    | nil =>
        exact absurd (String.toList_eq_nil_iff.1 (List.reverse_eq_nil_iff.1 reversed))
          (join_ne_empty base filled)
    | cons last rest => exact ⟨last, rest, rfl⟩
  have kept : last ≠ '/' := by
    rintro rfl
    apply getLast?_join base filled slashless
    rw [List.getLast?_eq_head?_reverse, reversed]
    rfl
  unfold Disk.dropSlashes
  rw [reversed, List.dropWhile_cons_of_neg (by simpa using kept)]
  simp only [← reversed, List.reverse_reverse, String.ofList_toList]

theorem dropSlashes_join_of_isName (base : String) (proper : isName name = true) :
    Disk.dropSlashes (join base name) = join base name :=
  dropSlashes_join base (ne_empty_of_isName proper) (slash_notMem_of_isName proper)

/-- Below a path: the path itself, or what a relative path adds to it. -/
def below (base relative : String) : String := if relative = "" then base else join base relative

/-- Joining may add the names to a relative path first. -/
theorem join_join (base : String) {relative : String}
    (slashless : relative.toList.getLast? ≠ some '/') (name : String) :
    join base (join relative name) = join (below base relative) name := by
  by_cases empty : relative = ""
  · simp [below, join, empty]
  · have joined : join relative name = relative ++ "/" ++ name := by
      simp [join, empty, slashless]
    have filled : relative.toList ≠ [] := fun none => empty (String.toList_eq_nil_iff.1 none)
    have extended : ∀ before : String,
        join (before ++ relative) name = before ++ relative ++ "/" ++ name := by
      intro before
      have proper : before ++ relative ≠ "" := by
        intro none
        rw [← String.toList_eq_nil_iff, String.toList_append, List.append_eq_nil_iff] at none
        exact filled none.2
      have last : (before ++ relative).toList.getLast? ≠ some '/' := by
        rw [String.toList_append, List.getLast?_append_of_ne_nil _ filled]
        exact slashless
      rw [join, if_neg proper, if_neg last]
    rw [below, if_neg empty, joined]
    rcases join_cases base relative with ⟨rfl, same⟩ | ⟨before, split, same⟩ | ⟨ne, open', same⟩
    · rw [same, joined]
      rfl
    · have ne : base ≠ "" := by
        rintro rfl
        simp at split
      have slash : base.toList.getLast? = some '/' := by simp [split]
      rw [same, extended, join, if_neg ne, if_pos slash]
      simp only [String.append_assoc]
    · rw [same, extended, join, if_neg ne, if_neg open']
      simp only [String.append_assoc]

theorem getLast?_joinAll {relative : List String} (proper : ∀ name ∈ relative, isName name = true) :
    (joinAll "" relative).toList.getLast? ≠ some '/' := by
  rcases List.eq_nil_or_concat relative with rfl | ⟨before, last, rfl⟩
  · decide
  · rw [joinAll, List.concat_eq_append, List.foldl_append]
    have named := proper last (by simp)
    exact getLast?_join _ (ne_empty_of_isName named) (slash_notMem_of_isName named)

/-- The names that are joined to a path come behind its own, in their order. -/
theorem names_joinAll (base : String) {relative : List String}
    (proper : ∀ name ∈ relative, isName name = true) :
    names (joinAll base relative) = names base ++ relative := by
  induction relative generalizing base with
  | nil => simp [joinAll]
  | cons first rest ih =>
      rw [List.forall_mem_cons] at proper
      have later := ih (join base first) proper.2
      rw [names_join base proper.1, List.append_assoc] at later
      exact later

/-- Of several names the last is joined last. -/
theorem joinAll_concat (base : String) (relative : List String) (name : String) :
    joinAll base (relative ++ [name]) = join (joinAll base relative) name := by
  simp [joinAll]

/-- A relative path tells its names. -/
theorem joinAll_injective {first second : List String}
    (proper : ∀ name ∈ first, isName name = true) (proper' : ∀ name ∈ second, isName name = true)
    (same : joinAll "" first = joinAll "" second) : first = second := by
  have both := congrArg names same
  rw [names_joinAll "" proper, names_joinAll "" proper'] at both
  exact both

end VersionMatrix.Path
