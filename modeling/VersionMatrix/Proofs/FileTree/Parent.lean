import VersionMatrix.Proofs.FileTree.Names

/-! The path of a containing directory. Its names are the first names of the path. -/
namespace VersionMatrix.Path

variable {path parent : String} {text more : List Char} {first rest : List (List Char)}

theorem intercalate_append (proper : first ≠ []) (proper' : rest ≠ []) :
    ['/'].intercalate (first ++ rest) =
      ['/'].intercalate first ++ '/' :: ['/'].intercalate rest := by
  induction first with
  | nil => exact absurd rfl proper
  | cons piece first ih =>
      cases first with
      | nil => simp [List.intercalate_cons_of_ne_nil proper']
      | cons next first =>
          rw [List.cons_append, List.cons_append, List.intercalate_cons_cons, ← List.cons_append,
            ih (List.cons_ne_nil _ _), List.intercalate_cons_cons]
          simp

theorem names_of_split (split : path.toList = parent.toList ++ '/' :: more) :
    names path = names parent ++ (pieces more).filter (· != "") := by
  rw [names, split, pieces_append_slash, List.filter_append]
  rfl

/-- A path starts with a slash, is or starts with a point, or has no anchor. -/
theorem anchor_cases (text : List Char) :
    (∃ more, text = '/' :: more ∧ anchor text = ['/']) ∨
      (text = ['.'] ∨ ∃ more, text = '.' :: '/' :: more) ∧ anchor text = ['.'] ∨
      text.head? ≠ some '/' ∧ anchor text = [] := by
  unfold anchor
  split
  next more => exact Or.inl ⟨more, rfl, rfl⟩
  next => exact Or.inr (Or.inl ⟨Or.inl rfl, rfl⟩)
  next more => exact Or.inr (Or.inl ⟨Or.inr ⟨more, rfl⟩, rfl⟩)
  next slashless _ _ =>
      refine Or.inr (Or.inr ⟨fun slash => ?_, rfl⟩)
      obtain ⟨more, rfl⟩ := List.head?_eq_some_iff.1 slash
      exact slashless more rfl

theorem anchor_append_drop (text : List Char) :
    anchor text ++ text.drop (anchor text).length = text := by
  rcases anchor_cases text with ⟨more, rfl, same⟩ | ⟨rfl | ⟨more, rfl⟩, same⟩ | ⟨-, same⟩ <;>
    simp [same]

theorem names_eq_nil (none : (pieces parent.toList).filter (· != "") = []) :
    ∃ more, names path = names parent ++ more :=
  ⟨names path, by rw [names, names, none, List.nil_append]⟩

/-- The anchor alone names as much of the path as it is. -/
theorem names_of_anchor (same : parent.toList = anchor path.toList) :
    (∃ more, names path = names parent ++ more) ∧ isAbsolute parent = isAbsolute path := by
  rcases anchor_cases path.toList with ⟨_, split, anchored⟩ | ⟨dotted, anchored⟩ | ⟨open', anchored⟩
  · rw [anchored] at same
    exact ⟨names_eq_nil (by rw [same]; decide), by simp [isAbsolute, same, split]⟩
  · rw [anchored] at same
    rcases dotted with split | ⟨more, split⟩
    · refine ⟨⟨[], ?_⟩, by simp [isAbsolute, same, split]⟩
      rw [names, names, split, same, List.append_nil]
    · refine ⟨⟨_, names_of_split (by rw [split, same]; rfl)⟩, by simp [isAbsolute, same, split]⟩
  · rw [anchored] at same
    refine ⟨names_eq_nil (by rw [same]; decide), ?_⟩
    rw [isAbsolute, isAbsolute, same, beq_eq_false_iff_ne.2 open']
    rfl

/-- The pieces that are left of a path when those at its end are taken off. -/
theorem exists_append_of_dropWhile {pieces kept : List (List Char)} {last : List Char}
    (stripped : pieces.reverse.dropWhile isIdle = last :: kept) :
    ∃ rest, rest ≠ [] ∧ pieces = (kept.dropWhile isIdle).reverse ++ rest := by
  have whole : pieces.reverse = pieces.reverse.takeWhile isIdle ++
      last :: (kept.takeWhile isIdle ++ kept.dropWhile isIdle) := by
    rw [List.takeWhile_append_dropWhile, ← stripped, List.takeWhile_append_dropWhile]
  have reversed := congrArg List.reverse whole
  rw [List.reverse_reverse, List.reverse_append, List.reverse_cons, List.reverse_append,
    List.append_assoc, List.append_assoc] at reversed
  exact ⟨_, by simp, reversed⟩

/-- The path of a containing directory ends before a slash in the path, or it is the anchor, or the path
has nothing but a leading point to step through. -/
theorem split_of_parent? (found : parent? path = some parent) :
    parent.toList = anchor path.toList ∨
      (parent.toList ≠ [] ∧ ∃ more, path.toList = parent.toList ++ '/' :: more) ∨
      parent = "" ∧ anchor path.toList = ['.'] := by
  unfold parent? at found
  simp only at found
  split at found
  next last kept stripped =>
      obtain ⟨rest, proper, pieces⟩ := exists_append_of_dropWhile stripped
      have text : parent.toList = anchor path.toList ++
          ['/'].intercalate (kept.dropWhile isIdle).reverse := by
        rw [← Option.some.inj found, String.toList_ofList]
      by_cases empty : (kept.dropWhile isIdle).reverse = []
      · rw [empty, List.intercalate_nil, List.append_nil] at text
        exact Or.inl text
      have split : path.toList = parent.toList ++ '/' :: ['/'].intercalate rest := by
        rw [text, List.append_assoc, ← intercalate_append empty proper, ← pieces,
          List.intercalate_splitOn, anchor_append_drop]
      refine Or.inr (Or.inl ⟨fun none => ?_, _, split⟩)
      rw [none, List.nil_append] at split
      rw [split] at text
      rw [none] at text
      exact absurd text.symm (by simp [anchor])
  next =>
      split at found
      next dotted => exact Or.inr (Or.inr ⟨(Option.some.inj found).symm, dotted⟩)
      next => cases found

/-- The path of a containing directory starts where the path starts, and its names come first there. -/
theorem names_of_parent? (found : parent? path = some parent) :
    (∃ more, names path = names parent ++ more) ∧ isAbsolute parent = isAbsolute path := by
  rcases split_of_parent? found with same | ⟨filled, more, split⟩ | ⟨rfl, dotted⟩
  · exact names_of_anchor same
  · refine ⟨⟨_, names_of_split split⟩, ?_⟩
    rw [isAbsolute, isAbsolute, split, List.head?_append_of_ne_nil _ filled]
  · refine ⟨names_eq_nil (by decide), ?_⟩
    rcases anchor_cases path.toList with ⟨_, _, slash⟩ | ⟨split | ⟨_, split⟩, _⟩ | ⟨_, none⟩
    · rw [slash] at dotted
      cases dotted
    · simp [isAbsolute, split]
    · simp [isAbsolute, split]
    · rw [none] at dotted
      cases dotted

variable {base name : String}

/-- A name is the last piece of a path that it has been joined to. -/
theorem exists_pieces_join (base : String) (slashless : '/' ∉ name.toList) :
    ∃ before, pieces (join base name).toList = before ++ [name] := by
  have single := pieces_of_slashless slashless
  rcases join_cases base name with ⟨-, same⟩ | ⟨before, split, same⟩ | ⟨-, -, same⟩
  · exact ⟨[], by rw [same, single, List.nil_append]⟩
  · refine ⟨pieces before, ?_⟩
    rw [same, String.toList_append, split, List.append_assoc, List.singleton_append,
      pieces_append_slash, single]
  · refine ⟨pieces base.toList, ?_⟩
    rw [same, String.append_assoc, String.toList_append, String.toList_append]
    exact (pieces_append_slash _ _).trans (congrArg (_ ++ ·) single)

/-- The name that a path ends in is not in the path of the containing directory. -/
theorem names_ne_of_parent?_join (proper : isName name = true)
    (found : parent? (join base name) = some parent) : names parent ≠ names base ++ [name] := by
  intro same
  have holds : ∀ texts, names parent = texts → name ∈ texts := fun texts listed => by
    rw [← listed, same]
    exact List.mem_append_right _ (List.mem_singleton_self name)
  rcases split_of_parent? found with text | ⟨-, more, split⟩ | ⟨rfl, -⟩
  · rcases anchor_cases (join base name).toList with ⟨_, _, anchored⟩ | ⟨_, anchored⟩ | ⟨_, anchored⟩
    · exact List.not_mem_nil (holds [] (by rw [names, text, anchored]; decide))
    · have dot := holds ["."] (by rw [names, text, anchored]; decide)
      exact ne_dot_of_isName proper (List.mem_singleton.1 dot)
    · exact List.not_mem_nil (holds [] (by rw [names, text, anchored]; decide))
  · -- The last piece of the whole path is the name, and it comes after the slash.
    obtain ⟨before, pieces_eq⟩ := exists_pieces_join base (slash_notMem_of_isName proper)
    rw [split, pieces_append_slash] at pieces_eq
    have later := names_of_split split
    rw [names_join base proper, same] at later
    have empty := List.self_eq_append_right.1 later
    have filled : pieces more ≠ [] := by simp [pieces, List.splitOn_ne_nil]
    have last : name ∈ pieces more := by
      have both := congrArg List.getLast? pieces_eq
      rw [List.getLast?_append_of_ne_nil _ filled, List.getLast?_concat] at both
      exact List.mem_of_getLast? both
    exact List.filter_eq_nil_iff.1 empty name last (by simp [ne_empty_of_isName proper])
  · exact List.not_mem_nil (holds [] (by decide))

/-- The names in the path of the directory that contains a name come first in the path that the name
was joined to. -/
theorem names_of_parent?_join (proper : isName name = true)
    (found : parent? (join base name) = some parent) :
    (∃ more, names base = names parent ++ more) ∧ isAbsolute parent = isAbsolute base := by
  obtain ⟨⟨more, longer⟩, same⟩ := names_of_parent? found
  rw [names_join base proper] at longer
  refine ⟨?_, same.trans (isAbsolute_join base proper)⟩
  rcases List.eq_nil_or_concat more with rfl | ⟨more, last, rfl⟩
  · exact absurd (by rw [longer, List.append_nil]) (names_ne_of_parent?_join proper found)
  · rw [List.concat_eq_append, ← List.append_assoc] at longer
    exact ⟨more, (List.append_inj' longer rfl).1⟩

end VersionMatrix.Path
