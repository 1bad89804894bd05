import VersionMatrix.Proofs.FileTree.Parent
import VersionMatrix.Proofs.Text.Trim
import Mathlib.Data.List.TakeWhile

/-! The components of a path: the root slash or the point that it starts with, if it does, and the steps
after that. Spellings of a path that differ in slashes and points that lead nowhere have the same
components. -/
namespace VersionMatrix.Path

variable {text more name : List Char} {pieces : List (List Char)} {base : String}

/-- The steps in a part of a path, without pieces that are none of their own. -/
def stepsOf (text : List Char) : List (List Char) := (text.splitOn '/').filter fun piece => !isIdle piece

def componentsOf (text : List Char) : List (List Char) :=
  (if anchor text = [] then [] else [anchor text]) ++ stepsOf (text.drop (anchor text).length)

def components (path : String) : List String := (componentsOf path.toList).map String.ofList

/-- A text that is a component of a path wherever it stands in one: it has no slash in it, and it neither
is empty nor a point. -/
structure IsComponent (name : List Char) : Prop where
  filled : name ≠ []
  moves : name ≠ ['.']
  slashless : '/' ∉ name

theorem IsComponent.isIdle_eq_false (component : IsComponent name) : isIdle name = false := by
  simp [isIdle, component.filled, component.moves]

theorem IsComponent.splitOn (component : IsComponent name) : name.splitOn '/' = [name] :=
  List.splitOn_eq_singleton component.slashless

theorem IsComponent.stepsOf (component : IsComponent name) : stepsOf name = [name] := by
  simp [Path.stepsOf, component.splitOn, component.isIdle_eq_false]

theorem IsComponent.anchor (component : IsComponent name) : anchor name = [] := by
  rcases anchor_cases name with ⟨more, rfl, -⟩ | ⟨rfl | ⟨more, rfl⟩, -⟩ | ⟨-, none⟩
  · exact absurd component.slashless (by simp)
  · exact absurd rfl component.moves
  · exact absurd component.slashless (by simp)
  · exact none

@[simp] theorem stepsOf_nil : stepsOf [] = [] := by decide

/-- The steps of a path are those before a slash and those after it. -/
theorem stepsOf_append (text more : List Char) :
    stepsOf (text ++ '/' :: more) = stepsOf text ++ stepsOf more := by
  rw [stepsOf, List.splitOn_append_cons_self, List.filter_append]
  rfl

theorem anchor_anchor (text : List Char) : anchor (anchor text) = anchor text := by
  rcases anchor_cases text with ⟨_, -, same⟩ | ⟨-, same⟩ | ⟨-, same⟩ <;> rw [same] <;> rfl

/-- What a path starts with is told before its first slash. -/
theorem anchor_append (filled : text ≠ []) : anchor (text ++ '/' :: more) = anchor text := by
  rcases anchor_cases text with ⟨rest, rfl, same⟩ | ⟨rfl | ⟨rest, rfl⟩, same⟩ | ⟨slashless, same⟩
  · rfl
  · rfl
  · rfl
  · rw [same]
    obtain ⟨c, rest, rfl⟩ := List.exists_cons_of_ne_nil filled
    by_cases dot : c = '.'
    · subst dot
      cases rest with
      | nil => cases same
      | cons d rest =>
          have proper : d ≠ '/' := by rintro rfl; cases same
          simp [anchor, proper]
    · have proper : c ≠ '/' := by rintro rfl; cases same
      simp [anchor, proper, dot]

theorem length_anchor_le (text : List Char) : (anchor text).length ≤ text.length := by
  have whole := congrArg List.length (anchor_append_drop text)
  rw [List.length_append] at whole
  omega

/-- What comes after a slash adds its steps to the components before it. -/
theorem componentsOf_append (filled : text ≠ []) :
    componentsOf (text ++ '/' :: more) = componentsOf text ++ stepsOf more := by
  rw [componentsOf, componentsOf, anchor_append filled,
    List.drop_append_of_le_length (length_anchor_le text), stepsOf_append, List.append_assoc]

theorem IsComponent.componentsOf (component : IsComponent name) : componentsOf name = [name] := by
  rw [Path.componentsOf, component.anchor, if_pos rfl]
  exact component.stepsOf

/-- Joining a component to a path adds it at the end. -/
theorem componentsOf_join {name : String} (component : IsComponent name.toList) (base : String) :
    componentsOf (join base name).toList = componentsOf base.toList ++ [name.toList] := by
  rcases join_cases base name with ⟨rfl, same⟩ | ⟨before, split, same⟩ | ⟨filled, -, same⟩
  · rw [same, component.componentsOf]
    rfl
  · rw [same, String.toList_append, split, List.append_assoc, List.singleton_append]
    cases before with
    | nil =>
        have rooted : componentsOf ('/' :: name.toList) = ['/'] :: stepsOf name.toList := rfl
        rw [List.nil_append, rooted, component.stepsOf]
        rfl
    | cons c before =>
        rw [componentsOf_append (List.cons_ne_nil c before), componentsOf_append (List.cons_ne_nil c before),
          stepsOf_nil, List.append_nil, component.stepsOf]
  · have text : (base ++ "/" ++ name).toList = base.toList ++ '/' :: name.toList := by
      rw [String.toList_append, String.toList_append, List.append_assoc]
      rfl
    rw [same, text, componentsOf_append (by simpa using filled), component.stepsOf]

/-- A name that is joined to a path is one component more. -/
theorem components_join {name : String} (component : IsComponent name.toList) (base : String) :
    components (join base name) = components base ++ [name] := by
  rw [components, componentsOf_join component, List.map_append, List.map_singleton, String.ofList_toList]
  rfl

/-- The pieces at the end of a path that lead nowhere are no steps. -/
theorem filter_dropWhile_reverse (pieces : List (List Char)) :
    (pieces.reverse.dropWhile isIdle).reverse.filter (fun piece => !isIdle piece) =
      pieces.filter fun piece => !isIdle piece := by
  have idle : (pieces.reverse.takeWhile isIdle).filter (fun piece => !isIdle piece) = [] :=
    List.filter_eq_nil_iff.2 fun piece member => by simp [List.mem_takeWhile_imp member]
  conv_rhs =>
    rw [← List.reverse_reverse pieces,
      ← List.takeWhile_append_dropWhile (p := isIdle) (l := pieces.reverse), List.reverse_append,
      List.filter_append, List.filter_reverse (l := List.takeWhile _ _), idle, List.reverse_nil,
      List.append_nil]

/-- Between slashes only the pieces count that are steps of their own. -/
theorem stepsOf_intercalate (slashless : ∀ piece ∈ pieces, '/' ∉ piece) :
    stepsOf (['/'].intercalate pieces) = pieces.filter fun piece => !isIdle piece := by
  by_cases empty : pieces = []
  · subst empty
    rfl
  · rw [stepsOf, List.splitOn_intercalate '/' slashless empty]

/-- The parent of a path has the anchor of the path, if that is still in front of it. -/
theorem anchor_of_parent? {path parent : String} (found : parent? path = some parent)
    (same : anchor path.toList <+: parent.toList) : anchor parent.toList = anchor path.toList := by
  rcases split_of_parent? found with text | ⟨filled, more, split⟩ | ⟨rfl, dotted⟩
  · rw [text, anchor_anchor]
  · rw [split, anchor_append filled]
  · rw [dotted] at same
    cases List.prefix_nil.1 same

theorem slash_notMem_of_body {last piece : List Char} {rest : List (List Char)}
    (body : (text.splitOn '/').reverse.dropWhile isIdle = last :: rest)
    (member : piece ∈ (rest.dropWhile isIdle).reverse) : '/' ∉ piece := by
  intro slash
  have inBody : piece ∈ last :: rest :=
    List.mem_cons_of_mem _ ((List.dropWhile_suffix isIdle).mem (List.mem_reverse.1 member))
  have inText := List.mem_reverse.1 ((List.dropWhile_suffix isIdle).mem (body ▸ inBody))
  simpa using Text.of_mem_splitOnP inText '/' slash

/-- The steps of a path are those of what is left without its last step, and that step. -/
theorem stepsOf_of_body {last : List Char} {rest : List (List Char)}
    (body : (text.splitOn '/').reverse.dropWhile isIdle = last :: rest) :
    stepsOf text = stepsOf (['/'].intercalate (rest.dropWhile isIdle).reverse) ++ [last] := by
  have moves := List.head?_dropWhile_not isIdle (text.splitOn '/').reverse
  rw [body, List.head?_cons] at moves
  have kept := filter_dropWhile_reverse rest.reverse
  rw [List.reverse_reverse, ← stepsOf_intercalate fun _ => slash_notMem_of_body body] at kept
  rw [stepsOf, ← filter_dropWhile_reverse, body, List.reverse_cons, List.filter_append, kept,
    List.filter_cons_of_pos (by simp only [moves, Bool.not_false]), List.filter_nil]

/-- A path with a step in it has a containing directory, with all components of the path but the last. -/
theorem exists_parent? {path : String}
    (proper : stepsOf (path.toList.drop (anchor path.toList).length) ≠ []) :
    ∃ parent last, parent? path = some parent ∧
      componentsOf path.toList = componentsOf parent.toList ++ [last] := by
  cases body : ((path.toList.drop (anchor path.toList).length).splitOn '/').reverse.dropWhile isIdle with
  | nil =>
      rw [stepsOf, ← filter_dropWhile_reverse, body] at proper
      exact absurd rfl proper
  | cons last rest =>
      have found : parent? path = some (String.ofList
          (anchor path.toList ++ ['/'].intercalate (rest.dropWhile isIdle).reverse)) := by
        simp only [parent?, body]
      have anchored := anchor_of_parent? found (by simp)
      refine ⟨_, last, found, ?_⟩
      rw [componentsOf, componentsOf, anchored, String.toList_ofList, List.drop_left,
        stepsOf_of_body body, List.append_assoc]

/-- A path that a component was joined to has a containing directory, with the components before it. -/
theorem exists_parent?_join {name : String} (component : IsComponent name.toList) (base : String) :
    ∃ parent, parent? (join base name) = some parent ∧ components parent = components base := by
  have joined := componentsOf_join component base
  obtain ⟨parent, last, found, same⟩ := @exists_parent? (join base name) <| by
    intro none
    rw [componentsOf, none, List.append_nil] at joined
    have member : name.toList ∈ (if anchor (join base name).toList = [] then [] else
        [anchor (join base name).toList]) := joined ▸ List.mem_append_right _ (List.mem_singleton_self _)
    split at member
    next => cases member
    next =>
        have anchored := List.mem_singleton.1 member
        have none := component.anchor
        rw [anchored, anchor_anchor, ← anchored] at none
        exact component.filled none
  exact ⟨parent, found, congrArg (List.map String.ofList)
    (List.append_inj' (same.symm.trans joined) rfl).1⟩

end VersionMatrix.Path
