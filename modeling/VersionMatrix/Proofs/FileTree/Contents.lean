import VersionMatrix.Staging.Copy
import Mathlib.Data.List.Induction
import Mathlib.Data.List.Nodup

/-! What a directory holds. It is told by the entries one step below the directory, in whatever order
the tree keeps its entries. -/
namespace VersionMatrix.FileTree

def contents (tree : FileTree) (dir : Location) : List (String × Entry) :=
  (tree.names dir).filterMap fun name => (tree.get? (dir ++ [name])).map (name, ·)

variable {tree other : FileTree} {dir top loc : Location}

theorem mem_names {name : String} :
    name ∈ tree.names dir ↔ ∃ entry, tree.get? (dir ++ [name]) = some entry := by
  have proper : dir ++ [name] ≠ [] := by simp
  simp only [names, perm_sortInOrder.mem_iff, List.mem_filterMap, get?_eq_some_iff proper]
  constructor
  · rintro ⟨⟨loc, entry⟩, member, selected⟩
    split at selected
    next atDir =>
        obtain ⟨before, rfl⟩ := List.getLast?_eq_some_iff.1 selected
        simp only [List.dropLast_concat] at atDir
        exact ⟨entry, atDir ▸ member⟩
    next => cases selected
  · rintro ⟨entry, member⟩
    exact ⟨_, member, by simp⟩

theorem nodup_names (tree : FileTree) (dir : Location) : (tree.names dir).Nodup := by
  refine perm_sortInOrder.nodup_iff.2 ?_
  let last : Location → Option String := fun loc => if loc.dropLast = dir then loc.getLast? else none
  have byLocation : (tree.entries.filterMap fun row =>
      if row.1.dropLast = dir then row.1.getLast? else none) =
        (tree.entries.map (·.1)).filterMap last := by
    rw [List.filterMap_map]
    rfl
  rw [byLocation]
  have whole : ∀ loc name, last loc = some name → loc = dir ++ [name] := by
    intro loc name selected
    simp only [last] at selected
    split at selected
    next atDir =>
        obtain ⟨before, rfl⟩ := List.getLast?_eq_some_iff.1 selected
        rw [List.dropLast_concat] at atDir
        rw [atDir]
    next => cases selected
  refine List.Pairwise.filterMap last ?_ tree.distinct
  rintro first second apart name selected _ selected' rfl
  exact apart ((whole _ _ selected).trans (whole _ _ selected').symm)

/-- The names in a directory are in order. -/
theorem pairwise_names (tree : FileTree) (dir : Location) : (tree.names dir).Pairwise (· ≤ ·) := by
  refine (pairwise_sortInOrder ?_ ?_).imp (by simp)
  · intro first second third
    simpa using String.le_trans
  · intro first second
    simpa using String.le_total first second

/-- Directories in which the same stands have the same names in the same order. -/
theorem names_congr (agree : ∀ name, tree.get? (dir ++ [name]) = other.get? (dir ++ [name])) :
    tree.names dir = other.names dir := by
  refine List.Perm.eq_of_pairwise (fun _ _ _ _ => String.le_antisymm) (pairwise_names tree dir)
    (pairwise_names other dir) ?_
  rw [List.perm_ext_iff_of_nodup (nodup_names _ _) (nodup_names _ _)]
  intro name
  rw [mem_names, mem_names, agree]

theorem contents_congr (agree : ∀ name, tree.get? (dir ++ [name]) = other.get? (dir ++ [name])) :
    tree.contents dir = other.contents dir := by
  simp only [contents, names_congr agree, agree]

/-- A directory holds the entries that stand at its names. -/
theorem mem_contents {name : String} {entry : Entry} :
    (name, entry) ∈ tree.contents dir ↔ tree.get? (dir ++ [name]) = some entry := by
  simp only [contents, List.mem_filterMap, Option.map_eq_some_iff, Prod.mk.injEq]
  constructor
  · rintro ⟨_, -, _, found, rfl, rfl⟩
    exact found
  · intro found
    exact ⟨name, mem_names.2 ⟨entry, found⟩, entry, found, rfl, rfl⟩

theorem nodup_contents (tree : FileTree) (dir : Location) :
    ((tree.contents dir).map (·.1)).Nodup := by
  rw [List.Nodup, List.pairwise_map]
  refine List.Pairwise.filterMap _ ?_ (nodup_names tree dir)
  intro first second apart row found row' found'
  obtain ⟨_, -, rfl⟩ := Option.map_eq_some_iff.1 found
  obtain ⟨_, -, rfl⟩ := Option.map_eq_some_iff.1 found'
  exact apart

/-- The contents stand in the order of their names. -/
theorem pairwise_contents (tree : FileTree) (dir : Location) :
    (tree.contents dir).Pairwise fun row row' => row.1 < row'.1 := by
  have sorted := List.pairwise_and_iff.2 ⟨pairwise_names tree dir, nodup_names tree dir⟩
  refine List.Pairwise.filterMap _ ?_ sorted
  intro first second ⟨before, apart⟩ row found row' found'
  obtain ⟨_, -, rfl⟩ := Option.map_eq_some_iff.1 found
  obtain ⟨_, -, rfl⟩ := Option.map_eq_some_iff.1 found'
  exact String.not_le.1 fun after => apart (String.le_antisymm before after)

theorem isName_of_mem_contents {name : String} {entry : Entry}
    (member : (name, entry) ∈ tree.contents dir) : Path.isName name = true :=
  isName_of_get? (mem_contents.1 member) (List.mem_append_right _ (List.mem_singleton_self name))

/-- Nothing stands below a location where no directory stands. -/
theorem get?_eq_none_of_prefix (missing : tree.get? top ≠ some .directory)
    (below : top <+: loc) (proper : top ≠ loc) : tree.get? loc = none := by
  obtain ⟨rest, rfl⟩ := below
  induction rest using List.reverseRecOn with
  | nil => simp at proper
  | append_singleton rest last ih =>
      rw [← List.append_assoc, ← Option.not_isSome_iff_eq_none, Option.isSome_iff_exists]
      rintro ⟨entry, found⟩
      have parent := get?_dropLast_of_get? found
      rw [List.dropLast_concat] at parent
      by_cases empty : rest = []
      · rw [empty, List.append_nil] at parent
        exact missing parent
      · rw [ih (by simpa using empty)] at parent
        cases parent

/-- Nothing stands below a location at which nothing stands. -/
theorem get?_eq_none_of_absent (absent : tree.get? top = none) (below : top <+: loc) :
    tree.get? loc = none := by
  by_cases same : top = loc
  · exact same ▸ absent
  · exact get?_eq_none_of_prefix (by simp [absent]) below same

/-- Nothing stands below a name that is not among the contents. -/
theorem get?_eq_none_of_unlisted {name : String}
    (unlisted : name ∉ (tree.contents dir).map (·.1)) (below : Location) :
    tree.get? (dir ++ name :: below) = none := by
  have absent : tree.get? (dir ++ [name]) = none := by
    rw [← Option.not_isSome_iff_eq_none, Option.isSome_iff_exists]
    rintro ⟨entry, found⟩
    exact unlisted (List.mem_map.2 ⟨(name, entry), mem_contents.2 found, rfl⟩)
  exact get?_eq_none_of_absent absent ((List.prefix_append_right_inj _).2 (by simp))

theorem names_isEmpty (vacant : ∀ name, tree.get? (dir ++ [name]) = none) :
    (tree.names dir).isEmpty = true := by
  rw [List.isEmpty_iff, List.eq_nil_iff_forall_not_mem]
  intro name member
  obtain ⟨entry, found⟩ := mem_names.1 member
  rw [vacant] at found
  cases found

end VersionMatrix.FileTree
