import VersionMatrix.Proofs.FileTree.Operations
import Mathlib.Data.List.TakeWhile

/-! Slashes at the end of a path. They ask for a directory and change neither the names in the path nor
where it starts, so what a path names does not depend on them unless a link stands there. -/
namespace VersionMatrix

open FileTree Disk

variable {disk : Disk} {hidden : Location → Prop} {path base name : String} {dir loc : Location}

namespace Path

/-- A path is what is left without the slashes at its end, and these. -/
theorem exists_eq_dropSlashes_append (path : String) :
    ∃ count, path.toList = (dropSlashes path).toList ++ List.replicate count '/' := by
  have slashes : path.toList.reverse.takeWhile (· == '/') =
      List.replicate (path.toList.reverse.takeWhile (· == '/')).length '/' := by
    refine List.eq_replicate_iff.2 ⟨rfl, fun c member => ?_⟩
    simpa using List.mem_takeWhile_imp member
  have whole := @List.takeWhile_append_dropWhile _ (· == '/') path.toList.reverse
  unfold dropSlashes
  split
  next => exact ⟨0, (List.append_nil _).symm⟩
  next kept _ =>
      refine ⟨(path.toList.reverse.takeWhile (· == '/')).length, ?_⟩
      rw [String.toList_ofList, ← List.reverse_replicate, ← slashes, ← List.reverse_append, whole,
        List.reverse_reverse]

theorem filter_pieces_append (text : List Char) (count : Nat) :
    (pieces (text ++ List.replicate count '/')).filter (· != "") =
      (pieces text).filter (· != "") := by
  induction count with
  | zero => simp
  | succ count ih =>
      have empty : (pieces []).filter (· != "") = [] := by decide
      rw [List.replicate_succ', ← List.append_assoc, pieces_append_slash, List.filter_append, ih,
        empty, List.append_nil]

/-- The slashes at the end of a path name nothing. -/
theorem names_dropSlashes (path : String) : names (dropSlashes path) = names path := by
  obtain ⟨count, text⟩ := exists_eq_dropSlashes_append path
  rw [names, names, text, filter_pieces_append]

theorem dropSlashes_ne_empty (filled : path ≠ "") : dropSlashes path ≠ "" := by
  unfold dropSlashes
  split
  next => exact filled
  next kept proper =>
      intro empty
      rw [← String.toList_eq_nil_iff, String.toList_ofList, List.reverse_eq_nil_iff] at empty
      exact proper empty

/-- Where a path starts does not hang on the slashes at its end. -/
theorem isAbsolute_dropSlashes (path : String) :
    isAbsolute (dropSlashes path) = isAbsolute path := by
  by_cases empty : path = ""
  · subst empty
    rfl
  · obtain ⟨count, text⟩ := exists_eq_dropSlashes_append path
    have filled : (dropSlashes path).toList ≠ [] := fun none =>
      dropSlashes_ne_empty empty (String.toList_eq_nil_iff.1 none)
    rw [isAbsolute, isAbsolute, text, List.head?_append_of_ne_nil _ filled]

theorem nul_notMem_of_dropSlashes (sound : '\x00' ∉ (dropSlashes path).toList) :
    '\x00' ∉ path.toList := by
  obtain ⟨count, text⟩ := exists_eq_dropSlashes_append path
  rw [text, List.mem_append, List.mem_replicate]
  rintro (inside | ⟨-, same⟩)
  · exact sound inside
  · exact absurd same (by decide)

/-- A text without a slash at its end is what is joined to the text up to its last slash. -/
theorem exists_join_eq_of_reverse {last : Char} {rest : List Char} (proper : last ≠ '/') :
    ∃ base name, String.ofList (last :: rest).reverse = join base name ∧ name ≠ "" ∧
      '/' ∉ name.toList := by
  have slashless : '/' ∉ (last :: rest).takeWhile (· != '/') := fun member => by
    simpa using List.mem_takeWhile_imp member
  have whole := @List.takeWhile_append_dropWhile _ (· != '/') (last :: rest)
  have before := List.head?_dropWhile_not (· != '/') (last :: rest)
  refine ⟨String.ofList ((last :: rest).dropWhile (· != '/')).reverse,
    String.ofList ((last :: rest).takeWhile (· != '/')).reverse, ?_, ?_, ?_⟩
  · rw [← String.toList_inj, String.toList_ofList]
    conv_lhs => rw [← whole, List.reverse_append]
    cases remaining : (last :: rest).dropWhile (· != '/') with
    | nil => simp [join]
    | cons slash more =>
        rw [remaining] at before
        obtain rfl : slash = '/' := by simpa using before
        have filled : String.ofList ('/' :: more).reverse ≠ "" := by
          simp [← String.toList_eq_nil_iff]
        rw [join, if_neg filled, if_pos (by simp), String.toList_append, String.toList_ofList,
          String.toList_ofList]
  · simp [← String.toList_eq_nil_iff, proper]
  · simpa using slashless

/-- A path with a name in it is one that the name is joined to, but for the slashes at the end. -/
theorem exists_dropSlashes_eq_join (proper : names path ≠ []) :
    ∃ base name, dropSlashes path = join base name ∧ name ≠ "" ∧ '/' ∉ name.toList := by
  have stops := List.head?_dropWhile_not (· == '/') path.toList.reverse
  cases kept : path.toList.reverse.dropWhile (· == '/') with
  | nil =>
      -- A path of slashes alone names nothing.
      obtain ⟨count, text⟩ : ∃ count, path.toList = List.replicate count '/' := by
        refine ⟨path.toList.length, List.eq_replicate_iff.2 ⟨rfl, fun c member => ?_⟩⟩
        simpa using List.dropWhile_eq_nil_iff.1 kept c (List.mem_reverse.2 member)
      have none := filter_pieces_append [] count
      rw [List.nil_append, ← text] at none
      exact absurd none proper
  | cons last rest =>
      rw [kept] at stops
      obtain ⟨base, name, joined⟩ :=
        @exists_join_eq_of_reverse last rest (by simpa using stops)
      refine ⟨base, name, ?_⟩
      unfold dropSlashes
      rw [kept]
      exact joined

end Path

namespace Disk

/-- A path opens the same directory with slashes at its end and without. -/
theorem opens_dropSlashes :
    disk.Opens hidden (dropSlashes path) dir ↔ disk.Opens hidden path dir := by
  rw [Opens, Opens, origin, origin, Path.isAbsolute_dropSlashes, Path.names_dropSlashes]

theorem origin_of_dropSlashes (disk : Disk) (text : dropSlashes path = Path.join base name)
    (slashless : '/' ∉ name.toList) : disk.origin path = disk.origin base := by
  rw [origin, origin, ← Path.isAbsolute_dropSlashes, text,
    Path.isAbsolute_join_of_slashless base slashless]

/-- What comes after the last name of a path is at most a step that leads nowhere. -/
theorem exists_steps_eq (text : dropSlashes path = Path.join base name) (filled : name ≠ "")
    (slashless : '/' ∉ name.toList) :
    ∃ ending, (ending = [] ∨ ending = [""]) ∧
      Path.steps path = Path.names base ++ name :: ending := by
  have names : Path.names path = Path.names base ++ [name] := by
    rw [← Path.names_dropSlashes, text, Path.names_join_of_slashless base filled slashless]
  rcases Path.steps_eq_names_or path with same | slash
  · exact ⟨[], Or.inl rfl, by rw [same, names]⟩
  · exact ⟨[""], Or.inr rfl, by rw [slash, names, List.append_assoc]; rfl⟩

/-- Only a name of a directory can be free. -/
theorem isName_of_vacant {there : Location} {other : String} {asDirectory : Bool}
    (filled : name ≠ "") (slashless : '/' ∉ name.toList)
    (resolved : disk.resolve .itself (Path.join base name) = .ok (.vacant there other asDirectory)) :
    Path.isName name = true := by
  have goesOn : GoesOn [name] := ⟨name, List.mem_singleton_self name, filled⟩
  obtain ⟨sound, -, walked⟩ := fault?_of_resolve resolved
  rw [Path.steps_join_of_slashless base filled slashless] at walked
  obtain ⟨left, dir, leads⟩ := exists_leads_of_walk_append goesOn walked
  rw [leads.walk_append (fun _ _ found => found) goesOn] at walked
  have notDot : name ≠ "." := by
    rintro rfl
    rw [walk_stay (Or.inr rfl), walk_nil] at walked
    cases walked
  have notDots : name ≠ ".." := by
    rintro rfl
    rw [walk_up, walk_nil] at walked
    cases walked
  have nulFree : '\x00' ∉ name.toList := by
    intro member
    obtain ⟨before, joined⟩ := Path.exists_join_eq base name
    rw [Path.fault?, if_pos] at sound
    · cases sound
    · rw [joined, String.toList_append]
      exact List.mem_append_right _ member
  simp only [Path.isName, Bool.and_eq_true, bne_iff_ne, ne_eq, List.all_eq_true]
  refine ⟨⟨⟨filled, notDot⟩, notDots⟩, fun c member => ⟨?_, ?_⟩⟩
  · rintro rfl
    exact slashless member
  · rintro rfl
    exact nulFree member

section

variable (text : dropSlashes path = Path.join base name) (sound : Path.fault? path = none)
  (proper : Path.isName name = true) (short : name.utf8ByteSize ≤ nameLimit)
  (opens : disk.Opens hidden base dir)

include text sound proper short opens

/-- Where nothing stands or a directory does, the slashes at the end of a path do not matter, unless a
file is to be created there. -/
theorem resolve_of_dropSlashes {approach : Approach} (looking : approach ≠ .creating) :
    (disk.tree.get? (dir ++ [name]) = none →
      ∃ asDirectory, disk.resolve approach path = .ok (.vacant dir name asDirectory)) ∧
    (disk.tree.get? (dir ++ [name]) = some .directory →
      disk.resolve approach path = .ok (.entry (dir ++ [name]) .directory)) := by
  obtain ⟨start, left, leads⟩ := opens
  have filled := Path.ne_empty_of_isName proper
  have slashless := Path.slash_notMem_of_isName proper
  obtain ⟨ending, idle, steps⟩ := exists_steps_eq text filled slashless
  have goesOn : GoesOn (name :: ending) := ⟨name, List.mem_cons_self, filled⟩
  have asked : asksDirectory approach ending = false := by simp [asksDirectory, looking]
  have resolved : disk.resolve approach path = disk.tree.walk approach left dir (name :: ending) := by
    rw [resolve_eq, sound, steps, disk.origin_of_dropSlashes text slashless]
    simp only [start.2, ne_eq, not_true_eq_false, if_false]
    exact leads.walk_append (fun _ _ shown => shown.2) goesOn
  rw [resolved, walk_name (.of_isName proper short) asked]
  constructor
  · intro free
    rw [free]
    rcases idle with rfl | rfl <;> exact ⟨_, rfl⟩
  · intro found
    rw [found]
    rcases idle with rfl | rfl
    · exact walk_nil
    · exact (walk_stay (Or.inl rfl)).trans walk_nil

/-- A path with slashes at its end names what it names without them, unless a link or a file stands
there. -/
theorem place?_of_dropSlashes (free : disk.tree.get? (dir ++ [name]) = none ∨
    disk.tree.get? (dir ++ [name]) = some .directory) : disk.place? path = some (dir ++ [name]) := by
  obtain ⟨vacant, stands⟩ := resolve_of_dropSlashes text sound proper short opens
    (show Approach.itself ≠ .creating by decide)
  rw [place?]
  rcases free with free | found
  · obtain ⟨asDirectory, resolved⟩ := vacant free
    rw [resolved]
  · rw [stands found]

/-- A directory is removed by its path whether slashes follow or not. -/
theorem removeTree_of_dropSlashes (found : disk.tree.get? (dir ++ [name]) = some .directory)
    (sound' : Path.fault? (Path.join base name) = none) :
    disk.removeTree path = disk.removeTree (Path.join base name) := by
  have whole := Path.dropSlashes_join_of_isName base proper
  have names : ((Path.steps path).filter (· != "")) =
      (Path.steps (Path.join base name)).filter (· != "") := by
    rw [Path.filter_steps, Path.filter_steps, ← Path.names_dropSlashes, text]
  have removes : ∀ disk : Disk,
      disk.removeDirectory path = disk.removeDirectory (Path.join base name) := by
    intro disk
    have last : ((Path.steps (Path.join base name)).filter (· != "")).getLast? = some name := by
      rw [Path.filter_steps, Path.names_join base proper, List.getLast?_concat]
    unfold removeDirectory
    rw [names, last, text, whole]
    split
    next dot => exact absurd (Option.some.inj dot) (Path.ne_dot_of_isName proper)
    next dots => exact absurd (Option.some.inj dots) (Path.ne_dots_of_isName proper)
    next => rfl
  rw [removeTree, removeTree, Disk.find, Disk.find,
    (resolve_of_dropSlashes text sound proper short opens (by decide)).2 found,
    (resolve_of_dropSlashes whole sound' proper short opens (by decide)).2 found]
  simp only [bind, Except.bind, pure, Except.pure, removes]

end

end Disk

end VersionMatrix
