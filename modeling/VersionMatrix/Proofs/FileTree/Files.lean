import VersionMatrix.Proofs.FileTree.Contents

/-! The regular files below a location, and how their number changes when an entry is put. -/
namespace VersionMatrix

def Entry.isFile : Entry → Bool
  | .file .. => true
  | _ => false

theorem Entry.isFile_iff {entry : Entry} :
    entry.isFile = true ↔ ∃ bytes executable, entry = .file bytes executable := by
  cases entry <;> simp [Entry.isFile]

namespace FileTree

def filesBelow (tree : FileTree) (top : Location) : List Location :=
  (tree.entries.filter fun row => row.2.isFile && isWithin top row.1).map (·.1.drop top.length)

variable {tree : FileTree} {top rel loc : Location} {entry : Entry}

/-- The files below a location are the regular files that stand there. -/
theorem mem_filesBelow : rel ∈ tree.filesBelow top ↔
    ∃ bytes executable, tree.get? (top ++ rel) = some (.file bytes executable) := by
  simp only [filesBelow, List.mem_map, List.mem_filter, Bool.and_eq_true, isWithin_iff,
    Entry.isFile_iff]
  constructor
  · rintro ⟨⟨loc, entry⟩, ⟨member, ⟨bytes, executable, rfl⟩, rest, rfl⟩, rfl⟩
    refine ⟨bytes, executable, ?_⟩
    rw [List.drop_left, get?_eq_some_iff (tree.rootless _ member)]
    exact member
  · rintro ⟨bytes, executable, found⟩
    have proper : top ++ rel ≠ [] := by
      intro root
      rw [root, get?_root] at found
      cases found
    exact ⟨_, ⟨(get?_eq_some_iff proper).1 found, ⟨bytes, executable, rfl⟩,
      List.prefix_append top rel⟩, List.drop_left⟩

/-- No file is counted twice. -/
theorem nodup_filesBelow (tree : FileTree) (top : Location) : (tree.filesBelow top).Nodup := by
  refine List.Nodup.map_on ?_ ((List.Nodup.of_map _ tree.distinct).filter _)
  rintro ⟨loc, entry⟩ member ⟨loc', entry'⟩ member' same
  simp only [List.mem_filter, Bool.and_eq_true, isWithin_iff] at member member' same
  obtain ⟨member, -, rest, rfl⟩ := member
  obtain ⟨member', -, rest', rfl⟩ := member'
  rw [List.drop_left, List.drop_left] at same
  subst same
  have found := lookup_eq_some_of_mem tree.distinct member
  rw [lookup_eq_some_of_mem tree.distinct member'] at found
  rw [Option.some.inj found]

/-- How many files there are does not depend on the order in which the tree keeps its entries. -/
theorem length_filesBelow_congr {other : FileTree}
    (same : ∀ rel, tree.get? (top ++ rel) = other.get? (top ++ rel)) :
    (tree.filesBelow top).length = (other.filesBelow top).length := by
  refine List.Perm.length_eq
    ((List.perm_ext_iff_of_nodup (nodup_filesBelow _ _) (nodup_filesBelow _ _)).2 fun rel => ?_)
  rw [mem_filesBelow, mem_filesBelow, same]

/-- A file that is put where nothing stood is one more, and no other entry is. -/
theorem length_filesBelow_put (room : tree.hasRoom loc = true) (absent : tree.get? loc = none)
    (inside : top <+: loc) :
    ((tree.put loc entry).filesBelow top).length =
      (tree.filesBelow top).length + if entry.isFile then 1 else 0 := by
  have entries : (tree.put loc entry).entries = (loc, entry) :: tree.entries := by
    rw [put, dif_pos room]
    refine congrArg _ (List.filter_eq_self.2 fun row member => bne_iff_ne.2 ?_)
    rintro rfl
    cases absent.symm.trans ((get?_eq_some_iff (tree.rootless row member)).2 member)
  have within : isWithin top loc = true := isWithin_iff.2 inside
  rw [filesBelow, filesBelow, List.length_map, List.length_map, entries, List.filter_cons]
  cases isFile : entry.isFile <;> simp [within]

theorem filesBelow_of_absent (absent : tree.get? top = none) : tree.filesBelow top = [] := by
  refine List.eq_nil_iff_forall_not_mem.2 fun rel member => ?_
  obtain ⟨bytes, executable, found⟩ := mem_filesBelow.1 member
  cases (get?_eq_none_of_absent absent (List.prefix_append top rel)).symm.trans found

end FileTree

end VersionMatrix
