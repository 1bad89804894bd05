import VersionMatrix.FileTree.Path
import VersionMatrix.Order

/-!
File trees: directories, regular files, symbolic links and sockets, each at its location. The tree
keeps three facts by itself: a location holds one entry, every step of it is a name, and what
contains an entry is a directory.
-/

namespace VersionMatrix

/-- Where an entry stands: the names from the root down to it. The root itself is `[]`. -/
abbrev Location := List String

inductive Entry where
  | directory
  | file (bytes : List UInt8) (executable : Bool)
  | link (target : String)
  | socket
deriving DecidableEq, Repr

/-- A tree of entries. The root is a directory that is always there and is not listed. -/
structure FileTree where
  entries : List (Location × Entry) := []
  distinct : (entries.map (·.1)).Nodup := by decide
  rootless : ∀ row ∈ entries, row.1 ≠ [] := by decide
  named : ∀ row ∈ entries, ∀ name ∈ row.1, Path.isName name = true := by decide
  contained : ∀ row ∈ entries, row.1.dropLast = [] ∨ (row.1.dropLast, Entry.directory) ∈ entries :=
    by decide

namespace FileTree

def get? (tree : FileTree) (loc : Location) : Option Entry :=
  if loc = [] then some .directory else tree.entries.lookup loc

def names (tree : FileTree) (loc : Location) : List String :=
  sortInOrder (fun a b => decide (a ≤ b)) <|
    tree.entries.filterMap fun row => if row.1.dropLast = loc then row.1.getLast? else none

/-- Whether an entry may be put at a location: its last step is a name, its directory is there, and
no directory stands in its place. -/
def hasRoom (tree : FileTree) (loc : Location) : Bool :=
  loc.getLast?.any Path.isName && tree.get? loc.dropLast == some .directory &&
    tree.get? loc != some .directory

theorem mem_of_lookup_eq_some {rows : List (Location × Entry)} {loc : Location} {entry : Entry}
    (found : rows.lookup loc = some entry) : (loc, entry) ∈ rows := by
  induction rows with
  | nil => simp at found
  | cons row rest ih =>
    obtain ⟨key, value⟩ := row
    rw [List.lookup_cons] at found
    split at found
    · next same =>
      simp only [Option.some.injEq] at found
      simp [found, beq_iff_eq.1 same]
    · exact List.mem_cons_of_mem _ (ih found)

theorem lookup_eq_some_of_mem {rows : List (Location × Entry)} {loc : Location} {entry : Entry}
    (distinct : (rows.map (·.1)).Nodup) (member : (loc, entry) ∈ rows) :
    rows.lookup loc = some entry := by
  induction rows with
  | nil => simp at member
  | cons row rest ih =>
    obtain ⟨key, value⟩ := row
    simp only [List.map_cons, List.nodup_cons] at distinct
    rw [List.lookup_cons]
    rcases List.mem_cons.1 member with same | member
    · simp only [Prod.mk.injEq] at same
      simp [same.1, same.2]
    · have other : (loc == key) = false := by
        apply beq_false_of_ne
        intro same
        exact distinct.1 (List.mem_map.2 ⟨(loc, entry), member, same⟩)
      simp [other, ih distinct.2 member]

/-- Below the root the entry at a location is the one that is listed for it, since a location is
listed once. -/
theorem get?_eq_some_iff {tree : FileTree} {loc : Location} {entry : Entry} (proper : loc ≠ []) :
    tree.get? loc = some entry ↔ (loc, entry) ∈ tree.entries := by
  simp only [get?, proper, if_false]
  exact ⟨mem_of_lookup_eq_some, lookup_eq_some_of_mem tree.distinct⟩

@[simp] theorem get?_root (tree : FileTree) : tree.get? [] = some .directory := by
  simp [get?]

/-- There is room for an entry if its last step is a name in a directory that is there, and no
directory stands in its place. -/
theorem hasRoom_iff {tree : FileTree} {loc : Location} :
    tree.hasRoom loc = true ↔
      (∃ name, loc.getLast? = some name ∧ Path.isName name = true) ∧
        tree.get? loc.dropLast = some .directory ∧ tree.get? loc ≠ some .directory := by
  simp [hasRoom, and_assoc, Option.any_eq_true]

theorem ne_nil_of_hasRoom {tree : FileTree} {loc : Location} (room : tree.hasRoom loc = true) :
    loc ≠ [] := by
  rintro rfl
  simp [hasRoom] at room

/-- Every step to an entry is a name. -/
theorem isName_of_get? {tree : FileTree} {loc : Location} {entry : Entry}
    (found : tree.get? loc = some entry) {name : String} (member : name ∈ loc) :
    Path.isName name = true := by
  have proper : loc ≠ [] := List.ne_nil_of_mem member
  exact tree.named _ ((get?_eq_some_iff proper).1 found) name member

/-- Puts an entry other than over a directory. Without room the tree stays as it is. -/
def put (tree : FileTree) (loc : Location) (entry : Entry) : FileTree :=
  if room : tree.hasRoom loc = true then
    { entries := (loc, entry) :: tree.entries.filter (·.1 != loc)
      distinct := by
        simp only [List.map_cons, List.nodup_cons]
        refine ⟨by simp, ?_⟩
        exact (List.filter_sublist.map _).nodup tree.distinct
      rootless := by
        intro row member
        rcases List.mem_cons.1 member with rfl | member
        · exact ne_nil_of_hasRoom room
        · exact tree.rootless row (List.mem_filter.1 member).1
      named := by
        obtain ⟨⟨last, isLast, proper⟩, parent, -⟩ := hasRoom_iff.1 room
        intro row member
        rcases List.mem_cons.1 member with rfl | member
        · intro name inLoc
          rw [← List.dropLast_concat_getLast (List.ne_nil_of_mem inLoc), List.mem_append] at inLoc
          rcases inLoc with inside | same
          · exact isName_of_get? parent inside
          · rw [List.getLast?_eq_some_getLast (List.ne_nil_of_mem inLoc)] at isLast
            rw [List.mem_singleton.1 same, Option.some.inj isLast]
            exact proper
        · exact tree.named row (List.mem_filter.1 member).1
      contained := by
        have proper := ne_nil_of_hasRoom room
        obtain ⟨-, parent, vacant⟩ := hasRoom_iff.1 room
        have kept : ∀ dir : Location, (dir, Entry.directory) ∈ tree.entries →
            (dir, Entry.directory) ∈ (loc, entry) :: tree.entries.filter (·.1 != loc) := by
          intro dir member
          refine List.mem_cons_of_mem _ (List.mem_filter.2 ⟨member, ?_⟩)
          simp only [bne_iff_ne, ne_eq]
          rintro rfl
          exact vacant ((get?_eq_some_iff proper).2 member)
        intro row member
        rcases List.mem_cons.1 member with rfl | member
        · by_cases top : loc.dropLast = []
          · exact Or.inl top
          · exact Or.inr (kept _ ((get?_eq_some_iff top).1 parent))
        · exact (tree.contained row (List.mem_filter.1 member).1).imp id (kept _) }
  else tree

/-- The tree without the entries at locations that satisfy `gone`. If a location satisfies it, then
so must every location below. -/
def prune (tree : FileTree) (gone : Location → Bool)
    (closed : ∀ loc : Location, gone loc.dropLast = true → gone loc = true) : FileTree where
  entries := tree.entries.filter fun row => !gone row.1
  distinct := (List.filter_sublist.map _).nodup tree.distinct
  rootless row member := tree.rootless row (List.mem_filter.1 member).1
  named row member := tree.named row (List.mem_filter.1 member).1
  contained row member := by
    obtain ⟨member, stays⟩ := List.mem_filter.1 member
    refine (tree.contained row member).imp id fun parent => List.mem_filter.2 ⟨parent, ?_⟩
    simp only [Bool.not_eq_true'] at stays ⊢
    exact Bool.eq_false_iff.2 fun out => by simp [closed _ out] at stays

def isWithin (top loc : Location) : Bool := top.isPrefixOf loc

def isBelow (top loc : Location) : Bool := isWithin top loc && loc != top

theorem isWithin_iff {top loc : Location} : isWithin top loc = true ↔ top <+: loc :=
  List.isPrefixOf_iff_prefix

/-- What stands in something within a location is within that location too. -/
theorem isWithin_of_dropLast {top loc : Location} (h : isWithin top loc.dropLast = true) :
    isWithin top loc = true :=
  isWithin_iff.2 ((isWithin_iff.1 h).trans (List.dropLast_prefix loc))

theorem isBelow_of_dropLast {top loc : Location} (h : isBelow top loc.dropLast = true) :
    isBelow top loc = true := by
  simp only [isBelow, Bool.and_eq_true, bne_iff_ne, ne_eq] at h ⊢
  refine ⟨isWithin_of_dropLast h.1, ?_⟩
  rintro rfl
  have bound := (isWithin_iff.1 h.1).length_le
  have short : loc ≠ [] := by
    rintro rfl
    exact h.2 rfl
  have := List.length_pos_iff.2 short
  simp only [List.length_dropLast] at bound
  omega

/-- The tree without an entry and everything below it. The root loses what is below it only. -/
def erase (tree : FileTree) (loc : Location) : FileTree :=
  tree.prune (isWithin loc) fun _ => isWithin_of_dropLast

def eraseBelow (tree : FileTree) (loc : Location) : FileTree :=
  tree.prune (isBelow loc) fun _ => isBelow_of_dropLast

/-- What has been put where there is room for it stands there. -/
theorem get?_put_self {tree : FileTree} {loc : Location} {entry : Entry}
    (room : tree.hasRoom loc = true) : (tree.put loc entry).get? loc = some entry := by
  rw [get?_eq_some_iff (ne_nil_of_hasRoom room)]
  simp [put, room]

/-- To put an entry changes nothing elsewhere, whether there is room for it or not. -/
theorem get?_put_of_ne {tree : FileTree} {loc other : Location} {entry : Entry}
    (ne : other ≠ loc) : (tree.put loc entry).get? other = tree.get? other := by
  by_cases room : tree.hasRoom loc = true
  · by_cases top : other = []
    · simp [top]
    · apply Option.ext
      intro found
      rw [get?_eq_some_iff top, get?_eq_some_iff top]
      simp [put, room, List.mem_filter, ne]
  · simp [put, room]

/-- A tree that is pruned has lost what is to go, and nothing else. -/
theorem get?_prune {tree : FileTree} {gone : Location → Bool}
    {closed : ∀ loc : Location, gone loc.dropLast = true → gone loc = true} {loc : Location}
    (proper : loc ≠ []) :
    (tree.prune gone closed).get? loc = if gone loc then none else tree.get? loc := by
  apply Option.ext
  intro entry
  rw [get?_eq_some_iff proper]
  by_cases out : gone loc = true
  · simp [prune, out]
  · simp only [out, if_false, Bool.false_eq_true, get?_eq_some_iff proper]
    simp [prune, List.mem_filter, Bool.eq_false_iff.2 out]

/-- What is erased is gone with everything below it, and the rest stays. -/
theorem get?_erase {tree : FileTree} {top loc : Location} (proper : loc ≠ []) :
    (tree.erase top).get? loc = if isWithin top loc then none else tree.get? loc :=
  get?_prune proper

/-- To erase what is below a location leaves the location itself as it is. -/
theorem get?_eraseBelow {tree : FileTree} {top loc : Location} (proper : loc ≠ []) :
    (tree.eraseBelow top).get? loc = if isBelow top loc then none else tree.get? loc :=
  get?_prune proper

/-- What contains an entry is a directory. -/
theorem get?_dropLast_of_get? {tree : FileTree} {loc : Location} {entry : Entry}
    (found : tree.get? loc = some entry) : tree.get? loc.dropLast = some .directory := by
  by_cases proper : loc = []
  · simp [proper]
  · rcases tree.contained _ ((get?_eq_some_iff proper).1 found) with top | parent
    · simp only at top
      simp [top]
    · by_cases top : loc.dropLast = []
      · simp [top]
      · exact (get?_eq_some_iff top).2 parent

end FileTree

end VersionMatrix
