import VersionMatrix.Proofs.FileTree.Contents
import VersionMatrix.Proofs.FileTree.Leads
import VersionMatrix.Proofs.FileTree.Parent

/-! Paths on a disk of which some is hidden. A path that leads to a directory without what is hidden
leads there whatever is hidden. -/
namespace VersionMatrix

open FileTree

/-- Why a path is refused by its text alone. -/
def Path.fault? (path : String) : Option FileFault :=
  if '\x00' ∈ path.toList then some .nulByte
  else if path = "" then some .notFound
  else if path.utf8ByteSize ≥ pathLimit then some .nameTooLong
  else none

/-- What a path must be to be looked at: not empty, not too long, and without a zero character. -/
theorem Path.fault?_eq_none_iff {path : String} :
    fault? path = none ↔
      '\x00' ∉ path.toList ∧ path ≠ "" ∧ path.utf8ByteSize < pathLimit := by
  rw [fault?]
  split
  next nul => simp [nul]
  next nulFree =>
      split
      next empty => simp [empty]
      next filled => simp [nulFree, filled]

/-- Why a name in a directory is refused by its text and that of the path to it. -/
def Path.joinFault? (base name : String) : Option FileFault :=
  (Path.fault? (Path.join base name)).or
    (if nameLimit < name.utf8ByteSize then some .nameTooLong else none)

/-- What stands at a name in a directory. -/
def FileTree.destination (tree : FileTree) (dir : Location) (name : String) : Destination :=
  match tree.get? (dir ++ [name]) with
  | none => .vacant dir name false
  | some entry => .entry (dir ++ [name]) entry

namespace Disk

variable {disk other third : Disk} {hidden hidden' : Location → Prop} {path base name : String}
  {dir loc : Location} {approach : Approach}

/-- Two disks are alike but for what is hidden. -/
structure AgreeOff (hidden : Location → Prop) (disk other : Disk) : Prop where
  workingDirectory : disk.workingDirectory = other.workingDirectory
  get? : ∀ loc, ¬ hidden loc → disk.tree.get? loc = other.tree.get? loc

theorem AgreeOff.refl (hidden : Location → Prop) (disk : Disk) : AgreeOff hidden disk disk :=
  ⟨rfl, fun _ _ => rfl⟩

theorem AgreeOff.symm (agree : AgreeOff hidden disk other) : AgreeOff hidden other disk :=
  ⟨agree.workingDirectory.symm, fun loc clear => (agree.get? loc clear).symm⟩

theorem AgreeOff.trans (first : AgreeOff hidden disk other) (second : AgreeOff hidden other third) :
    AgreeOff hidden disk third :=
  ⟨first.workingDirectory.trans second.workingDirectory,
    fun loc clear => (first.get? loc clear).trans (second.get? loc clear)⟩

theorem AgreeOff.mono (agree : AgreeOff hidden disk other) (more : ∀ loc, hidden loc → hidden' loc) :
    AgreeOff hidden' disk other :=
  ⟨agree.workingDirectory, fun loc clear => agree.get? loc (clear ∘ more loc)⟩

/-- What is seen on one of two disks that are alike is seen on the other. -/
theorem AgreeOff.shows (agree : AgreeOff hidden disk other) {entry : Entry}
    (shown : disk.tree.Shows hidden loc entry) : other.tree.Shows hidden loc entry :=
  ⟨shown.1, agree.get? loc shown.1 ▸ shown.2⟩

/-- The locations that a path leads through, and those that the links on it lead through. -/
def route (disk : Disk) (path : String) : List Location :=
  disk.origin path :: disk.tree.route linkLimit (disk.origin path) (Path.steps path)

/-- The location that a path names. A link that stands there is not followed. -/
def place? (disk : Disk) (path : String) : Option Location :=
  match disk.resolve .itself path with
  | .ok (.entry loc _) => some loc
  | .ok (.vacant dir name _) => some (dir ++ [name])
  | .error _ => none

/-- The part of the disk that a path names: a location, and everything below it. -/
def Held (disk : Disk) (path : String) (loc : Location) : Prop :=
  ∃ top, disk.place? path = some top ∧ top <+: loc

/-- A path leads to a directory without what is hidden. -/
def Opens (disk : Disk) (hidden : Location → Prop) (path : String) (dir : Location) : Prop :=
  disk.tree.Shows hidden (disk.origin path) .directory ∧
    ∃ left, Leads (disk.tree.Shows hidden) linkLimit (disk.origin path) (Path.names path) left dir

/-- What a path names is its location and everything below. -/
theorem held_iff {top : Location} (placed : disk.place? path = some top) :
    disk.Held path loc ↔ top <+: loc := by
  rw [Held, placed]
  exact ⟨fun ⟨_, same, inside⟩ => Option.some.inj same ▸ inside, fun inside => ⟨top, rfl, inside⟩⟩

/-- The resolution of a path: its text is looked at first, then the directory that it starts from,
and then it is walked. -/
theorem resolve_eq (disk : Disk) (approach : Approach) (path : String) :
    disk.resolve approach path =
      match Path.fault? path with
      | some fault => .error fault
      | none =>
        if disk.tree.get? (disk.origin path) ≠ some .directory then .error .notFound
        else disk.tree.walk approach linkLimit (disk.origin path) (Path.steps path) := by
  unfold resolve Path.fault?
  split
  next => rfl
  next =>
      split
      next => rfl
      next => split <;> rfl

/-- A path leads to the same on disks that agree where it leads through. -/
theorem resolve_congr (same : disk.workingDirectory = other.workingDirectory)
    (agree : ∀ loc ∈ disk.route path, disk.tree.get? loc = other.tree.get? loc) :
    disk.resolve approach path = other.resolve approach path := by
  rw [route, List.forall_mem_cons] at agree
  have start : disk.origin path = other.origin path := by rw [origin, origin, same]
  rw [resolve_eq, resolve_eq, walk_congr agree.2, agree.1, start]

/-- A path leads through the same on disks that agree where it leads through. -/
theorem route_of_agreeOff (agree : AgreeOff hidden disk other)
    (clear : ∀ loc ∈ disk.route path, ¬ hidden loc) : other.route path = disk.route path := by
  rw [route, List.forall_mem_cons] at clear
  have start : disk.origin path = other.origin path := by
    rw [origin, origin, agree.workingDirectory]
  have later := route_congr fun loc member => agree.get? loc (clear.2 loc member)
  rw [route, route, later, start]

/-- A path that leads through nothing hidden leads to the same on disks that are alike. -/
theorem resolve_of_agreeOff (agree : AgreeOff hidden disk other)
    (clear : ∀ loc ∈ disk.route path, ¬ hidden loc) :
    disk.resolve approach path = other.resolve approach path :=
  resolve_congr agree.workingDirectory fun loc member => agree.get? loc (clear loc member)

theorem Opens.mono (opens : disk.Opens hidden path dir)
    (same : disk.workingDirectory = other.workingDirectory)
    (more : ∀ loc entry, disk.tree.Shows hidden loc entry → other.tree.Shows hidden' loc entry) :
    other.Opens hidden' path dir := by
  obtain ⟨start, left, leads⟩ := opens
  rw [origin, same] at start leads
  exact ⟨more _ _ start, left, leads.mono more⟩

/-- Only the directories and links that are seen matter to where a path leads. -/
theorem Opens.mono_of_passes (opens : disk.Opens hidden path dir)
    (same : disk.workingDirectory = other.workingDirectory)
    (more : ∀ loc entry, (entry = .directory ∨ ∃ target, entry = .link target) →
      disk.tree.Shows hidden loc entry → other.tree.Shows hidden' loc entry) :
    other.Opens hidden' path dir := by
  obtain ⟨start, left, leads⟩ := opens
  rw [origin, same] at start leads
  exact ⟨more _ _ (Or.inl rfl) start, left,
    leads.passes.mono fun loc entry shown => more loc entry shown.2 shown.1⟩

theorem Opens.of_agreeOff (opens : disk.Opens hidden path dir)
    (agree : AgreeOff hidden disk other) : other.Opens hidden path dir :=
  opens.mono agree.workingDirectory fun _ _ => agree.shows

theorem Opens.reveal (opens : disk.Opens hidden path dir) (less : ∀ loc, hidden' loc → hidden loc) :
    disk.Opens hidden' path dir :=
  opens.mono rfl fun loc _ shown => ⟨shown.1 ∘ less loc, shown.2⟩

theorem Opens.bare (opens : disk.Opens hidden path dir) : disk.Opens (fun _ => False) path dir :=
  opens.reveal fun _ => False.elim

/-- A path leads to one directory only. -/
theorem Opens.unique {dir' : Location} (opens : disk.Opens hidden path dir)
    (opens' : disk.Opens hidden' path dir') : dir = dir' := by
  obtain ⟨-, _, leads⟩ := opens
  obtain ⟨-, _, leads'⟩ := opens'
  exact (leads.mono fun _ _ shown => shown.2).unique (leads'.mono fun _ _ shown => shown.2)

/-- A directory that a path opens is found by it. -/
theorem find_of_opens (opens : disk.Opens hidden path dir) (sound : Path.fault? path = none) :
    disk.find .through path = .ok (dir, .directory) := by
  obtain ⟨start, left, leads⟩ := opens
  have steps : ∃ left, Leads (disk.tree.Shows hidden) linkLimit (disk.origin path)
      (Path.steps path) left dir := by
    rcases Path.steps_eq_names_or path with same | slash
    · exact ⟨left, same ▸ leads⟩
    · exact ⟨left, slash ▸ leads.concat_empty⟩
  obtain ⟨_, leads⟩ := steps
  rw [find, resolve_eq, sound]
  simp only [start.2, leads.walk_through fun _ _ shown => shown.2]
  rfl

theorem resolve_of_find {entry : Entry} (found : disk.find approach path = .ok (loc, entry)) :
    disk.resolve approach path = .ok (.entry loc entry) := by
  rw [find] at found
  cases resolved : disk.resolve approach path with
  | error fault =>
      rw [resolved] at found
      cases found
  | ok destination =>
      rw [resolved] at found
      cases destination <;> cases found
      rfl

/-- A path that leads somewhere has been walked from where it starts. -/
theorem fault?_of_resolve {destination : Destination}
    (resolved : disk.resolve approach path = .ok destination) :
    Path.fault? path = none ∧ disk.tree.get? (disk.origin path) = some .directory ∧
      disk.tree.walk approach linkLimit (disk.origin path) (Path.steps path) = .ok destination := by
  rw [resolve_eq] at resolved
  cases fault : Path.fault? path with
  | some fault =>
      rw [fault] at resolved
      cases resolved
  | none =>
      simp only [fault] at resolved
      split at resolved
      next => cases resolved
      next start => exact ⟨rfl, not_not.1 start, resolved⟩

/-- A path that leads to a directory leads there without whatever it does not lead through. -/
theorem opens_of_find (found : disk.find approach path = .ok (dir, .directory))
    (clear : ∀ loc ∈ disk.route path, ¬ hidden loc) :
    Path.fault? path = none ∧ disk.Opens hidden path dir := by
  obtain ⟨sound, start, walked⟩ := fault?_of_resolve (resolve_of_find found)
  rw [route, List.forall_mem_cons] at clear
  obtain ⟨left, leads⟩ := exists_leads_of_walk walked
  have leads : Leads (disk.tree.Shows hidden) linkLimit (disk.origin path) (Path.steps path) left
      dir := leads.avoid clear.2
  refine ⟨sound, ⟨clear.1, start⟩, left, ?_⟩
  rcases Path.steps_eq_names_or path with same | slash
  · exact same ▸ leads
  · exact (slash ▸ leads).of_concat_empty

/-- A path that finds a directory opens it, with nothing hidden. -/
theorem bare_of_find (found : disk.find approach path = .ok (dir, .directory)) :
    Path.fault? path = none ∧ disk.Opens (fun _ => False) path dir :=
  opens_of_find found fun _ _ => id

theorem origin_join (disk : Disk) (base : String) (proper : Path.isName name = true) :
    disk.origin (Path.join base name) = disk.origin base := by
  rw [origin, origin, Path.isAbsolute_join base proper]

theorem goesOn_of_isName (proper : Path.isName name = true) : GoesOn [name] :=
  ⟨name, List.mem_singleton_self name, Path.ne_empty_of_isName proper⟩

/-- A name in a directory that opens is resolved by what stands at it there, unless the text of the
path is refused. -/
theorem resolve_join (opens : disk.Opens hidden base dir) (proper : Path.isName name = true)
    (kept : approach = .itself ∨ ∀ target, disk.tree.get? (dir ++ [name]) ≠ some (.link target)) :
    disk.resolve approach (Path.join base name) =
      match Path.joinFault? base name with
      | some fault => .error fault
      | none => .ok (disk.tree.destination dir name) := by
  obtain ⟨start, left, leads⟩ := opens
  rw [resolve_eq, Path.joinFault?, Path.steps_join base proper, origin_join disk base proper]
  cases fault : Path.fault? (Path.join base name) with
  | some fault => rfl
  | none =>
      simp only [Option.none_or, start.2, ne_eq, not_true_eq_false, if_false]
      rw [leads.walk_append (fun _ _ shown => shown.2) (goesOn_of_isName proper)]
      by_cases long : nameLimit < name.utf8ByteSize
      · rw [if_pos long]
        cases left <;>
          simp [walk, takeSteps, Path.ne_empty_of_isName proper, Path.ne_dot_of_isName proper,
            Path.ne_dots_of_isName proper, long]
      · rw [if_neg long, walk_name (.of_isName proper (Nat.not_lt.1 long)) (by simp [asksDirectory]),
          destination]
        cases found : disk.tree.get? (dir ++ [name]) with
        | none => rfl
        | some entry =>
            cases entry with
            | directory => rw [walk_nil]
            | link target =>
                have itself : approach = .itself :=
                  kept.resolve_right fun none => none target found
                simp [itself]
            | _ => rfl

theorem size_le_of_joinFault? (sound : Path.joinFault? base name = none) :
    name.utf8ByteSize ≤ nameLimit := by
  rw [Path.joinFault?, Option.or_eq_none_iff] at sound
  by_contra long
  rw [if_pos (Nat.not_le.1 long)] at sound
  cases sound.2

/-- A directory in a directory that opens is opened by its name. -/
theorem opens_join (opens : disk.Opens hidden base dir) (proper : Path.isName name = true)
    (short : name.utf8ByteSize ≤ nameLimit)
    (found : disk.tree.Shows hidden (dir ++ [name]) .directory) :
    disk.Opens hidden (Path.join base name) (dir ++ [name]) := by
  obtain ⟨start, left, leads⟩ := opens
  rw [Opens, Path.names_join base proper, origin_join disk base proper]
  refine ⟨start, left, ?_⟩
  exact leads.append (.down (.of_isName proper short) found .done)

/-- A path with a name at its end names a location in a directory that the rest leads to. -/
theorem opens_of_place? (proper : Path.isName name = true)
    (placed : disk.place? (Path.join base name) = some loc) :
    ∃ dir, loc = dir ++ [name] ∧ Path.joinFault? base name = none ∧
      disk.Opens (fun _ => False) base dir := by
  rw [place?] at placed
  cases resolved : disk.resolve .itself (Path.join base name) with
  | error fault =>
      rw [resolved] at placed
      cases placed
  | ok destination =>
      obtain ⟨-, start, walked⟩ := fault?_of_resolve resolved
      rw [Path.steps_join base proper, origin_join disk base proper] at walked
      rw [origin_join disk base proper] at start
      obtain ⟨left, dir, leads⟩ := exists_leads_of_walk_append (goesOn_of_isName proper) walked
      have opens : disk.Opens (fun _ => False) base dir :=
        ⟨⟨not_false, start⟩, left, leads.mono fun _ _ found => ⟨not_false, found⟩⟩
      have named := @resolve_join disk _ base name dir .itself opens proper (Or.inl rfl)
      rw [resolved] at named placed
      cases sound : Path.joinFault? base name with
      | some fault =>
          rw [sound] at named
          cases named
      | none =>
          rw [sound] at named
          obtain rfl := Except.ok.inj named
          refine ⟨dir, ?_, rfl, opens⟩
          rw [destination] at placed
          cases found : disk.tree.get? (dir ++ [name]) <;> rw [found] at placed <;>
            exact (Option.some.inj placed).symm

/-- The route of a path begins where the path does and goes along its names. -/
theorem route_eq (disk : Disk) (path : String) :
    disk.route path =
      disk.origin path :: disk.tree.route linkLimit (disk.origin path) (Path.names path) := by
  rw [route]
  rcases Path.steps_eq_names_or path with same | slash
  · rw [same]
  · rw [slash, route_concat_empty]

/-- On a path nothing less is looked up than on one that its names begin with. -/
theorem route_subset_route {parent : String} {more : List String}
    (longer : Path.names path = Path.names parent ++ more)
    (same : Path.isAbsolute parent = Path.isAbsolute path) :
    disk.route parent ⊆ disk.route path := by
  rw [route_eq, route_eq, longer, origin, origin, same]
  exact List.cons_subset_cons _ route_subset_append

/-- A path leads through all that the path to its directory leads through. -/
theorem route_subset_join (disk : Disk) (base : String) (filled : name ≠ "")
    (slashless : '/' ∉ name.toList) : disk.route base ⊆ disk.route (Path.join base name) :=
  route_subset_route (Path.names_join_of_slashless base filled slashless)
    (Path.isAbsolute_join_of_slashless base slashless).symm

/-- A path leads through all that the path of its parent leads through. -/
theorem route_parent_subset {parent : String} (found : Path.parent? path = some parent) :
    disk.route parent ⊆ disk.route path := by
  obtain ⟨⟨more, longer⟩, same⟩ := Path.names_of_parent? found
  exact route_subset_route longer same

theorem route_parent_join_subset {parent : String} (proper : Path.isName name = true)
    (found : Path.parent? (Path.join base name) = some parent) :
    disk.route parent ⊆ disk.route base := by
  obtain ⟨⟨more, longer⟩, same⟩ := Path.names_of_parent?_join proper found
  exact route_subset_route longer same

/-- A path leads to a directory without whatever it does not lead through. -/
theorem Opens.avoid (opens : disk.Opens hidden path dir)
    (clear : ∀ loc ∈ disk.route path, ¬ hidden' loc) : disk.Opens hidden' path dir := by
  obtain ⟨start, left, leads⟩ := opens
  rw [route_eq, List.forall_mem_cons] at clear
  exact ⟨⟨clear.1, start.2⟩, left, (leads.mono fun _ _ shown => shown.2).avoid clear.2⟩

end Disk

end VersionMatrix
