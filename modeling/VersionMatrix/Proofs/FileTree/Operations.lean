import VersionMatrix.Proofs.FileTree.Opens

/-! What each operation does at a name in a directory that a path leads to. It depends on the texts and
on what stands at the name, and changes nothing else. -/
namespace VersionMatrix.Disk

open FileTree

variable {disk other : Disk} {hidden hidden' : Location → Prop} {path base name : String}
  {dir loc : Location} {fault : FileFault} {approach : Approach}

/-- What stands where after an entry has been put. -/
theorem get?_put {tree : FileTree} {loc other : Location} {entry : Entry} :
    (tree.put loc entry).get? other =
      if other = loc ∧ tree.hasRoom loc = true then some entry else tree.get? other := by
  by_cases same : other = loc
  · subst same
    by_cases room : tree.hasRoom other = true
    · rw [if_pos ⟨rfl, room⟩, get?_put_self room]
    · rw [if_neg fun both => room both.2, put, dif_neg room]
  · rw [if_neg fun both => same both.1, get?_put_of_ne same]

/-- An entry may be put at a free name in a directory. -/
theorem hasRoom_of_isName {tree : FileTree} (proper : Path.isName name = true)
    (here : tree.get? dir = some .directory)
    (free : tree.get? (dir ++ [name]) ≠ some .directory) : tree.hasRoom (dir ++ [name]) = true := by
  rw [hasRoom_iff]
  exact ⟨⟨name, by simp, proper⟩, by simpa using here, free⟩

/-- To put an entry in a hidden place changes nothing that is seen. -/
theorem agreeOff_put (disk : Disk) {loc : Location} {entry : Entry} (owned : hidden loc) :
    AgreeOff hidden disk (disk.modifyTree (·.put loc entry)) := by
  refine ⟨rfl, fun place clear => ?_⟩
  rw [modifyTree, get?_put_of_ne]
  rintro rfl
  exact clear owned

/-- Entries that are put where nothing hidden matters stand on both disks. -/
theorem AgreeOff.put (agree : AgreeOff hidden disk other) {loc : Location}
    {entry : Entry} (here : ¬ hidden loc) (parent : ¬ hidden loc.dropLast) :
    AgreeOff hidden (disk.modifyTree (·.put loc entry))
      (other.modifyTree (·.put loc entry)) := by
  refine ⟨agree.workingDirectory, fun place clear => ?_⟩
  have room : disk.tree.hasRoom loc = other.tree.hasRoom loc := by
    rw [hasRoom, hasRoom, agree.get? _ here, agree.get? _ parent]
  simp only [modifyTree, get?_put, room, agree.get? place clear]

/-- Steps lead to a directory, if they start from one. -/
theorem get?_of_leads {tree : FileTree} {links left : Nat} {here : Location} {names : List String}
    (leads : Leads (tree.Shows hidden) links here names left dir)
    (start : tree.get? here = some .directory) : tree.get? dir = some .directory := by
  induction leads with
  | done => exact start
  | stay _ _ ih => exact ih start
  | up _ ih => exact ih (get?_dropLast_of_get? start)
  | down _ found _ ih => exact ih found.2
  | follow _ _ _ ih =>
      apply ih
      split
      · exact get?_root tree
      · exact start

/-- A directory stands where a path leads to one. -/
theorem Opens.get? (opens : disk.Opens hidden path dir) :
    disk.tree.get? dir = some .directory := by
  obtain ⟨start, left, leads⟩ := opens
  exact get?_of_leads leads start.2

/-- An entry of a directory that opens is found by its name, links as themselves. -/
theorem find_itself_join (opens : disk.Opens hidden base dir) (proper : Path.isName name = true) :
    disk.find .itself (Path.join base name) =
      match Path.joinFault? base name, disk.tree.get? (dir ++ [name]) with
      | some fault, _ => .error fault
      | none, none => .error .notFound
      | none, some entry => .ok (dir ++ [name], entry) := by
  rw [find, resolve_join opens proper (Or.inl rfl)]
  cases Path.joinFault? base name with
  | some fault => rfl
  | none =>
      rw [destination]
      cases disk.tree.get? (dir ++ [name]) <;> rfl

/-- A path that is too long is refused however it is taken. -/
theorem resolve_of_long (long : pathLimit ≤ path.utf8ByteSize) (sound : '\x00' ∉ path.toList) :
    disk.resolve approach path = .error .nameTooLong := by
  have filled : path ≠ "" := by
    rintro rfl
    exact absurd long (by decide)
  rw [resolve, if_neg sound, if_neg filled, if_pos long]

/-- Without a slash at the end of the path its length is checked on the way. -/
theorem createDirectory_of_slashless (slashless : dropSlashes path = path) :
    disk.createDirectory path =
      match disk.resolve .itself path with
      | .ok (.vacant dir name _) => .ok (disk.modifyTree (·.put (dir ++ [name]) .directory))
      | .ok (.entry ..) => .error .alreadyExists
      | .error fault => .error fault := by
  rw [createDirectory, slashless]
  by_cases refused : pathLimit ≤ path.utf8ByteSize ∧ '\x00' ∉ path.toList
  · rw [resolve_of_long refused.1 refused.2, if_pos (by simpa using refused)]
    rfl
  · rw [if_neg (by simpa using refused)]
    cases disk.resolve .itself path with
    | error fault => rfl
    | ok reached => cases reached <;> rfl

/-- A directory is made in a directory that opens if its name is free there. -/
theorem createDirectory_join (opens : disk.Opens hidden base dir)
    (proper : Path.isName name = true) :
    disk.createDirectory (Path.join base name) =
      match Path.joinFault? base name, disk.tree.get? (dir ++ [name]) with
      | some fault, _ => .error fault
      | none, none => .ok (disk.modifyTree (·.put (dir ++ [name]) .directory))
      | none, some _ => .error .alreadyExists := by
  rw [createDirectory_of_slashless (Path.dropSlashes_join_of_isName base proper),
    resolve_join opens proper (Or.inl rfl)]
  cases Path.joinFault? base name with
  | some fault => rfl
  | none =>
      rw [destination]
      cases disk.tree.get? (dir ++ [name]) <;> rfl

/-- A link is made in a directory that opens if its name is free there. -/
theorem createLink_join (opens : disk.Opens hidden base dir) (proper : Path.isName name = true)
    (target : String) :
    disk.createLink target (Path.join base name) =
      match Path.joinFault? base name, disk.tree.get? (dir ++ [name]) with
      | some fault, _ => .error fault
      | none, none => .ok (disk.modifyTree (·.put (dir ++ [name]) (.link target)))
      | none, some _ => .error .alreadyExists := by
  rw [createLink, resolve_join opens proper (Or.inl rfl)]
  cases Path.joinFault? base name with
  | some fault => rfl
  | none =>
      rw [destination]
      cases disk.tree.get? (dir ++ [name]) <;> rfl

/-- The target of a link is read by its name in a directory that opens. -/
theorem readLink_join (opens : disk.Opens hidden base dir) (proper : Path.isName name = true)
    {target : String} (found : disk.tree.get? (dir ++ [name]) = some (.link target)) :
    disk.readLink (Path.join base name) =
      match Path.joinFault? base name with
      | some fault => .error fault
      | none => .ok target := by
  rw [readLink, find_itself_join opens proper, found]
  cases Path.joinFault? base name <;> rfl

/-- Through all links a name that is no link leads to what stands there. -/
theorem stat_join (opens : disk.Opens hidden base dir) (proper : Path.isName name = true)
    (kept : ∀ target, disk.tree.get? (dir ++ [name]) ≠ some (.link target)) :
    disk.stat (Path.join base name) =
      match Path.joinFault? base name, disk.tree.get? (dir ++ [name]) with
      | some fault, _ => .error fault
      | none, none => .error .notFound
      | none, some entry => .ok entry := by
  rw [stat, find, resolve_join opens proper (Or.inr kept)]
  cases Path.joinFault? base name with
  | some fault => rfl
  | none =>
      rw [destination]
      cases disk.tree.get? (dir ++ [name]) <;> rfl

/-- A file is written by its name in a directory that opens, where no link stands. -/
theorem writeFile_join (opens : disk.Opens hidden base dir) (proper : Path.isName name = true)
    (kept : ∀ target, disk.tree.get? (dir ++ [name]) ≠ some (.link target)) (bytes : List UInt8)
    (executable : Option Bool) :
    disk.writeFile (Path.join base name) bytes executable =
      match Path.joinFault? base name, disk.tree.get? (dir ++ [name]) with
      | some fault, _ => .error fault
      | none, none =>
        .ok (disk.modifyTree (·.put (dir ++ [name]) (.file bytes (executable.getD false))))
      | none, some (.file _ before) =>
        .ok (disk.modifyTree (·.put (dir ++ [name]) (.file bytes (executable.getD before))))
      | none, some .directory => .error .isDirectory
      | none, some _ => .error .noDevice := by
  rw [writeFile, resolve_join opens proper (Or.inr kept)]
  cases Path.joinFault? base name with
  | some fault => rfl
  | none =>
      rw [destination]
      cases disk.tree.get? (dir ++ [name]) with
      | none => rfl
      | some entry => cases entry <;> rfl

/-- The location at which a file is written by a path. A link that stands there is followed. -/
def written? (disk : Disk) (path : String) : Option Location :=
  match disk.resolve .creating path with
  | .ok (.entry loc _) => some loc
  | .ok (.vacant dir name _) => some (dir ++ [name])
  | .error _ => none

/-- A file that has been written stands where no directory and no link was. -/
theorem exists_put_of_writeFile {bytes : List UInt8} {executable : Option Bool}
    (written : disk.writeFile path bytes executable = .ok other) :
    ∃ loc mode, disk.written? path = some loc ∧ disk.tree.get? loc ≠ some .directory ∧
      (∀ target, disk.tree.get? loc ≠ some (.link target)) ∧
      other = disk.modifyTree (·.put loc (.file bytes mode)) := by
  rw [writeFile] at written
  rw [written?]
  cases resolved : disk.resolve .creating path with
  | error fault =>
      rw [resolved] at written
      cases written
  | ok reached =>
      obtain ⟨-, start, walked⟩ := fault?_of_resolve resolved
      have stands : disk.tree.Stands reached := stands_of_walk start walked
      rw [resolved] at written
      cases reached with
      | vacant dir name asDirectory =>
          have absent : disk.tree.get? (dir ++ [name]) = none := stands
          cases asDirectory with
          | true => cases written
          | false =>
              exact ⟨_, _, rfl, by simp [absent], by simp [absent], (Except.ok.inj written).symm⟩
      | entry loc entry =>
          have found : disk.tree.get? loc = some entry := stands
          cases entry with
          | file bytes before =>
              exact ⟨_, _, rfl, by simp [found], by simp [found], (Except.ok.inj written).symm⟩
          | _ => cases written

/-- Without a link at a name a file is written at the name itself. -/
theorem written?_join (opens : disk.Opens hidden base dir) (proper : Path.isName name = true)
    (kept : ∀ target, disk.tree.get? (dir ++ [name]) ≠ some (.link target))
    (written : disk.written? (Path.join base name) = some loc) : loc = dir ++ [name] := by
  rw [written?, resolve_join opens proper (Or.inr kept)] at written
  cases sound : Path.joinFault? base name with
  | some fault =>
      rw [sound] at written
      cases written
  | none =>
      rw [sound, destination] at written
      cases found : disk.tree.get? (dir ++ [name]) <;> rw [found] at written <;>
        exact (Option.some.inj written).symm

/-- A directory that is found is listed with what it holds. -/
theorem listing_of_find (found : disk.find .through path = .ok (dir, .directory)) :
    disk.listing path = .ok (disk.tree.contents dir) := by
  rw [listing, found]
  rfl

/-- What is listed is what a directory holds. -/
theorem exists_contents_of_listing {rows : List (String × Entry)}
    (listed : disk.listing path = .ok rows) :
    ∃ loc, disk.find .through path = .ok (loc, .directory) ∧ rows = disk.tree.contents loc := by
  rw [listing] at listed
  cases found : disk.find .through path with
  | error fault =>
      rw [found] at listed
      cases listed
  | ok place =>
      obtain ⟨loc, entry⟩ := place
      rw [found] at listed
      cases entry with
      | directory => exact ⟨loc, rfl, (Except.ok.inj listed).symm⟩
      | _ => cases listed

/-- An operation that gives an answer has not been refused for its path. -/
theorem of_not_refused {α : Type} {refusal : Option FileFault} {value answer : α}
    (given : (match refusal with
      | some fault => .error fault
      | none => .ok value : Except FileFault α) = .ok answer) : refusal = none ∧ value = answer := by
  cases refusal with
  | some fault => cases given
  | none => exact ⟨rfl, Except.ok.inj given⟩

/-- A directory in a directory that opens is listed by its name. -/
theorem listing_join (opens : disk.Opens hidden base dir) (proper : Path.isName name = true)
    (found : disk.tree.get? (dir ++ [name]) = some .directory) :
    disk.listing (Path.join base name) =
      match Path.joinFault? base name with
      | some fault => .error fault
      | none => .ok (disk.tree.contents (dir ++ [name])) := by
  have kept : ∀ target, disk.tree.get? (dir ++ [name]) ≠ some (.link target) := by
    simp [found]
  rw [listing, find, resolve_join opens proper (Or.inr kept)]
  cases Path.joinFault? base name with
  | some fault => rfl
  | none =>
      rw [destination, found]
      rfl

/-- Where nothing stands the directory is created. -/
theorem ensureDirectory_join (opens : disk.Opens hidden base dir)
    (proper : Path.isName name = true) (free : disk.tree.get? (dir ++ [name]) = none) :
    disk.ensureDirectory (Path.join base name) =
      match Path.joinFault? base name with
      | some fault => .error fault
      | none => .ok (disk.modifyTree (·.put (dir ++ [name]) .directory)) := by
  have kept : ∀ target, disk.tree.get? (dir ++ [name]) ≠ some (.link target) := by
    simp [free]
  rw [ensureDirectory, createDirectory_join opens proper, isDirectory,
    stat_join opens proper kept, free]
  cases Path.joinFault? base name <;> rfl

/-- A file is read by its name in a directory that opens. -/
theorem readFile_join (opens : disk.Opens hidden base dir) (proper : Path.isName name = true)
    {bytes : List UInt8} {executable : Bool}
    (found : disk.tree.get? (dir ++ [name]) = some (.file bytes executable)) :
    disk.readFile (Path.join base name) =
      match Path.joinFault? base name with
      | some fault => .error fault
      | none => .ok (bytes, executable) := by
  have kept : ∀ target, disk.tree.get? (dir ++ [name]) ≠ some (.link target) := by
    simp [found]
  rw [readFile, stat_join opens proper kept, found]
  cases Path.joinFault? base name <;> rfl

/-- Nothing is read from a socket. -/
theorem readFile_join_of_socket (opens : disk.Opens hidden base dir)
    (proper : Path.isName name = true)
    (found : disk.tree.get? (dir ++ [name]) = some .socket) :
    disk.readFile (Path.join base name) = .error ((Path.joinFault? base name).getD .noDevice) := by
  have kept : ∀ target, disk.tree.get? (dir ++ [name]) ≠ some (.link target) := by
    simp [found]
  rw [readFile, stat_join opens proper kept, found]
  cases Path.joinFault? base name <;> rfl

/-- Removing a directory that has nothing in it. -/
theorem removeDirectory_join (opens : disk.Opens hidden base dir)
    (proper : Path.isName name = true) (sound : Path.joinFault? base name = none)
    (found : disk.tree.get? (dir ++ [name]) = some .directory)
    (bare : ∀ inner, disk.tree.get? (dir ++ [name] ++ [inner]) = none) :
    disk.removeDirectory (Path.join base name) =
      .ok (disk.modifyTree (·.erase (dir ++ [name]))) := by
  have last : ((Path.steps (Path.join base name)).filter (· != "")).getLast? = some name := by
    rw [Path.filter_steps, Path.names_join base proper, List.getLast?_concat]
  unfold removeDirectory
  rw [last]
  split
  next dot => exact absurd (Option.some.inj dot) (Path.ne_dot_of_isName proper)
  next dots => exact absurd (Option.some.inj dots) (Path.ne_dots_of_isName proper)
  next =>
      rw [Path.dropSlashes_join_of_isName base proper, find_itself_join opens proper, sound, found]
      simp only [bind, Except.bind, names_isEmpty bare, if_true]
      rfl

/-- Removing what stands at a name. The path must not lead through what is removed. -/
theorem removeTree_join (opens : disk.Opens (fun loc => dir ++ [name] <+: loc) base dir)
    (proper : Path.isName name = true) :
    disk.removeTree (Path.join base name) =
      match Path.joinFault? base name, disk.tree.get? (dir ++ [name]) with
      | some fault, _ => (.error fault, disk)
      | none, none => (.error .notFound, disk)
      | none, some (.link _) => (.ok (), disk.modifyTree (·.erase (dir ++ [name])))
      | none, some .directory =>
        (.ok (), (disk.modifyTree (·.eraseBelow (dir ++ [name]))).modifyTree
          (·.erase (dir ++ [name])))
      | none, some _ => (.error .notDirectory, disk) := by
  rw [removeTree, find_itself_join opens proper]
  cases sound : Path.joinFault? base name with
  | some fault => rfl
  | none =>
      cases found : disk.tree.get? (dir ++ [name]) with
      | none => rfl
      | some entry =>
          cases entry with
          | directory =>
              have emptied : (disk.modifyTree (·.eraseBelow (dir ++ [name]))).Opens
                  (fun loc => dir ++ [name] <+: loc) base dir := by
                refine opens.mono rfl fun loc entry shown => ⟨shown.1, ?_⟩
                by_cases top : loc = []
                · subst top
                  rw [← shown.2, get?_root, get?_root]
                · rw [modifyTree, get?_eraseBelow top, if_neg, shown.2]
                  intro within
                  simp only [isBelow, Bool.and_eq_true] at within
                  exact shown.1 (isWithin_iff.1 within.1)
              have removed := removeDirectory_join emptied proper sound
                (by rw [modifyTree, get?_eraseBelow (by simp), found]; simp [isBelow])
                fun inner => by
                  rw [modifyTree, get?_eraseBelow (by simp), if_pos]
                  simp [isBelow, isWithin_iff]
              simp only [removed]
          | _ => rfl

end VersionMatrix.Disk
