import VersionMatrix.Proofs.Staging.Site
import VersionMatrix.Staging.Copy
import VersionMatrix.Staging.Place

/-! The place that the path of a staging directory names. A directory can be made there only if the
path does not lead through the place, since what stood there has been removed by then. -/
namespace VersionMatrix

open FileTree Disk

variable {foreign : Location → Prop} {disk other made : Disk} {root project version : String}
  {base name path : String} {dir dir' top loc : Location} {entry : Entry}

/-- No slash is left in a name that is flattened. -/
theorem slash_notMem_flattenName (name : String) : '/' ∉ (flattenName name).toList := by
  intro member
  rw [flattenName, Text.replaceChars, String.toList_ofList, List.mem_map] at member
  obtain ⟨c, -, same⟩ := member
  split at same
  next => exact absurd same (by decide)
  next kept => exact kept (by rw [same]; decide)

theorem slash_notMem_stagingName (project version : String) :
    '/' ∉ (stagingName project version).toList := by
  have start : '/' ∉ "autochecker_".toList := by decide
  simp only [stagingName, String.toList_append, List.mem_append, not_or]
  exact ⟨⟨start, slash_notMem_flattenName project⟩, slash_notMem_flattenName version⟩

/-- The name of a staging directory is longer than a dot segment. -/
theorem length_stagingName (project version : String) :
    12 ≤ (stagingName project version).toList.length := by
  have start : "autochecker_".toList.length = 12 := by decide
  simp only [stagingName, String.toList_append, List.length_append, start]
  omega

/-- Only a NUL character keeps a text from naming a staging directory. -/
theorem isName_stagingName (sound : '\x00' ∉ (stagingName project version).toList) :
    Path.isName (stagingName project version) = true := by
  have long := length_stagingName project version
  have other : ∀ text : String, text.toList.length < 12 → stagingName project version ≠ text := by
    rintro text short same
    rw [same] at long
    omega
  simp only [Path.isName, Bool.and_eq_true, bne_iff_ne, ne_eq, List.all_eq_true]
  refine ⟨⟨⟨other "" (by decide), other "." (by decide)⟩, other ".." (by decide)⟩, fun c member => ?_⟩
  refine ⟨?_, ?_⟩
  · rintro rfl
    exact slash_notMem_stagingName project version member
  · rintro rfl
    exact sound member

theorem stagingName_ne_empty (project version : String) : stagingName project version ≠ "" := by
  intro empty
  have long := length_stagingName project version
  rw [empty] at long
  exact absurd long (by decide)

/-- A staging path does not end in a slash. -/
theorem dropSlashes_stagingPath (root project version : String) :
    dropSlashes (stagingPath root project version) = stagingPath root project version :=
  Path.dropSlashes_join root (stagingName_ne_empty project version)
    (slash_notMem_stagingName project version)

/-- The root is on the way to every staging directory. -/
theorem route_root_subset (disk : Disk) (root project version : String) :
    disk.route root ⊆ disk.route (stagingPath root project version) :=
  route_subset_join disk root (stagingName_ne_empty project version)
    (slash_notMem_stagingName project version)

/-- The path of a staging directory names a place in the directory that the root leads to. -/
theorem opens_of_place?_stagingPath
    (placed : disk.place? (stagingPath root project version) = some top) :
    Path.isName (stagingName project version) = true ∧ ∃ dir,
      top = dir ++ [stagingName project version] ∧
        Path.joinFault? root (stagingName project version) = none ∧
        disk.Opens (fun _ => False) root dir := by
  have sound : '\x00' ∉ (stagingName project version).toList := by
    intro member
    obtain ⟨before, joined⟩ := Path.exists_join_eq root (stagingName project version)
    have inPath : '\x00' ∈ (stagingPath root project version).toList := by
      rw [stagingPath, joined, String.toList_append]
      exact List.mem_append_right _ member
    rw [place?, resolve, if_pos inPath] at placed
    cases placed
  have proper := isName_stagingName sound
  exact ⟨proper, opens_of_place? proper placed⟩

/-- With less on the disk a path names the same place or none. -/
theorem place?_eq_of_shrinks (shrinks : Shrinks disk other)
    (same : disk.workingDirectory = other.workingDirectory) (proper : Path.isName name = true)
    (placed : disk.place? (Path.join base name) = some top)
    (placed' : other.place? (Path.join base name) = some loc) : loc = top := by
  obtain ⟨dir, rfl, -, opens⟩ := opens_of_place? proper placed
  obtain ⟨dir', rfl, -, opens'⟩ := opens_of_place? proper placed'
  rw [opens.unique (opens'.of_shrinks shrinks same)]

/-- After the removal of a staging directory its path leads to no directory and to no link, whatever
stood there, and even where the path has led through it. -/
theorem find_removeTree_stagingPath
    (found : (disk.removeTree (stagingPath root project version)).2.find .itself
      (stagingPath root project version) = .ok (loc, entry)) :
    entry ≠ .directory ∧ ∀ target, entry ≠ .link target := by
  obtain ⟨shrinks, agree⟩ := shrinks_removeTree disk (stagingPath root project version)
  have before := find_of_shrinks shrinks agree.workingDirectory found
  have stands := get?_of_find found
  obtain ⟨proper, dir, rfl, sound, -⟩ := opens_of_place?_stagingPath (place?_of_find before)
  have erased (disk : Disk) :
      (disk.modifyTree (·.erase (dir ++ [stagingName project version]))).tree.get?
        (dir ++ [stagingName project version]) = none :=
    get?_erase_of_within (by simp) (List.prefix_refl _)
  rw [removeTree, before] at found stands
  cases entry with
  | link target =>
      rw [erased] at stands
      cases stands
  | directory =>
      have less := shrinks_eraseBelow disk (dir ++ [stagingName project version])
      simp only at found stands
      cases removed : (disk.modifyTree (·.eraseBelow (dir ++ [stagingName project version]))
        ).removeDirectory (stagingPath root project version) with
      | ok next =>
          obtain ⟨top, emptied, rfl⟩ := exists_erase_of_removeDirectory removed
          rw [dropSlashes_stagingPath] at emptied
          have same := (find_of_shrinks less rfl emptied).symm.trans before
          obtain ⟨rfl, -⟩ := Prod.mk.inj (Except.ok.inj same)
          rw [removed] at stands
          cases (erased _).symm.trans stands
      | error fault =>
          -- The path leads to the emptied directory, so nothing has kept that from being removed.
          have left : (disk.modifyTree (·.eraseBelow (dir ++ [stagingName project version]))).find
              .itself (stagingPath root project version) =
                .ok (dir ++ [stagingName project version], .directory) := by
            cases fault <;> simpa only [removed] using found
          obtain ⟨-, dir', same, -, opens⟩ := opens_of_place?_stagingPath (place?_of_find left)
          obtain ⟨rfl, -⟩ := List.append_inj' same rfl
          have goes := removeDirectory_join opens proper sound (get?_of_find left) fun inner => by
            rw [modifyTree, get?_eraseBelow (by simp), if_pos]
            simp [isBelow, isWithin_iff]
          cases removed.symm.trans goes
  | _ => exact ⟨by simp, by simp⟩

/-- Where a directory has been made there was a place for it, and nothing in it. -/
theorem site_of_made (proper : Path.isName name = true)
    (created : disk.createDirectory (Path.join base name) = .ok made) :
    ∃ dir, Site (fun _ => False) base name dir disk ∧
      disk.place? (Path.join base name) = some (dir ++ [name]) ∧
      disk.tree.get? (dir ++ [name]) = none ∧
      made = disk.modifyTree (·.put (dir ++ [name]) .directory) := by
  have placed : ∃ loc, disk.place? (Path.join base name) = some loc := by
    rw [createDirectory_of_slashless (Path.dropSlashes_join_of_isName base proper)] at created
    rw [place?]
    split at created
    next resolved => exact ⟨_, by rw [resolved]⟩
    next => cases created
    next => cases created
  obtain ⟨_, placed⟩ := placed
  obtain ⟨dir, rfl, sound, opens⟩ := opens_of_place? proper placed
  rw [createDirectory_join opens proper, sound] at created
  cases free : disk.tree.get? (dir ++ [name]) with
  | some entry =>
      rw [free] at created
      cases created
  | none =>
      rw [free] at created
      refine ⟨dir, ⟨proper, sound, fun _ _ => id, id, ?_⟩, placed, free,
        (Except.ok.inj created).symm⟩
      refine opens.mono rfl fun loc entry shown => ⟨?_, shown.2⟩
      rintro (inside | ⟨⟨⟩⟩)
      -- Nothing stands in the place, so nothing that the path has met is there.
      have missing := get?_eq_none_of_absent free inside
      rw [shown.2] at missing
      cases missing

/-- A place where a directory can be made after all that stood there has been removed: the path did not
lead through it. -/
theorem site_of_createDirectory (proper : Path.isName name = true)
    (placed : disk.place? (Path.join base name) = some top) (shrinks : Shrinks disk other)
    (agree : AgreeOff (Within top) disk other)
    (created : other.createDirectory (Path.join base name) = .ok made) :
    ∃ dir, top = dir ++ [name] ∧ Site (fun _ => False) base name dir disk := by
  obtain ⟨dir, site, placed', -⟩ := site_of_made proper created
  obtain rfl := place?_eq_of_shrinks shrinks agree.workingDirectory proper placed placed'
  refine ⟨dir, rfl, proper, site.sound, site.apart, site.clear, ?_⟩
  exact site.opens.mono agree.workingDirectory.symm fun loc entry shown =>
    ⟨shown.1, shrinks loc entry shown.2⟩

/-- A place where a directory can be made by a path: nothing stands there, and the path does not lead
through it. Slashes at the end of the path do not count. -/
structure Free (disk : Disk) (path base name : String) (dir : Location) : Prop where
  text : dropSlashes path = Path.join base name
  sound : Path.fault? path = none
  site : Site (fun _ => False) base name dir disk
  absent : disk.tree.get? (dir ++ [name]) = none

theorem Free.opens (free : Free disk path base name dir) : disk.Opens (fun _ => False) base dir :=
  free.site.opens.bare

theorem Free.short (free : Free disk path base name dir) : name.utf8ByteSize ≤ nameLimit :=
  size_le_of_joinFault? free.site.sound

/-- A path that is free has a place. -/
theorem Free.place? (free : Free disk path base name dir) :
    disk.place? path = some (dir ++ [name]) :=
  place?_of_dropSlashes free.text free.sound free.site.proper free.short free.opens
    (Or.inl free.absent)

theorem names_ne_nil_of_vacant {asDirectory : Bool}
    (resolved : disk.resolve .itself path = .ok (.vacant dir name asDirectory)) :
    Path.names path ≠ [] := by
  intro none
  obtain ⟨-, -, walked⟩ := fault?_of_resolve resolved
  rcases Path.steps_eq_names_or path with same | slash
  · rw [same, none, walk_nil] at walked
    cases walked
  · rw [slash, none, List.nil_append, walk_stay (Or.inl rfl), walk_nil] at walked
    cases walked

theorem fault?_of_dropSlashes (sound : Path.fault? (dropSlashes path) = none)
    (filled : path ≠ "") (short : ¬(pathLimit ≤ path.utf8ByteSize ∧ '\x00' ∉ path.toList)) :
    Path.fault? path = none := by
  have nulFree : '\x00' ∉ path.toList :=
    Path.nul_notMem_of_dropSlashes (Path.fault?_eq_none_iff.1 sound).1
  exact Path.fault?_eq_none_iff.2 ⟨nulFree, filled, Nat.lt_of_not_le fun long => short ⟨long, nulFree⟩⟩

/-- Where a directory has been made by a path nothing stood before. -/
theorem exists_free_of_createDirectory (created : disk.createDirectory path = .ok made) :
    ∃ base name dir, Free disk path base name dir ∧
      made = disk.modifyTree (·.put (dir ++ [name]) .directory) := by
  rw [createDirectory] at created
  split at created
  next => cases created
  next short =>
      simp only [ge_iff_le, Bool.and_eq_true, decide_eq_true_eq, Bool.not_eq_eq_eq_not, Bool.not_true,
        List.contains_eq_mem, decide_eq_false_iff_not] at short
      cases resolved : disk.resolve .itself (dropSlashes path) with
      | error fault =>
          rw [resolved] at created
          cases created
      | ok reached =>
          rw [resolved] at created
          cases reached with
          | entry loc entry => cases created
          | vacant there other asDirectory =>
              have named := names_ne_nil_of_vacant resolved
              rw [Path.names_dropSlashes] at named
              have filled : path ≠ "" := by
                rintro rfl
                exact named rfl
              obtain ⟨base, name, text, filled', slashless⟩ := Path.exists_dropSlashes_eq_join named
              have sound := fault?_of_dropSlashes (fault?_of_resolve resolved).1 filled short
              rw [text] at resolved
              have proper := isName_of_vacant filled' slashless resolved
              have whole := Path.dropSlashes_join_of_isName base proper
              have creates : disk.createDirectory (Path.join base name) = .ok made := by
                rw [createDirectory_of_slashless whole, resolved]
                exact created
              obtain ⟨dir, site, -, absent, made⟩ := site_of_made proper creates
              exact ⟨base, name, dir, ⟨text, sound, site, absent⟩, made⟩

end VersionMatrix
