import VersionMatrix.Proofs.Staging.Pack
import VersionMatrix.Proofs.Staging.Place

/-! From a project to the build context: the project is copied, the image definition is written over the
copy, and the staging directory is packed. Nothing is lost and nothing gets in on the way. -/
namespace VersionMatrix

open FileTree Disk DiskAction

variable {disk middle final cleared copied written : Disk} {source root project version : String}
  {template destination : String} {dir top tree : Location} {filter : CopyFilter}

/-- A sequence of actions succeeds only if both parts do. -/
theorem run_bind_eq_ok {α β : Type} {action : DiskAction α} {after : α → DiskAction β} {value : β}
    (ran : (action >>= after).run disk = (.ok value, final)) :
    ∃ between middle, action.run disk = (.ok between, middle) ∧
      (after between).run middle = (.ok value, final) := by
  induction action generalizing disk with
  | done result =>
      cases result with
      | ok between => exact ⟨between, disk, rfl, ran⟩
      | error error => cases ran
  | operate effect next ih => exact ih _ ran

/-- After an action that changed nothing the rest finds the same disk. -/
theorem run_bind_eq_ok_of_idle {α β : Type} {action : DiskAction α} {after : α → DiskAction β}
    {value : β} (idle : (action.run disk).2 = disk)
    (ran : (action >>= after).run disk = (.ok value, final)) :
    ∃ between, (after between).run disk = (.ok value, final) := by
  obtain ⟨between, middle, first, rest⟩ := run_bind_eq_ok ran
  rw [first] at idle
  obtain rfl : middle = disk := idle
  exact ⟨between, rest⟩

/-- An action with a handler that fails again succeeds only by itself. -/
theorem run_tryCatch_eq_ok {α : Type} {action : DiskAction α} {handler : StageError → DiskAction α}
    {value : α} (ran : (tryCatch action handler).run disk = (.ok value, final))
    (rethrows : ∀ error middle, ((handler error).run middle).1 ≠ .ok value) :
    action.run disk = (.ok value, final) := by
  induction action generalizing disk with
  | done result =>
      cases result with
      | ok between => exact ran
      | error error => exact absurd (congrArg Prod.fst ran) (rethrows error disk)
  | operate effect next ih => exact ih _ ran

theorem run_inspect_bind {α β : Type} (look : Disk → α) (after : α → DiskAction β) (disk : Disk) :
    (inspect look >>= after).run disk = (after (look disk)).run disk := rfl

theorem run_requireProject (source : String) (disk : Disk) :
    ((requireProject source).run disk).2 = disk := by
  rw [requireProject, run_inspect_bind]
  split <;> rfl

theorem run_requireParent (destination : String) (disk : Disk) :
    ((requireParent destination).run disk).2 = disk := by
  rw [requireParent]
  split
  · rfl
  · rw [run_inspect_bind]
    split <;> rfl

/-- The destination is left as it is or removed. -/
theorem run_clearDestination (destination : String) (disk : Disk) :
    ((clearDestination destination).run disk).2 = disk ∨
      ((clearDestination destination).run disk).2 = (disk.removeTree destination).2 := by
  rw [clearDestination, run_inspect_bind]
  split
  · exact Or.inr rfl
  · exact Or.inl rfl

theorem run_change {path : String} {act : Disk → Except FileFault Disk} {value : Unit}
    (ran : (change path act).run disk = (.ok value, final)) : act disk = .ok final := by
  obtain ⟨answered, changed⟩ := Prod.mk.inj ran
  cases acted : act disk with
  | error fault =>
      rw [acted] at answered
      cases answered
  | ok next =>
      simp only [acted] at changed
      exact congrArg Except.ok changed

/-- A copy that succeeds has made its directory after all that stood there was removed. -/
theorem createDirectory_of_copyProject {count : Nat}
    (ran : (copyProject source destination filter).run disk = (.ok count, copied)) :
    ∃ cleared made, (cleared = disk ∨ cleared = (disk.removeTree destination).2) ∧
      cleared.createDirectory destination = .ok made := by
  obtain ⟨_, checked⟩ := run_bind_eq_ok_of_idle (run_requireProject source disk) ran
  obtain ⟨_, ready⟩ := run_bind_eq_ok_of_idle (run_requireParent destination disk) checked
  obtain ⟨_, cleared, clears, copies⟩ := run_bind_eq_ok ready
  have removed := run_clearDestination destination disk
  rw [clears] at removed
  have copies := run_tryCatch_eq_ok copies fun error middle isOk => by cases isOk
  obtain ⟨_, made, makes, -⟩ := run_bind_eq_ok copies
  exact ⟨cleared, made, removed, run_change makes⟩

/-- A project and a staging directory apart from each other: neither holds the other, and the path of
the project does not lead through the staging directory. -/
structure Apart (disk : Disk) (source staging : String) : Prop where
  outside : ∀ project top, disk.find .through source = .ok (project, .directory) →
    disk.place? staging = some top → ¬ top <+: project ∧ ¬ project <+: top
  aside : ∀ top, disk.place? staging = some top → ∀ loc ∈ disk.route source, ¬ top <+: loc

/-- No link stands in place of the image definition at the top of a project. -/
def PlainDefinition (disk : Disk) (source : String) : Prop :=
  ∀ project, disk.find .through source = .ok (project, .directory) →
    ∀ target, disk.tree.get? (project ++ [dockerfileName]) ≠ some (.link target)

theorem Apart.of_eq {staged : Location}
    (found : disk.find .through source = .ok (staged, .directory))
    (placed : disk.place? destination = some top) (outside : ¬ top <+: staged ∧ ¬ staged <+: top)
    (aside : ∀ loc ∈ disk.route source, ¬ top <+: loc) : Apart disk source destination where
  outside _ _ found' placed' := by
    obtain ⟨rfl, -⟩ := Prod.mk.inj (Except.ok.inj (found.symm.trans found'))
    exact Option.some.inj (placed.symm.trans placed') ▸ outside
  aside _ placed' := Option.some.inj (placed.symm.trans placed') ▸ aside

theorem PlainDefinition.of_eq {staged : Location}
    (found : disk.find .through source = .ok (staged, .directory))
    (absent : disk.tree.get? (staged ++ [dockerfileName]) = none) :
    PlainDefinition disk source := by
  intro project found' target
  obtain ⟨rfl, -⟩ := Prod.mk.inj (Except.ok.inj (found.symm.trans found'))
  simp [absent]

theorem place?_eq_none (unplaced : disk.place? destination = none) :
    ∃ fault, disk.resolve .itself destination = .error fault := by
  rw [place?] at unplaced
  split at unplaced
  · cases unplaced
  · cases unplaced
  next fault refused => exact ⟨fault, refused⟩

/-- Where nothing can stand nothing is removed, and no directory is made. -/
theorem exists_place_of_createDirectory {made : Disk}
    (removed : cleared = disk ∨
      cleared = (disk.removeTree (stagingPath root project version)).2)
    (created : cleared.createDirectory (stagingPath root project version) = .ok made) :
    ∃ top, disk.place? (stagingPath root project version) = some top := by
  rw [← Option.isSome_iff_exists, ← Option.ne_none_iff_isSome]
  intro unplaced
  obtain ⟨fault, refused⟩ := place?_eq_none unplaced
  have same : cleared = disk := by
    rcases removed with same | removed
    · exact same
    · rw [removed, Disk.removeTree, find, refused]
      rfl
  rw [same, createDirectory_of_slashless (dropSlashes_stagingPath _ _ _), refused] at created
  cases created

/-- A copy that succeeds has had a place for its directory that the path to it does not lead through. -/
theorem site_of_copyProject {count : Nat}
    (ran : (copyProject source (stagingPath root project version) filter).run disk =
      (.ok count, copied)) :
    ∃ dir, disk.place? (stagingPath root project version) =
        some (dir ++ [stagingName project version]) ∧
      Site (fun _ => False) root (stagingName project version) dir disk := by
  obtain ⟨cleared, made, removed, created⟩ := createDirectory_of_copyProject ran
  obtain ⟨top, placed⟩ := exists_place_of_createDirectory removed created
  obtain ⟨proper, -⟩ := opens_of_place?_stagingPath placed
  have left : Shrinks disk cleared ∧ AgreeOff (Within top) disk cleared := by
    rcases removed with rfl | rfl
    · exact ⟨fun _ _ => id, AgreeOff.refl _ _⟩
    · obtain ⟨shrinks, agree⟩ := shrinks_removeTree disk (stagingPath root project version)
      exact ⟨shrinks, agree.mono fun loc => (held_iff placed).1⟩
  obtain ⟨dir, rfl, site⟩ := site_of_createDirectory proper placed left.1 left.2 created
  exact ⟨dir, placed, site⟩

namespace Apart

variable {foreign : Location → Prop} {staged : Location}

/-- A source that is apart from its destination can be read while other jobs run. -/
theorem readable (apart : Apart disk source destination)
    (clear : ∀ loc ∈ disk.route source, ¬ foreign loc)
    (placed : disk.place? destination = some top)
    (found : disk.find .through source = .ok (staged, .directory)) :
    Readable foreign source top staged disk := by
  have avoids : ∀ loc ∈ disk.route source, ¬ (top <+: loc ∨ foreign loc) :=
    fun loc member => not_or.2 ⟨apart.aside top placed loc member, clear loc member⟩
  obtain ⟨sound, opens⟩ := opens_of_find found avoids
  exact ⟨sound, opens⟩

/-- Nothing of the project is in the staging directory. -/
theorem not_within (apart : Apart disk source destination)
    (placed : disk.place? destination = some top)
    (found : disk.find .through source = .ok (staged, .directory)) {loc : Location}
    (inside : staged <+: loc) : ¬ top <+: loc := by
  obtain ⟨notInside, notAround⟩ := apart.outside staged top found placed
  intro within
  rcases List.prefix_or_prefix_of_prefix inside within with around | into
  · exact notAround around
  · exact notInside into

end Apart

/-- A staging directory is ready for its definition once the project is mirrored there. -/
theorem Mirrors.ready {foreign : Location → Prop} {base name : String} {tree : Location}
    (mirrors : Mirrors filter disk tree (dir ++ [name]) copied)
    (site : Site foreign base name dir copied)
    (plain : ∀ target, disk.tree.get? (tree ++ [dockerfileName]) ≠ some (.link target)) :
    Ready foreign base name dir copied where
  site := site
  made := mirrors.made
  plain target := by
    rw [mirrors.holds [dockerfileName] (by simp), VersionMatrix.copied]
    split
    · exact plain target
    · simp

/-- A context that holds of a project what the filter includes, each entry once and as the archive keeps
it, and at the top an image definition with some text. -/
structure BuildContext.Holds (filter : CopyFilter) (disk : Disk) (project : Location)
    (definition : String) (context : BuildContext) : Prop where
  distinct : (context.map (·.1)).Nodup
  definition : ∃ executable, (dockerfileName, .file (Text.utf8 definition) executable) ∈ context ∧
    (executable = true ↔ filter.includes dockerfileName = true ∧
      ∃ bytes, disk.tree.get? (project ++ [dockerfileName]) = some (.file bytes true))
  members : ∀ path entry, path ≠ dockerfileName → ((path, entry) ∈ context ↔
    ∃ relative ≠ [], path = Path.joinAll "" relative ∧ filter.includes path = true ∧
      ∃ found, disk.tree.get? (project ++ relative) = some found ∧ entry = packedEntry found)

/-- A staging directory stays ready when its definition is written. -/
theorem Written.ready {foreign : Location → Prop} {base name : String}
    (done : Written version template (dir ++ [name]) copied written)
    (ready : Ready foreign base name dir copied) : Ready foreign base name dir written := by
  obtain ⟨text, -, holds⟩ := done.text
  refine ⟨ready.site.of_agreeOff_within done.agree, ?_, fun target => ?_⟩
  · rw [holds, if_neg (by simp)]
    exact ready.made
  · rw [holds, if_pos rfl]
    simp

theorem joinAll_dockerfileName : Path.joinAll "" [dockerfileName] = dockerfileName := by decide

/-- What is executable is a file that is marked so. -/
theorem executableAt_iff {loc : Location} :
    executableAt disk loc = true ↔ ∃ bytes, disk.tree.get? loc = some (.file bytes true) := by
  rw [executableAt]
  split
  next bytes executable found => simp [found]
  next _ other =>
      simp only [Bool.false_eq_true, false_iff, not_exists]
      exact fun bytes found => other bytes true found

/-- The image definition is executable if the one of the project was that it is written over. -/
theorem Mirrors.executable_iff {top tree : Location} (mirrors : Mirrors filter disk tree top copied) :
    executableAt copied (top ++ [dockerfileName]) = true ↔
      filter.includes dockerfileName = true ∧
        ∃ bytes, disk.tree.get? (tree ++ [dockerfileName]) = some (.file bytes true) := by
  rw [executableAt_iff, mirrors.holds [dockerfileName] (by simp), VersionMatrix.copied,
    joinAll_dockerfileName]
  split
  next included => simp [included]
  next excluded => simp [excluded]

/-- Copying, writing the image definition and packing give the context that is asked for. -/
theorem Mirrors.holds_context {base name : String} {tree : Location} {context : BuildContext}
    {foreign : Location → Prop} (mirrors : Mirrors filter disk tree (dir ++ [name]) copied)
    (ready : Ready foreign base name dir copied)
    (done : Written version template (dir ++ [name]) copied written)
    (packed : contextOf written (Path.join base name) = .ok context) :
    ∃ text, substituteVersion? template version = some text ∧
      context.Holds filter disk tree text := by
  obtain ⟨distinct, members⟩ := (done.ready ready).packs packed
  obtain ⟨text, substituted, holds⟩ := done.text
  refine ⟨text, substituted, distinct, ?_, fun path entry other => ?_⟩
  · refine ⟨executableAt copied (dir ++ [name] ++ [dockerfileName]), ?_, mirrors.executable_iff⟩
    have stands := (holds (dir ++ [name] ++ [dockerfileName])).trans (if_pos rfl)
    exact (members _ _).2
      ⟨[dockerfileName], by simp, _, joinAll_dockerfileName.symm, stands, rfl⟩
  · have elsewhere : ∀ relative, path = Path.joinAll "" relative →
        written.tree.get? (dir ++ [name] ++ relative) =
          copied.tree.get? (dir ++ [name] ++ relative) := by
      intro relative same
      rw [holds, if_neg]
      intro atTop
      rw [List.append_cancel_left atTop, joinAll_dockerfileName] at same
      exact other same
    rw [members]
    constructor
    · rintro ⟨relative, proper, found, same, stands, rfl⟩
      rw [elsewhere relative same, mirrors.holds relative proper, VersionMatrix.copied, ← same] at stands
      split at stands
      next included => exact ⟨relative, proper, same, included, found, stands, rfl⟩
      next => cases stands
    · rintro ⟨relative, proper, same, included, found, stands, rfl⟩
      refine ⟨relative, proper, found, same, ?_, rfl⟩
      rw [elsewhere relative same, mirrors.holds relative proper, VersionMatrix.copied, ← same,
        if_pos included, stands]

theorem clearPaths_nothing (disk : Disk) (source destination : String) :
    ClearPaths (fun _ => False) source destination disk :=
  ⟨fun _ _ => id, fun _ _ => id⟩

/-- Whenever a project has been copied it is mirrored in the place of its staging directory, whatever
stood there before. -/
theorem exists_mirrors_of_copyProject {count : Nat}
    (apart : Apart disk source (stagingPath root project version))
    (copies : (copyProject source (stagingPath root project version) filter).run disk =
      (.ok count, copied)) :
    ∃ dir tree, disk.place? (stagingPath root project version) =
        some (dir ++ [stagingName project version]) ∧
      disk.find .through source = .ok (tree, .directory) ∧
      Site (fun _ => False) root (stagingName project version) dir copied ∧
      Mirrors filter disk tree (dir ++ [stagingName project version]) copied := by
  obtain ⟨dir, placed, site⟩ := site_of_copyProject copies
  have clear := clearPaths_nothing disk source (Path.join root (stagingName project version))
  have mirrored := (@ClearPaths.confined_copyProject _ disk _ _ _ dir filter clear site
    fun tree found => ⟨apart.readable (fun _ _ => id) placed found,
      fun loc inside => ⟨apart.not_within placed found inside, id⟩⟩).ends
  rw [stagingPath] at copies
  rw [Ends, copies] at mirrored
  obtain ⟨agree, mirrored⟩ := mirrored
  obtain ⟨tree, found, mirrors⟩ := mirrored rfl
  exact ⟨dir, tree, placed, found, site.of_agreeOff_within agree, mirrors⟩

/-- Whenever a project has been copied, its image definition written and the copy packed, the context
holds of the project what the filter includes and the image definition, whatever stood there before. -/
theorem exists_holds_context {count : Nat} {path : String} {context : BuildContext}
    (apart : Apart disk source (stagingPath root project version))
    (plain : PlainDefinition disk source)
    (copies : (copyProject source (stagingPath root project version) filter).run disk =
      (.ok count, copied))
    (writes : (writeDockerfile (stagingPath root project version) version template).run copied =
      (.ok path, written))
    (packed : contextOf written (stagingPath root project version) = .ok context) :
    ∃ tree text, disk.find .through source = .ok (tree, .directory) ∧
      substituteVersion? template version = some text ∧ context.Holds filter disk tree text := by
  obtain ⟨dir, tree, placed, found, site, mirrors⟩ := exists_mirrors_of_copyProject apart copies
  rw [stagingPath] at writes packed
  have ready := mirrors.ready site (plain tree found)
  have done := (@confined_writeDockerfile _ copied _ _ version template dir ready).ends
  rw [Ends, writes] at done
  obtain ⟨text, substituted, holds⟩ := mirrors.holds_context ready (done.2 rfl) packed
  exact ⟨tree, text, found, substituted, holds⟩

end VersionMatrix
