import VersionMatrix.Proofs.FileTree.Components
import VersionMatrix.Proofs.Run.Footprint
import VersionMatrix.Proofs.Staging.Clash

/-! Where staging directories stand. Whatever a project and a version are called, the path of their
staging directory is that of the root with one component more, so it is made and removed in the directory
that the root leads to, and none of them stands in another. -/
namespace VersionMatrix

open FileTree Disk DiskAction Job

variable {pipeline : Pipeline} {job : Job} {disk after : Disk} {root project version name : String}
  {project' version' : String} {top top' : Location}

/-- The name of a staging directory is one step of a path. -/
theorem isComponent_stagingName (project version : String) :
    Path.IsComponent (stagingName project version).toList where
  filled := by simpa using stagingName_ne_empty project version
  moves dot := by
    have long := length_stagingName project version
    rw [dot] at long
    exact absurd long (by decide)
  slashless := slash_notMem_stagingName project version

/-- A staging path has one component more than the staging root. -/
theorem components_stagingPath (root project version : String) :
    Path.components (stagingPath root project version) =
      Path.components root ++ [stagingName project version] :=
  Path.components_join (isComponent_stagingName project version) root

/-- A staging directory is in no other one of the same root. -/
theorem stagingPath_eq_of_within
    (within : Path.components (stagingPath root project version) <+:
      Path.components (stagingPath root project' version')) :
    stagingPath root project version = stagingPath root project' version' := by
  rw [components_stagingPath, components_stagingPath, List.prefix_append_right_inj,
    List.singleton_prefix_cons_iff] at within
  rw [stagingPath, stagingPath, within]

/-- No staging directory stands within another one. -/
theorem stagingPath_eq_of_place?_within
    (placed : disk.place? (stagingPath root project version) = some top)
    (placed' : disk.place? (stagingPath root project' version') = some top') (within : top <+: top') :
    stagingPath root project version = stagingPath root project' version' := by
  obtain ⟨-, dir, rfl, -, opens⟩ := opens_of_place?_stagingPath placed
  obtain ⟨-, dir', rfl, -, opens'⟩ := opens_of_place?_stagingPath placed'
  rw [opens.unique opens', List.prefix_append_right_inj, List.singleton_prefix_cons_iff] at within
  rw [stagingPath, stagingPath, within]

/-- What differs between two disks stands under this name in the directory that the root leads to, or
below that. -/
def ChangesChild (root name : String) (before after : Disk) : Prop :=
  ∀ loc, after.tree.get? loc ≠ before.tree.get? loc →
    ∃ dir, before.Opens (fun _ => False) root dir ∧ dir ++ [name] <+: loc

theorem changesChild_of_agreeOff
    (agree : AgreeOff (disk.Held (stagingPath root project version)) disk after) :
    ChangesChild root (stagingName project version) disk after := by
  intro loc changed
  have held : disk.Held (stagingPath root project version) loc := by
    by_contra outside
    exact changed (agree.get? loc outside).symm
  obtain ⟨top, placed, within⟩ := held
  obtain ⟨-, dir, rfl, -, opens⟩ := opens_of_place?_stagingPath placed
  exact ⟨dir, opens, within⟩

/-- The release of a staging directory changes only that child of the staging root. -/
theorem changesChild_release (pipeline : Pipeline) (job : Job) (disk : Disk) (outcome : RunOutcome) :
    ChangesChild pipeline.stagingRoot (stagingName job.request.projectName job.request.version) disk
      (release pipeline job disk outcome) := by
  refine changesChild_of_agreeOff ?_
  unfold release
  split
  · exact AgreeOff.refl _ disk
  · exact (shrinks_removeTree disk _).2

/-- A copy that succeeds has made the directory in the one that the root leads to. -/
theorem exists_child_of_copyWork (made : ((copyWork pipeline job).run disk).1.isOk) :
    ∃ dir, disk.Opens (fun _ => False) pipeline.stagingRoot dir ∧
      ((copyWork pipeline job).run disk).2.tree.get?
        (dir ++ [stagingName job.request.projectName job.request.version]) = some .directory := by
  obtain ⟨-, -, success⟩ := resides_copyWork pipeline job disk
  obtain ⟨cleared, base, name, dir, rows, shrinks, agree, lodged, -⟩ := success made
  have placed := place?_of_lodged shrinks agree lodged
  obtain ⟨-, dir', same, -, opens⟩ := opens_of_place?_stagingPath placed
  exact ⟨dir', opens, same ▸ lodged.found⟩

/-- Where the staging directory of a project and a version stands. Its name is one component, which has no
slash in it and leads neither nowhere nor up, and its path is that of the root with this component added,
so that the containing directory is the root. Of two that differ neither stands in the other, by their
paths and on every disk. The copy of a run and the removal after it change nothing but what stands under
this name in the directory that the root leads to, and a copy that succeeds has made a directory there. -/
theorem stagingPath_child (root project version : String) :
    let path := stagingPath root project version
    let name := stagingName project version
    ('/' ∉ name.toList ∧ name ≠ "" ∧ name ≠ "." ∧ name ≠ "..") ∧
    (path = root ++ name ∨ path = root ++ "/" ++ name) ∧
    Path.components path = Path.components root ++ [name] ∧
    (∃ parent, Path.parent? path = some parent ∧ Path.components parent = Path.components root) ∧
    (∀ project' version', stagingPath root project' version' ≠ path →
      ¬ Path.components path <+: Path.components (stagingPath root project' version') ∧
        ∀ (disk : Disk) (top top' : Location), disk.place? path = some top →
          disk.place? (stagingPath root project' version') = some top' → ¬ top <+: top') ∧
    ∀ (pipeline : Pipeline) (job : Job) (disk : Disk), pipeline.stagingRoot = root →
      job.request.projectName = project → job.request.version = version →
      (∀ outcome, ChangesChild root name disk (release pipeline job disk outcome)) ∧
      ChangesChild root name disk ((copyWork pipeline job).run disk).2 ∧
      (((copyWork pipeline job).run disk).1.isOk → ∃ dir, disk.Opens (fun _ => False) root dir ∧
        ((copyWork pipeline job).run disk).2.tree.get? (dir ++ [name]) = some .directory) := by
  intro path name
  have component := isComponent_stagingName project version
  refine ⟨⟨component.slashless, stagingName_ne_empty project version, ?_, ?_⟩, ?_,
    components_stagingPath root project version, Path.exists_parent?_join component root,
    fun project' version' differ => ⟨fun within => differ (stagingPath_eq_of_within within).symm,
      fun disk top top' placed placed' within =>
        differ (stagingPath_eq_of_place?_within placed placed' within).symm⟩, ?_⟩
  · exact fun dot => component.moves (congrArg String.toList dot)
  · intro dots
    have long := length_stagingName project version
    rw [show stagingName project version = ".." from dots] at long
    exact absurd long (by decide)
  · rcases Path.join_cases root name with ⟨rfl, same⟩ | ⟨-, -, same⟩ | ⟨-, -, same⟩
    · exact .inl (same.trans String.empty_append.symm)
    · exact .inl same
    · exact .inr same
  · rintro pipeline job disk rfl rfl rfl
    exact ⟨changesChild_release pipeline job disk,
      changesChild_of_agreeOff (resides_copyWork pipeline job disk).1, exists_child_of_copyWork⟩

end VersionMatrix
