import VersionMatrix.Proofs.FileTree.Removal
import VersionMatrix.Proofs.Staging.Confined
import Mathlib.Data.List.Infix

/-! The place of a staging directory. It may be removed and made anew while the rest of the disk stays
as it is, and the path to it leads there all the same. -/
namespace VersionMatrix

open FileTree Disk

abbrev Within (top : Location) : Location → Prop := fun loc => top <+: loc

/-- A place for a staging directory: a name in a directory that a path leads to without leading through
the place. Nothing there is foreign. -/
structure Site (foreign : Location → Prop) (base name : String) (dir : Location) (disk : Disk) :
    Prop where
  proper : Path.isName name = true
  sound : Path.joinFault? base name = none
  apart : ∀ loc, dir ++ [name] <+: loc → ¬ foreign loc
  clear : ¬ foreign dir
  opens : disk.Opens (fun loc => dir ++ [name] <+: loc ∨ foreign loc) base dir

/-- A removal that foreign parts of the disk do not matter to, and that touches only its own. -/
def Removes (own foreign : Location → Prop) (disk : Disk) (path : String) : Prop :=
  ∀ found, AgreeOff foreign disk found →
    (found.removeTree path).1 = (disk.removeTree path).1 ∧
    AgreeOff foreign (disk.removeTree path).2 (found.removeTree path).2 ∧
    AgreeOff own found (found.removeTree path).2

variable {own foreign : Location → Prop} {disk other found : Disk} {base name path : String}
  {dir top loc : Location}

namespace Site

theorem of_agreeOff_within (site : Site foreign base name dir disk)
    (agree : AgreeOff (Within (dir ++ [name])) disk other) : Site foreign base name dir other where
  proper := site.proper
  sound := site.sound
  apart := site.apart
  clear := site.clear
  opens := site.opens.of_agreeOff (agree.mono fun _ => Or.inl)

theorem of_agreeOff_foreign (site : Site foreign base name dir disk)
    (agree : AgreeOff foreign disk other) : Site foreign base name dir other where
  proper := site.proper
  sound := site.sound
  apart := site.apart
  clear := site.clear
  opens := site.opens.of_agreeOff (agree.mono fun _ => Or.inr)

theorem get?_eq (site : Site foreign base name dir disk) (agree : AgreeOff foreign disk found) :
    found.tree.get? (dir ++ [name]) = disk.tree.get? (dir ++ [name]) :=
  (agree.get? _ (site.apart _ (List.prefix_refl _))).symm

/-- What the removal does at a site, by what stands there. -/
theorem removeTree (site : Site foreign base name dir disk) :
    disk.removeTree (Path.join base name) =
      match disk.tree.get? (dir ++ [name]) with
      | none => (.error .notFound, disk)
      | some (.link _) => (.ok (), disk.modifyTree (·.erase (dir ++ [name])))
      | some .directory =>
        (.ok (), (disk.modifyTree (·.eraseBelow (dir ++ [name]))).modifyTree
          (·.erase (dir ++ [name])))
      | some _ => (.error .notDirectory, disk) := by
  rw [removeTree_join (site.opens.reveal fun _ => Or.inl) site.proper, site.sound]
  cases disk.tree.get? (dir ++ [name]) with
  | none => rfl
  | some entry => cases entry <;> rfl

/-- After a removal nothing is left of what stood there, or the disk is as before. -/
theorem get?_removeTree (site : Site foreign base name dir disk) :
    (∀ loc, dir ++ [name] <+: loc →
      (disk.removeTree (Path.join base name)).2.tree.get? loc = none) ∧
        AgreeOff (Within (dir ++ [name])) disk (disk.removeTree (Path.join base name)).2 ∨
      (disk.removeTree (Path.join base name)).1 ≠ .ok () ∧
        (disk.removeTree (Path.join base name)).2 = disk := by
  have proper : dir ++ [name] ≠ [] := by simp
  rw [site.removeTree]
  cases disk.tree.get? (dir ++ [name]) with
  | none => exact Or.inr ⟨by simp, rfl⟩
  | some entry =>
      cases entry with
      | directory =>
          refine Or.inl ⟨fun loc within => get?_erase_of_within proper within, rfl, fun loc out => ?_⟩
          simp only [modifyTree]
          rw [get?_erase_of_not_within out, get?_eraseBelow_of_not_within out]
      | link target =>
          refine Or.inl ⟨fun loc within => get?_erase_of_within proper within, rfl, fun loc out => ?_⟩
          simp only [modifyTree]
          rw [get?_erase_of_not_within out]
      | _ => exact Or.inr ⟨by simp, rfl⟩

/-- The removal changes nothing outside the site. -/
theorem agreeOff_removeTree (site : Site foreign base name dir disk) :
    AgreeOff (Within (dir ++ [name])) disk (disk.removeTree (Path.join base name)).2 := by
  rcases site.get?_removeTree with ⟨-, agree⟩ | ⟨-, same⟩
  · exact agree
  · rw [same]
    exact AgreeOff.refl _ disk

/-- A site can be removed without a trace elsewhere. -/
theorem removes (site : Site foreign base name dir disk) :
    Removes (Within (dir ++ [name])) foreign disk (Path.join base name) := by
  intro found agree
  have site' := site.of_agreeOff_foreign agree
  refine ⟨?_, ⟨?_, ?_⟩, site'.agreeOff_removeTree⟩
  · rw [site.removeTree, site'.removeTree, site.get?_eq agree]
    cases disk.tree.get? (dir ++ [name]) with
    | none => rfl
    | some entry => cases entry <;> rfl
  · exact (site.agreeOff_removeTree.workingDirectory.symm.trans agree.workingDirectory).trans
      site'.agreeOff_removeTree.workingDirectory
  · intro loc clear
    by_cases within : dir ++ [name] <+: loc
    · have erased : ∀ tree : FileTree, (tree.erase (dir ++ [name])).get? loc = none :=
        fun tree => get?_erase_of_within (by simp) within
      rw [site.removeTree, site'.removeTree, site.get?_eq agree]
      cases disk.tree.get? (dir ++ [name]) with
      | none => exact agree.get? loc clear
      | some entry =>
          cases entry <;> simp only [modifyTree, erased]
          · exact agree.get? loc clear
          · exact agree.get? loc clear
    · rw [← site.agreeOff_removeTree.get? loc within, ← site'.agreeOff_removeTree.get? loc within]
      exact agree.get? loc clear

end Site

theorem Removes.widen {own' : Location → Prop} (removes : Removes own foreign disk path)
    (more : ∀ loc, own loc → own' loc) : Removes own' foreign disk path := by
  intro found agree
  obtain ⟨same, effects, kept⟩ := removes found agree
  exact ⟨same, effects, kept.mono more⟩

/-- Where a path leads nowhere, nothing is removed. -/
theorem removes_of_error {fault : FileFault}
    (refused : ∀ found, AgreeOff foreign disk found → found.find .itself path = .error fault) :
    Removes own foreign disk path ∧ disk.removeTree path = (.error fault, disk) := by
  have idle : ∀ found, AgreeOff foreign disk found →
      found.removeTree path = (.error fault, found) :=
    fun found agree => by rw [Disk.removeTree, refused found agree]
  have here := idle disk (AgreeOff.refl foreign disk)
  refine ⟨fun found agree => ?_, here⟩
  rw [idle found agree, here]
  exact ⟨rfl, agree, AgreeOff.refl own found⟩

namespace DiskAction

/-- A removal, whether it is refused or not. -/
theorem confined_removeTree (removes : Removes own foreign disk path) :
    Confined own foreign (removeTree path) disk fun _ after => AgreeOff own disk after := by
  refine ⟨fun found agree => ?_, (removes disk (AgreeOff.refl foreign disk)).2.2⟩
  obtain ⟨same, effects, kept⟩ := removes found agree
  refine ⟨?_, effects, kept⟩
  simp only [same]

/-- A tree is discarded without a trace elsewhere, whatever other jobs do. -/
theorem confined_discardTree (removes : Removes own foreign disk path) :
    Confined own foreign (discardTree path) disk fun _ after => AgreeOff own disk after := by
  refine ⟨fun found agree => ?_, (removes disk (AgreeOff.refl foreign disk)).2.2⟩
  obtain ⟨-, effects, kept⟩ := removes found agree
  exact ⟨rfl, effects, kept⟩

end DiskAction

end VersionMatrix
