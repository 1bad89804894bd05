import VersionMatrix.Proofs.Staging.Project
import VersionMatrix.Staging.Template

/-! The image definition: it is written at the top of the staging directory, in place of a file that was
copied there, and changes nothing else. -/
namespace VersionMatrix

open FileTree Disk DiskAction

variable {foreign : Location → Prop} {initial disk after found : Disk}
  {base name version template : String} {dir : Location}

theorem isName_dockerfileName : Path.isName dockerfileName = true := by decide

/-- Whether a file is executable that is written over what stands at a location. -/
def executableAt (disk : Disk) (loc : Location) : Bool :=
  match disk.tree.get? loc with
  | some (.file _ executable) => executable
  | _ => false

/-- A staging directory that is there, and in which no link stands in place of the image definition. -/
structure Ready (foreign : Location → Prop) (base name : String) (dir : Location) (disk : Disk) :
    Prop where
  site : Site foreign base name dir disk
  made : disk.tree.get? (dir ++ [name]) = some .directory
  plain : ∀ target, disk.tree.get? (dir ++ [name] ++ [dockerfileName]) ≠ some (.link target)

namespace Ready

theorem of_agreeOff (ready : Ready foreign base name dir disk)
    (agree : AgreeOff foreign disk found) : Ready foreign base name dir found where
  site := ready.site.of_agreeOff_foreign agree
  made := ready.site.get?_eq agree ▸ ready.made
  plain target := by
    rw [← agree.get? _ (ready.site.apart _ (List.prefix_append ..))]
    exact ready.plain target

/-- The path of the staging directory leads to it. -/
theorem opens (ready : Ready foreign base name dir disk) :
    disk.Opens foreign (Path.join base name) (dir ++ [name]) :=
  opens_join (ready.site.opens.reveal fun _ => Or.inr) ready.site.proper
    (size_le_of_joinFault? ready.site.sound)
    ⟨ready.site.apart _ (List.prefix_refl _), ready.made⟩

theorem fault? (ready : Ready foreign base name dir disk) :
    Path.fault? (Path.join base name) = none :=
  (Option.or_eq_none_iff.1 ready.site.sound).1

theorem find (ready : Ready foreign base name dir disk) :
    disk.find .through (Path.join base name) = .ok (dir ++ [name], .directory) :=
  find_of_opens ready.opens ready.fault?

theorem find_itself (ready : Ready foreign base name dir disk) :
    disk.find .itself (Path.join base name) = .ok (dir ++ [name], .directory) := by
  rw [find_itself_join ready.site.opens ready.site.proper, ready.site.sound, ready.made]

theorem stat (ready : Ready foreign base name dir disk) :
    disk.stat (Path.join base name) = .ok .directory := by
  rw [Disk.stat, ready.find]
  rfl

end Ready

/-- The image definition has been written: a regular file with the text of the template in which the
leftmost placeholder is the version. -/
structure Written (version template : String) (top : Location) (before after : Disk) : Prop where
  agree : AgreeOff (Within top) before after
  text : ∃ text, substituteVersion? template version = some text ∧
    ∀ loc, after.tree.get? loc =
      if loc = top ++ [dockerfileName] then
        some (.file (Text.utf8 text) (executableAt before (top ++ [dockerfileName])))
      else before.tree.get? loc

/-- What the image definition does to the disk: it is refused, or written over what is no directory. -/
theorem writeFile_dockerfile (ready : Ready foreign base name dir disk) (text : String) :
    ∃ fault? : Option FileFault,
      (fault? = none → disk.tree.get? (dir ++ [name] ++ [dockerfileName]) ≠ some .directory) ∧
      ∀ found, AgreeOff foreign disk found →
      found.writeFile (Path.join (Path.join base name) dockerfileName) (Text.utf8 text) =
        match fault? with
        | some fault => .error fault
        | none => .ok (found.modifyTree (·.put (dir ++ [name] ++ [dockerfileName])
            (.file (Text.utf8 text) (executableAt disk (dir ++ [name] ++ [dockerfileName]))))) := by
  have same : ∀ found, AgreeOff foreign disk found →
      found.tree.get? (dir ++ [name] ++ [dockerfileName]) =
        disk.tree.get? (dir ++ [name] ++ [dockerfileName]) := fun found agree =>
    (agree.get? _ (ready.site.apart _ (List.prefix_append ..))).symm
  have writes : ∀ found, AgreeOff foreign disk found → _ := fun found agree =>
    writeFile_join (ready.of_agreeOff agree).opens isName_dockerfileName
      (ready.of_agreeOff agree).plain (Text.utf8 text) none
  cases fault : Path.joinFault? (Path.join base name) dockerfileName with
  | some fault' =>
      refine ⟨some fault', by simp, fun found agree => ?_⟩
      rw [writes found agree, fault]
  | none =>
      cases there : disk.tree.get? (dir ++ [name] ++ [dockerfileName]) with
      | none =>
          refine ⟨none, fun _ => by simp, fun found agree => ?_⟩
          rw [writes found agree, fault, same found agree, executableAt, there]
          rfl
      | some entry =>
          cases entry with
          | file bytes executable =>
              refine ⟨none, fun _ => by simp, fun found agree => ?_⟩
              rw [writes found agree, fault, same found agree, executableAt, there]
              rfl
          | directory =>
              refine ⟨some .isDirectory, by simp, fun found agree => ?_⟩
              rw [writes found agree, fault, same found agree, there]
          | link target => exact absurd there (ready.plain target)
          | socket =>
              refine ⟨some .noDevice, by simp, fun found agree => ?_⟩
              rw [writes found agree, fault, same found agree, there]

/-- Putting the image definition changes that place only, if no directory stands there. -/
theorem get?_put_dockerfile (ready : Ready foreign base name dir disk) {entry : Entry}
    (room : disk.tree.get? (dir ++ [name] ++ [dockerfileName]) ≠ some .directory)
    (loc : Location) :
    (disk.modifyTree (·.put (dir ++ [name] ++ [dockerfileName]) entry)).tree.get? loc =
      if loc = dir ++ [name] ++ [dockerfileName] then some entry else disk.tree.get? loc := by
  have room : disk.tree.hasRoom (dir ++ [name] ++ [dockerfileName]) = true :=
    hasRoom_of_isName isName_dockerfileName ready.made room
  simp only [modifyTree, Disk.get?_put, room, and_true]

/-- The definition is written in its place, whatever other jobs do. -/
theorem confined_writeFile_dockerfile (ready : Ready foreign base name dir disk) {text : String}
    (substituted : substituteVersion? template version = some text) :
    Confined (Within (dir ++ [name])) foreign
      (change (Path.join (Path.join base name) dockerfileName) fun disk =>
        disk.writeFile (Path.join (Path.join base name) dockerfileName) (Text.utf8 text)) disk
      fun result after => AgreeOff (Within (dir ++ [name])) disk after ∧
        (result.isOk = true → Written version template (dir ++ [name]) disk after) := by
  obtain ⟨fault?, room, writes⟩ := writeFile_dockerfile ready text
  cases fault? with
  | some fault =>
      exact confined_change_of_error writes ⟨AgreeOff.refl _ disk, (absurd · Bool.false_ne_true)⟩
  | none =>
      have agree : AgreeOff (Within (dir ++ [name])) disk
          (disk.modifyTree (·.put (dir ++ [name] ++ [dockerfileName])
            (.file (Text.utf8 text) (executableAt disk (dir ++ [name] ++ [dockerfileName]))))) :=
        agreeOff_put disk (List.prefix_append ..)
      refine confined_change_of_put writes (List.prefix_append ..)
        (ready.site.apart _ (List.prefix_append ..)) ?_
        ⟨agree, fun _ => ⟨agree, text, substituted, get?_put_dockerfile ready (room rfl)⟩⟩
      rw [List.dropLast_concat]
      exact ready.site.apart _ (List.prefix_refl _)

/-- Whatever is foreign, the image definition is written the same, and only to its place. -/
theorem confined_writeDockerfile (ready : Ready foreign base name dir disk) :
    Confined (Within (dir ++ [name])) foreign
      (writeDockerfile (Path.join base name) version template) disk fun result after =>
        AgreeOff (Within (dir ++ [name])) disk after ∧
          (result.isOk = true → Written version template (dir ++ [name]) disk after) := by
  unfold writeDockerfile substituteVersion
  cases substituted : substituteVersion? template version with
  | none => exact ⟨AgreeOff.refl _ disk, (absurd · Bool.false_ne_true)⟩
  | some text =>
      refine confined_inspect (fun found agree => (ready.of_agreeOff agree).stat) ?_
      refine Confined.andThen (confined_writeFile_dockerfile ready substituted) ?_ ?_
      · rintro error after ⟨agree, -⟩
        exact ⟨agree, (absurd · Bool.false_ne_true)⟩
      · rintro _ after ⟨agree, written⟩
        exact ⟨agree, fun _ => written rfl⟩

end VersionMatrix
