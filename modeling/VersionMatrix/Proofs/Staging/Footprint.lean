import VersionMatrix.Proofs.Staging.Additions

/-! What the copy of a project changes. It removes only what stood at its destination and adds entries only
there, and if it fails then it adds nothing. -/
namespace VersionMatrix

open FileTree Disk DiskAction

variable {disk after : Disk} {source destination base name : String} {dir : Location}
  {rows : List (String × Entry)} {filter : CopyFilter}

abbrev Disk.withDirectory (disk : Disk) (top : Location) : Disk :=
  disk.modifyTree (·.put top .directory)

/-- A copy under way in its place: a directory has been made there, and entries have been added to it. -/
structure Lodged (destination base name : String) (dir : Location) (rows : List (String × Entry))
    (cleared after : Disk) : Prop where
  free : Free cleared destination base name dir
  adds : Adds (dir ++ [name]) rows (cleared.withDirectory (dir ++ [name])) after

namespace Lodged

variable {cleared : Disk} (lodged : Lodged destination base name dir rows cleared after)

include lodged

theorem found : after.tree.get? (dir ++ [name]) = some .directory := by
  refine lodged.adds.kept _ _ (get?_put_self ?_)
  exact hasRoom_of_isName lodged.free.site.proper lodged.free.opens.get?
    (by simp [lodged.free.absent])

theorem agree : AgreeOff (Within (dir ++ [name])) cleared after :=
  (agreeOff_put cleared (List.prefix_refl _)).trans <| lodged.adds.agree.mono fun _ ⟨_, _, inside⟩ =>
    (List.prefix_append _ _).trans inside

theorem site : Site (fun _ => False) base name dir after :=
  lodged.free.site.of_agreeOff_within lodged.agree

/-- The path to the copy leads to it. -/
theorem target : Target destination [] (dir ++ [name]) after where
  names := by simp
  opens := opens_dropSlashes.1 (lodged.free.text ▸
    opens_join lodged.site.opens.bare lodged.free.site.proper lodged.free.short ⟨id, lodged.found⟩)

theorem removeTree_eq : after.removeTree destination = after.removeTree (Path.join base name) :=
  removeTree_of_dropSlashes lodged.free.text lodged.free.sound lodged.free.site.proper
    lodged.free.short lodged.site.opens lodged.found (Option.or_eq_none_iff.1 lodged.free.site.sound).1

/-- When the copy is removed again nothing is left of it. -/
theorem removed : Shrinks cleared (after.removeTree destination).2 ∧
    AgreeOff (Within (dir ++ [name])) cleared (after.removeTree destination).2 := by
  have gone : ∀ loc, dir ++ [name] <+: loc →
      (after.removeTree destination).2.tree.get? loc = none := fun loc inside => by
    rw [lodged.removeTree_eq, lodged.site.removeTree, lodged.found]
    exact get?_erase_of_within (by simp) inside
  have agree : AgreeOff (Within (dir ++ [name])) cleared (after.removeTree destination).2 := by
    rw [lodged.removeTree_eq]
    exact lodged.agree.trans lodged.site.agreeOff_removeTree
  refine ⟨fun loc entry standing => ?_, agree⟩
  rw [agree.get? loc, standing]
  intro inside
  rw [gone loc inside] at standing
  cases standing

end Lodged

/-- What is asked of a copy to a cleared place: it comes to nothing, or to entries in a directory that
has been made there, and in the end to what the source lists once the directory is there. -/
def Lodges (source destination : String) (cleared : Disk) : Outlook Nat := fun result after =>
  (result.isOk = false ∧ after = cleared) ∨
    ∃ base name dir rows, Lodged destination base name dir rows cleared after ∧
      (result.isOk = true → (cleared.withDirectory (dir ++ [name])).listing source = .ok rows)

/-- A copy to a cleared place comes to nothing, or to entries in a directory that it has made
there. -/
theorem ends_copyInto (cleared : Disk) :
    (copyInto source destination filter).Ends cleared (Lodges source destination cleared) := by
  refine ends_change_bind (fun _ => Or.inl ⟨rfl, rfl⟩) fun made created => ?_
  obtain ⟨base, name, dir, free, rfl⟩ := exists_free_of_createDirectory created
  refine ends_inspect ?_
  cases listed : (cleared.withDirectory (dir ++ [name])).listing source with
  | error fault =>
      exact Or.inr ⟨base, name, dir, [], ⟨free, adds_self (by simp)⟩, (absurd · Bool.false_ne_true)⟩
  | ok rows =>
      have started : Lodged destination base name dir [] cleared
          (cleared.withDirectory (dir ++ [name])) := ⟨free, adds_self (by simp)⟩
      have copies := extends_copyListed source destination filter pathLimit [] (dir ++ [name]) rows _
        started.target (awaited_of_listing (fun _ => get?_eq_none_of_absent free.absent) listed)
      exact Or.inr ⟨base, name, dir, rows, ⟨free, copies⟩, fun _ => listed⟩

/-- What is asked of the copy of a project: if it fails then less is on the disk at most, and otherwise
its destination has been cleared and the copy made there. Nothing but what the destination names is
touched. -/
def Resides {α : Type} (source destination : String) (disk : Disk) : Outlook α := fun result after =>
  AgreeOff (disk.Held destination) disk after ∧ (result.isOk = false → Shrinks disk after) ∧
    (result.isOk = true → ∃ cleared base name dir rows, Shrinks disk cleared ∧
      AgreeOff (disk.Held destination) disk cleared ∧
      Lodged destination base name dir rows cleared after ∧
      (cleared.withDirectory (dir ++ [name])).listing source = .ok rows)

theorem resides_error {α : Type} {error : StageError} (shrinks : Shrinks disk after)
    (agree : AgreeOff (disk.Held destination) disk after) :
    Resides source destination disk (.error error : Except StageError α) after :=
  ⟨agree, fun _ => shrinks, (absurd · Bool.false_ne_true)⟩

/-- To clear the destination removes only what it holds. -/
theorem ends_clearDestination (destination : String) (disk : Disk) :
    (clearDestination destination).Ends disk fun _ after =>
      Shrinks disk after ∧ AgreeOff (disk.Held destination) disk after := by
  refine ends_inspect ?_
  split
  · exact shrinks_removeTree disk destination
  · exact ⟨Shrinks.refl disk, AgreeOff.refl _ disk⟩

/-- The copy in a cleared place is made or removed again. -/
theorem ends_copyInto_or_discard {cleared : Disk} (shrinks : Shrinks disk cleared)
    (agree : AgreeOff (disk.Held destination) disk cleared) :
    (tryCatch (copyInto source destination filter) fun error => do
      discardTree destination
      throw error).Ends cleared (Resides source destination disk) := by
  have held : ∀ loc, cleared.Held destination loc → disk.Held destination loc :=
    fun loc => held_of_shrinks shrinks agree
  have within : ∀ {base name dir rows after}, Lodged destination base name dir rows cleared after →
      ∀ loc, Within (dir ++ [name]) loc → disk.Held destination loc :=
    fun lodged loc inside => held loc ⟨_, lodged.free.place?, inside⟩
  refine (ends_copyInto cleared).recover ?_ ?_
  · rintro count after (⟨⟨⟩, -⟩ | ⟨base, name, dir, rows, lodged, listed⟩)
    exact ⟨agree.trans (lodged.agree.mono (within lodged)), nofun, fun _ =>
      ⟨cleared, base, name, dir, rows, shrinks, agree, lodged, listed rfl⟩⟩
  · rintro error after (⟨-, rfl⟩ | ⟨base, name, dir, rows, lodged, -⟩)
    · obtain ⟨shrinks', agree'⟩ := shrinks_removeTree after destination
      exact resides_error (shrinks.trans shrinks') (agree.trans (agree'.mono held))
    · obtain ⟨shrinks', agree'⟩ := lodged.removed
      exact resides_error (shrinks.trans shrinks') (agree.trans (agree'.mono (within lodged)))

/-- A copy resides at its destination, however it ends. -/
theorem ends_copyProject (source destination : String) (filter : CopyFilter) (disk : Disk) :
    (copyProject source destination filter).Ends disk (Resides source destination disk) := by
  have idle : ∀ error, Resides source destination disk (.error error : Except StageError Nat) disk :=
    fun error => resides_error (Shrinks.refl disk) (AgreeOff.refl _ disk)
  have project : (requireProject source).Ends disk fun _ after => after = disk :=
    run_requireProject source disk
  have parent : (requireParent destination).Ends disk fun _ after => after = disk :=
    run_requireParent destination disk
  refine project.andThen ?_ ?_
  · rintro error _ rfl
    exact idle error
  rintro _ _ rfl
  refine parent.andThen ?_ ?_
  · rintro error _ rfl
    exact idle error
  rintro _ _ rfl
  refine (ends_clearDestination destination _).andThen ?_ ?_
  · rintro error after ⟨shrinks, agree⟩
    exact resides_error shrinks agree
  · rintro _ cleared ⟨shrinks, agree⟩
    exact ends_copyInto_or_discard shrinks agree

/-- Whether a copy succeeds or not, and wherever its project lies, everything on the disk stays as it is
except at the location that the destination names and below. -/
theorem copyProject_keeps (source destination : String) (filter : CopyFilter) (disk : Disk)
    (loc : Location) :
    ((copyProject source destination filter).run disk).2.tree.get? loc = disk.tree.get? loc ∨
      ∃ top, disk.place? destination = some top ∧ top <+: loc := by
  by_cases held : disk.Held destination loc
  · exact Or.inr held
  · exact Or.inl ((ends_copyProject source destination filter disk).1.get? loc held).symm

/-- A project with a file in it, and with a link in a directory of its own. -/
def nestedDisk : Disk where
  tree :=
    { entries :=
        [(["w"], .directory), (["w", "proj"], .directory), (["w", "proj", "a"], .file [65] false),
          (["w", "proj", "out"], .directory), (["w", "proj", "out", "b"], .link "../a")] }

/-- A copy of a project onto itself or around itself takes the project away, and a copy into the project
takes away what stood at its destination, whether the copy succeeds or not. -/
theorem exists_copyProject_loses :
    nestedDisk.find .through "/w/proj" = .ok (["w", "proj"], .directory) ∧
      nestedDisk.tree.get? ["w", "proj", "a"] = some (.file [65] false) ∧
      nestedDisk.tree.get? ["w", "proj", "out", "b"] = some (.link "../a") ∧
      (((copyProject "/w/proj" "/w/proj" {}).run nestedDisk).1.isOk = true ∧
        ((copyProject "/w/proj" "/w/proj" {}).run nestedDisk).2.tree.get? ["w", "proj", "a"] = none) ∧
      (((copyProject "/w/proj" "/w" {}).run nestedDisk).1.isOk = false ∧
        ((copyProject "/w/proj" "/w" {}).run nestedDisk).2.tree.get? ["w", "proj", "a"] = none) ∧
      ((copyProject "/w/proj" "/w/proj/out" {}).run nestedDisk).1.isOk = true ∧
        ((copyProject "/w/proj" "/w/proj/out" {}).run nestedDisk).2.tree.get?
          ["w", "proj", "out", "b"] = none := by
  decide +kernel

end VersionMatrix
