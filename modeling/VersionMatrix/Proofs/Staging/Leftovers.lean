import VersionMatrix.Proofs.Staging.Context

/-! What an earlier copy has left in place of the next one. It is cleared away before anything is
copied, so the next copy comes to the same whatever was left. -/
namespace VersionMatrix

open FileTree Disk DiskAction

variable {disk other cleared : Disk} {source base name destination : String} {dir : Location}
  {filter : CopyFilter} {error : StageError}

/-- What stands at a path can be cleared away: nothing, a directory with all that is in it, or a link
that leads to something. -/
def Disk.MakesWay (disk : Disk) (path : String) : Prop :=
  ∀ top, disk.place? path = some top →
    disk.tree.get? top = none ∨ disk.tree.get? top = some .directory ∨
      (∃ target, disk.tree.get? top = some (.link target)) ∧ disk.pathExists path = true

/-- Nothing but a directory stands at a location. -/
def Disk.OnlyDirectory (disk : Disk) (loc : Location) : Prop :=
  ∀ entry, disk.tree.get? loc = some entry → entry = .directory

theorem Disk.onlyDirectory_of_absent {loc : Location} (absent : disk.tree.get? loc = none) :
    disk.OnlyDirectory loc := by
  rintro _ found
  rw [absent] at found
  cases found

theorem Disk.onlyDirectory_of_found {loc : Location} (found : disk.tree.get? loc = some .directory) :
    disk.OnlyDirectory loc :=
  fun _ found' => Option.some.inj (found'.symm.trans found)

theorem Disk.OnlyDirectory.of_shrinks {loc : Location} (only : disk.OnlyDirectory loc)
    (shrinks : Shrinks disk other) : other.OnlyDirectory loc :=
  fun entry found => only entry (shrinks loc entry found)

/-- A directory at the destination makes way for the copy. -/
theorem Disk.OnlyDirectory.makesWay {path : String} {top : Location} (only : disk.OnlyDirectory top)
    (placed : disk.place? path = some top) : disk.MakesWay path := by
  intro top' placed'
  obtain rfl := Option.some.inj (placed.symm.trans placed')
  cases found : disk.tree.get? top with
  | none => exact Or.inl rfl
  | some entry => exact Or.inr (Or.inl (congrArg some (only entry found)))

/-- Disks that differ in a place only are alike where nothing stands in it. -/
theorem agreeOff_of_absent {top : Location} (agree : AgreeOff (Within top) disk other)
    (absent : disk.tree.get? top = none) (absent' : other.tree.get? top = none) :
    AgreeOff (fun _ => False) disk other := by
  refine ⟨agree.workingDirectory, fun loc _ => ?_⟩
  by_cases inside : top <+: loc
  · rw [get?_eq_none_of_absent absent inside, get?_eq_none_of_absent absent' inside]
  · exact agree.get? loc inside

namespace Site

variable (site : Site (fun _ => False) base name dir disk)

include site

theorem place? : disk.place? (Path.join base name) = some (dir ++ [name]) := by
  rw [Disk.place?, resolve_join site.opens site.proper (Or.inl rfl), site.sound, destination]
  cases disk.tree.get? (dir ++ [name]) <;> rfl

theorem makesWay_of_onlyDirectory (only : disk.OnlyDirectory (dir ++ [name])) :
    disk.MakesWay (Path.join base name) :=
  only.makesWay site.place?

/-- Where nothing or a directory stands, something is found exactly if a directory stands there. -/
theorem pathExists_eq (only : disk.OnlyDirectory (dir ++ [name])) :
    disk.pathExists (Path.join base name) = (disk.tree.get? (dir ++ [name])).isSome := by
  have kept : ∀ target, disk.tree.get? (dir ++ [name]) ≠ some (.link target) :=
    fun target found => by cases only _ found
  rw [pathExists, stat_join site.opens site.proper kept, site.sound]
  cases disk.tree.get? (dir ++ [name]) <;> rfl

/-- A destination that is not there is left so. -/
theorem run_clearDestination_of_absent (absent : disk.tree.get? (dir ++ [name]) = none) :
    (clearDestination (Path.join base name)).run disk = (.ok (), disk) := by
  rw [clearDestination, run_inspect_bind, site.pathExists_eq (onlyDirectory_of_absent absent),
    absent]
  rfl

/-- A directory or a link at the destination is removed. -/
theorem removeTree_ok (stands : disk.tree.get? (dir ++ [name]) = some .directory ∨
      ∃ target, disk.tree.get? (dir ++ [name]) = some (.link target)) :
    (disk.removeTree (Path.join base name)).1 = .ok () ∧
      (disk.removeTree (Path.join base name)).2.tree.get? (dir ++ [name]) = none := by
  rcases stands with found | ⟨target, found⟩ <;> rw [site.removeTree, found]
  · exact ⟨rfl, get?_erase_of_within (by simp) (List.prefix_refl _)⟩
  · exact ⟨rfl, get?_erase_of_within (by simp) (List.prefix_refl _)⟩

/-- What can be cleared away is cleared away. -/
theorem exists_run_clearDestination (way : disk.MakesWay (Path.join base name)) :
    ∃ cleared, (clearDestination (Path.join base name)).run disk = (.ok (), cleared) ∧
      AgreeOff (Within (dir ++ [name])) disk cleared ∧
      cleared.tree.get? (dir ++ [name]) = none := by
  have clears : (disk.tree.get? (dir ++ [name]) = some .directory ∨
        ∃ target, disk.tree.get? (dir ++ [name]) = some (.link target)) →
      disk.pathExists (Path.join base name) = true →
      ∃ cleared, (clearDestination (Path.join base name)).run disk = (.ok (), cleared) ∧
        AgreeOff (Within (dir ++ [name])) disk cleared ∧
        cleared.tree.get? (dir ++ [name]) = none := by
    intro stands found
    obtain ⟨isOk, gone⟩ := site.removeTree_ok stands
    rw [clearDestination, run_inspect_bind, found]
    refine ⟨(disk.removeTree (Path.join base name)).2, Prod.ext ?_ rfl, site.agreeOff_removeTree, gone⟩
    exact congrArg (answerAt (Path.join base name)) isOk
  rcases way _ site.place? with absent | found | ⟨linked, leads⟩
  · exact ⟨disk, site.run_clearDestination_of_absent absent, AgreeOff.refl _ disk, absent⟩
  · refine clears (Or.inl found) ?_
    rw [site.pathExists_eq (onlyDirectory_of_found found), found, Option.isSome_some]
  · exact clears (Or.inr linked) leads

/-- After a removal there is still way for the next copy. -/
theorem makesWay_removeTree (way : disk.MakesWay (Path.join base name)) :
    (disk.removeTree (Path.join base name)).2.MakesWay (Path.join base name) := by
  rcases site.get?_removeTree with ⟨gone, agree⟩ | ⟨-, same⟩
  · refine (site.of_agreeOff_within agree).makesWay_of_onlyDirectory fun entry found => ?_
    rw [gone _ (List.prefix_refl _)] at found
    cases found
  · rw [same]
    exact way

end Site

def copyChecks (source destination : String) : DiskAction Unit := do
  requireProject source
  requireParent destination

/-- Actions in sequence run one after the other, up to the first error. -/
theorem DiskAction.run_bind {α β : Type} (action : DiskAction α) (after : α → DiskAction β)
    (disk : Disk) :
    (action >>= after).run disk =
      match action.run disk with
      | (.ok value, left) => (after value).run left
      | (.error error, left) => (.error error, left) := by
  induction action generalizing disk with
  | done result => cases result <;> rfl
  | operate effect next ih => exact ih disk (effect disk)

/-- After an action that changes nothing the rest goes on from the same disk. -/
theorem DiskAction.run_bind_of_idle {α β : Type} {action : DiskAction α} {disk : Disk}
    (idle : (action.run disk).2 = disk) (after : α → DiskAction β) :
    (action >>= after).run disk =
      match (action.run disk).1 with
      | .ok value => (after value).run disk
      | .error error => (.error error, disk) := by
  rw [run_bind]
  cases ran : action.run disk with
  | mk result left =>
      rw [ran] at idle
      obtain rfl : left = disk := idle
      cases result <;> rfl

/-- The checks before a copy do not change the disk. -/
theorem run_copyChecks (source destination : String) (disk : Disk) :
    (copyChecks source destination).run disk =
      match ((requireProject source).run disk).1 with
      | .ok _ => (((requireParent destination).run disk).1, disk)
      | .error error => (.error error, disk) := by
  rw [copyChecks, run_bind_of_idle (run_requireProject source disk)]
  cases ((requireProject source).run disk).1 with
  | ok value => exact Prod.ext rfl (run_requireParent destination disk)
  | error error => rfl

/-- A copy begins once it has been checked, with what stood at its destination cleared away. -/
theorem run_copyProject (source destination : String) (filter : CopyFilter) (disk : Disk) :
    (copyProject source destination filter).run disk =
      match ((copyChecks source destination).run disk).1 with
      | .ok _ =>
        (clearDestination destination >>= fun _ =>
          tryCatch (copyInto source destination filter) fun error => do
            discardTree destination
            throw error).run disk
      | .error error => (.error error, disk) := by
  rw [copyProject, run_bind_of_idle (run_requireProject source disk), run_copyChecks]
  cases ((requireProject source).run disk).1 with
  | error error => rfl
  | ok value =>
      simp only [run_bind_of_idle (run_requireParent destination disk)]
      cases ((requireParent destination).run disk).1 <;> rfl

/-- A place for a copy that neither the path to it nor the path of the project leads through. -/
structure Secluded (source base name : String) (dir : Location) (disk : Disk) : Prop where
  site : Site (fun _ => False) base name dir disk
  fromSource : ∀ loc ∈ disk.route source, ¬ dir ++ [name] <+: loc
  fromBase : ∀ loc ∈ disk.route base, ¬ dir ++ [name] <+: loc

namespace Secluded

variable (secluded : Secluded source base name dir disk)
  (agree : AgreeOff (Within (dir ++ [name])) disk other)

include secluded agree

theorem of_agreeOff : Secluded source base name dir other where
  site := secluded.site.of_agreeOff_within agree
  fromSource loc member :=
    secluded.fromSource loc (route_of_agreeOff agree secluded.fromSource ▸ member)
  fromBase loc member := secluded.fromBase loc (route_of_agreeOff agree secluded.fromBase ▸ member)

/-- The check of the project does not see the leftovers. -/
theorem run_requireProject_eq :
    ((requireProject source).run other).1 = ((requireProject source).run disk).1 := by
  rw [requireProject, run_inspect_bind, run_inspect_bind, stat_of_agreeOff agree secluded.fromSource]
  split <;> rfl

/-- The check of the parent does not see the leftovers. -/
theorem run_requireParent_eq :
    ((requireParent (Path.join base name)).run other).1 =
      ((requireParent (Path.join base name)).run disk).1 := by
  rw [requireParent]
  cases parent : Path.parent? (Path.join base name) with
  | none => rfl
  | some parent' =>
      have aside : ∀ loc ∈ disk.route parent', ¬ dir ++ [name] <+: loc := fun loc member =>
        secluded.fromBase loc (route_parent_join_subset secluded.site.proper parent member)
      have sees : other.isDirectory parent' = disk.isDirectory parent' := by
        rw [isDirectory, isDirectory, stat_of_agreeOff agree aside]
      simp only [run_inspect_bind, sees]
      cases parent' != "" && !disk.isDirectory parent' <;> rfl

/-- What stands in place of the copy does not matter to the checks. -/
theorem run_copyChecks_eq :
    ((copyChecks source (Path.join base name)).run other).1 =
      ((copyChecks source (Path.join base name)).run disk).1 := by
  rw [run_copyChecks, run_copyChecks, secluded.run_requireProject_eq agree,
    secluded.run_requireParent_eq agree]
  cases ((requireProject source).run disk).1 <;> rfl

omit agree in
/-- A copy that has passed its checks comes to what it comes to where nothing stands in its place. -/
theorem exists_cleared (way : disk.MakesWay (Path.join base name)) :
    ∃ cleared, AgreeOff (Within (dir ++ [name])) disk cleared ∧
      cleared.tree.get? (dir ++ [name]) = none ∧
      (((copyChecks source (Path.join base name)).run disk).1 = .ok () →
        (copyProject source (Path.join base name) filter).run disk =
          (copyProject source (Path.join base name) filter).run cleared) := by
  obtain ⟨cleared, clears, agree, absent⟩ := secluded.site.exists_run_clearDestination way
  have idle := (secluded.site.of_agreeOff_within agree).run_clearDestination_of_absent absent
  refine ⟨cleared, agree, absent, fun checked => ?_⟩
  rw [run_copyProject, run_copyProject, secluded.run_copyChecks_eq agree, checked]
  simp only [run_bind (clearDestination _), clears, idle]

end Secluded

end VersionMatrix
