import VersionMatrix.Proofs.Staging.Footprint

/-! What a copy that fails leaves. It is refused before it has changed anything, or it has cleared its
destination and leaves nothing there: neither what stood there before nor a part of the copy. -/
namespace VersionMatrix

open FileTree Disk DiskAction

variable {disk other cleared after : Disk} {source destination base name path : String}
  {dir loc : Location} {filter : CopyFilter}

namespace FileTree

variable {tree : FileTree} {sees : Location → Entry → Prop} {links left : Nat} {here : Location}
  {names : List String}

/-- A way that leads to a directory is walked to some entry if a link at its end is not followed. -/
theorem Leads.exists_walk_itself (leads : Leads sees links here names left dir)
    (seen : ∀ loc entry, sees loc entry → tree.get? loc = some entry) :
    ∃ loc found, tree.walk .itself links here names = .ok (.entry loc found) := by
  induction leads with
  | done => exact ⟨_, _, walk_nil⟩
  | stay idle _ ih =>
      rw [walk_stay idle]
      exact ih
  | up _ ih =>
      rw [walk_up]
      exact ih
  | down descends found _ ih =>
      rw [walk_name descends rfl, seen _ _ found]
      exact ih
  | follow descends found _ ih =>
      rw [walk_name descends rfl, seen _ _ found]
      simp only
      split
      · exact ⟨_, _, rfl⟩
      · exact ih

end FileTree

/-- Nothing stands where a path leads, not even a link. -/
def Disk.Missing (disk : Disk) (path : String) : Prop :=
  ∀ place, disk.find .itself path ≠ .ok place

theorem Disk.Missing.of_shrinks (missing : disk.Missing path) (shrinks : Shrinks disk other)
    (same : disk.workingDirectory = other.workingDirectory) : other.Missing path :=
  fun place found => missing place (find_of_shrinks shrinks same found)

/-- To remove what is missing changes nothing. -/
theorem Disk.Missing.removeTree (missing : disk.Missing path) : (disk.removeTree path).2 = disk := by
  rw [Disk.removeTree]
  cases found : disk.find .itself path with
  | error fault => rfl
  | ok place => exact absurd found (missing place)

/-- What a path led to is gone from its location, so the path leads nowhere. -/
theorem missing_of_gone {entry : Entry} (found : disk.find .itself path = .ok (loc, entry))
    (shrinks : Shrinks disk other) (same : disk.workingDirectory = other.workingDirectory)
    (gone : other.tree.get? loc = none) : other.Missing path := by
  rintro ⟨loc', entry'⟩ found'
  obtain ⟨rfl, -⟩ := Prod.mk.inj (Except.ok.inj
    ((find_of_shrinks shrinks same found').symm.trans found))
  cases gone.symm.trans (get?_of_find found')

theorem Path.fault?_dropSlashes (sound : Path.fault? path = none) :
    Path.fault? (dropSlashes path) = none := by
  obtain ⟨count, text⟩ := Path.exists_eq_dropSlashes_append path
  have whole : path = dropSlashes path ++ String.ofList (List.replicate count '/') := by
    rw [← String.toList_inj, text, String.toList_append, String.toList_ofList]
  have size := congrArg String.utf8ByteSize whole
  rw [String.utf8ByteSize_append] at size
  rw [Path.fault?_eq_none_iff] at sound ⊢
  obtain ⟨nulFree, filled, short⟩ := sound
  rw [text, List.mem_append, not_or] at nulFree
  exact ⟨nulFree.1, Path.dropSlashes_ne_empty filled, by omega⟩

/-- A path to a directory finds something without the slashes at its end, if only a link. -/
theorem exists_find_dropSlashes (found : disk.find .itself path = .ok (loc, .directory)) :
    ∃ place, disk.find .itself (dropSlashes path) = .ok place := by
  obtain ⟨sound, opens⟩ := bare_of_find found
  obtain ⟨start, left, leads⟩ := opens_dropSlashes.2 opens
  have steps : ∃ left, Leads (disk.tree.Shows fun _ => False) linkLimit
      (disk.origin (dropSlashes path)) (Path.steps (dropSlashes path)) left loc := by
    rcases Path.steps_eq_names_or (dropSlashes path) with same | slash
    · exact ⟨left, same ▸ leads⟩
    · exact ⟨left, slash ▸ leads.concat_empty⟩
  obtain ⟨_, leads⟩ := steps
  obtain ⟨place, entry, walked⟩ := leads.exists_walk_itself fun _ _ shown => shown.2
  refine ⟨(place, entry), ?_⟩
  rw [Disk.find, resolve_eq, Path.fault?_dropSlashes sound]
  simp only [start.2, walked]
  rfl

/-- The removal of a directory may be refused, but not for want of anything to remove. -/
theorem removeDirectory_ne_notFound (found : disk.find .itself path = .ok (loc, .directory)) :
    disk.removeDirectory path ≠ .error .notFound := by
  obtain ⟨sound, opens⟩ := bare_of_find found
  have through := find_of_opens opens sound
  obtain ⟨⟨place, entry⟩, stands⟩ := exists_find_dropSlashes found
  intro refused
  unfold removeDirectory at refused
  split at refused
  · rw [through] at refused
    cases refused
  · rw [through] at refused
    cases refused
  · rw [stands] at refused
    cases entry with
    | directory =>
        simp only [bind, Except.bind] at refused
        split at refused <;> cases refused
    | _ => cases refused

/-- A removal that is not refused leaves nothing at its path. The root of the disk always stays. -/
theorem missing_removeTree (removed : (disk.removeTree path).1 = .ok ())
    (inner : ∀ entry, disk.find .itself path ≠ .ok ([], entry)) :
    (disk.removeTree path).2.Missing path := by
  obtain ⟨shrinks, agree⟩ := shrinks_removeTree disk path
  rw [Disk.removeTree] at removed shrinks agree ⊢
  cases found : disk.find .itself path with
  | error fault =>
      rw [found] at removed
      cases removed
  | ok place =>
      obtain ⟨top, entry⟩ := place
      have proper : top ≠ [] := by
        rintro rfl
        exact inner entry found
      have erased (before : Disk) : (before.modifyTree (·.erase top)).tree.get? top = none :=
        get?_erase_of_within proper (List.prefix_refl _)
      rw [found] at removed shrinks agree
      cases entry with
      | link target => exact missing_of_gone found shrinks agree.workingDirectory (erased disk)
      | directory =>
          simp only at removed shrinks agree ⊢
          have less := shrinks_eraseBelow disk top
          cases cleared : (disk.modifyTree (·.eraseBelow top)).removeDirectory path with
          | ok next =>
              obtain ⟨loc, found', rfl⟩ := exists_erase_of_removeDirectory cleared
              rw [cleared] at shrinks agree
              -- The emptied directory is the one that the path led to before.
              have opens := (bare_of_find found).2
              have opens' := (bare_of_find found').2
              obtain rfl : loc = top :=
                ((opens_dropSlashes.1 opens').of_shrinks less rfl).unique opens
              exact missing_of_gone found shrinks agree.workingDirectory (erased _)
          | error fault =>
              rw [cleared] at removed
              cases fault with
              | notFound =>
                  rintro ⟨loc, entry⟩ found'
                  obtain ⟨rfl, rfl⟩ := Prod.mk.inj (Except.ok.inj
                    ((find_of_shrinks less rfl found').symm.trans found))
                  exact removeDirectory_ne_notFound found' cleared
              | _ => cases removed
      | _ => cases removed

/-- Whatever directory a path leads to can be removed by it. The root of the disk cannot. -/
def Disk.Removable (disk : Disk) (path : String) : Prop :=
  ∀ loc, disk.find .itself path = .ok (loc, .directory) →
    loc ≠ [] ∧ (disk.removeTree path).1 = .ok ()

/-- The disk is as it was, or nothing stands at the destination any more. -/
def Withdrawn (destination : String) (disk after : Disk) : Prop :=
  after = disk ∨ after.Missing destination

/-- A removal that is refused has changed nothing, and any other leaves nothing. -/
theorem withdrawn_removeTree (removable : disk.Removable path) :
    Withdrawn path disk (disk.removeTree path).2 := by
  by_cases removed : (disk.removeTree path).1 = .ok ()
  · refine Or.inr (missing_removeTree removed fun entry found => ?_)
    have root := get?_of_find found
    rw [get?_root] at root
    obtain rfl := Option.some.inj root
    exact (removable [] found).1 rfl
  · refine Or.inl ?_
    cases found : disk.find .itself path with
    | error fault => rw [Disk.removeTree, found]
    | ok place =>
        obtain ⟨top, entry⟩ := place
        cases entry with
        | directory => exact absurd (removable top found).2 removed
        | link target =>
            rw [Disk.removeTree, found] at removed
            exact absurd rfl removed
        | _ => rw [Disk.removeTree, found]

theorem Withdrawn.removeTree (removable : disk.Removable destination)
    (withdrawn : Withdrawn destination disk cleared) :
    Withdrawn destination disk (cleared.removeTree destination).2 := by
  rcases withdrawn with rfl | missing
  · exact withdrawn_removeTree removable
  · exact Or.inr (missing.removeTree.symm ▸ missing)

/-- To clear the destination changes nothing or leaves nothing there. -/
theorem withdrawn_clearDestination (removable : disk.Removable destination) :
    (clearDestination destination).Ends disk fun _ after => Withdrawn destination disk after := by
  refine ends_inspect ?_
  split
  · exact withdrawn_removeTree removable
  · exact Or.inl rfl

/-- Where a directory can be made nothing stands. -/
theorem Free.missing (free : Free disk path base name dir) : disk.Missing path := by
  rintro ⟨loc, entry⟩ found
  obtain rfl := Option.some.inj ((place?_of_find found).symm.trans free.place?)
  cases free.absent.symm.trans (get?_of_find found)

/-- What a copy has lodged at its destination goes with it. -/
theorem Lodged.missing {rows : List (String × Entry)}
    (lodged : Lodged destination base name dir rows cleared after) :
    (after.removeTree destination).2.Missing destination :=
  lodged.free.missing.of_shrinks lodged.removed.1 lodged.removed.2.workingDirectory

/-- A copy to a cleared place that fails is removed again. -/
theorem withdrawn_copyInto_or_discard (removable : disk.Removable destination)
    (withdrawn : Withdrawn destination disk cleared) :
    (tryCatch (copyInto source destination filter) fun error => do
      discardTree destination
      throw error).Ends cleared fun result after =>
        result.isOk = false → Withdrawn destination disk after := by
  refine (ends_copyInto cleared).recover (fun _ _ _ => nofun) ?_
  rintro error after (⟨-, rfl⟩ | ⟨base, name, dir, rows, lodged, -⟩) -
  · exact withdrawn.removeTree removable
  · exact Or.inr lodged.missing

/-- A copy that fails has changed nothing, or nothing is left at its destination. -/
theorem withdrawn_copyProject (source : String) (filter : CopyFilter)
    (removable : disk.Removable destination) :
    (copyProject source destination filter).Ends disk fun result after =>
      result.isOk = false → Withdrawn destination disk after := by
  have project : (requireProject source).Ends disk fun _ after => after = disk :=
    run_requireProject source disk
  have parent : (requireParent destination).Ends disk fun _ after => after = disk :=
    run_requireParent destination disk
  refine project.andThen (fun _ _ same _ => Or.inl same) ?_
  rintro _ _ rfl
  refine parent.andThen (fun _ _ same _ => Or.inl same) ?_
  rintro _ _ rfl
  exact (withdrawn_clearDestination removable).andThen (fun _ _ withdrawn _ => withdrawn)
    fun _ _ => withdrawn_copyInto_or_discard removable

/-- What a copy that fails leaves, if its destination can be removed at all: the disk is as it was, or
nothing stands at the destination any more, whatever the project holds and however far the copy came.
Then nothing stands anywhere that did not stand there before, and only what the destination named has been
removed. -/
theorem copyProject_withdrawn (source destination : String) (filter : CopyFilter) (disk : Disk)
    (removable : disk.Removable destination) {error : StageError} {after : Disk}
    (failed : (copyProject source destination filter).run disk = (.error error, after)) :
    after = disk ∨ after.Missing destination ∧ Shrinks disk after ∧
      AgreeOff (disk.Held destination) disk after := by
  have withdrawn := withdrawn_copyProject source filter removable
  have resides := ends_copyProject source destination filter disk
  rw [DiskAction.Ends, failed] at withdrawn resides
  obtain ⟨agree, shrinks, -⟩ := resides
  rcases withdrawn rfl with same | missing
  · exact Or.inl same
  · exact Or.inr ⟨missing, shrinks rfl, agree⟩

/-- A project in which a socket comes after a file, and what stands at the destinations of its copies: an
older copy, and a link that leads nowhere. -/
def spoiltDisk : Disk where
  tree :=
    { entries :=
        [(["proj"], .directory), (["proj", "a"], .file [65] false), (["proj", "s"], .socket),
          (["old"], .directory), (["old", "b"], .file [66] false), (["lost"], .link "none")] }

/-- A copy that has taken the place of an older one stops at a socket and is removed, and a link that leads
nowhere is removed for a copy that never came to be. -/
theorem copyProject_withdrawn_socket :
    spoiltDisk.Removable "/old" ∧
      (∃ error after, (copyProject "/proj" "/old" {}).run spoiltDisk = (.error error, after) ∧
        after.tree.get? ["old"] = none ∧
        (after = spoiltDisk ∨ after.Missing "/old" ∧ Shrinks spoiltDisk after ∧
          AgreeOff (spoiltDisk.Held "/old") spoiltDisk after)) ∧
      spoiltDisk.Removable "/lost" ∧
      ∃ error after, (copyProject "/proj" "/lost" {}).run spoiltDisk = (.error error, after) ∧
        after.tree.get? ["lost"] = none ∧
        (after = spoiltDisk ∨ after.Missing "/lost" ∧ Shrinks spoiltDisk after ∧
          AgreeOff (spoiltDisk.Held "/lost") spoiltDisk after) := by
  have old : spoiltDisk.Removable "/old" := fun loc found => by
    have stands : spoiltDisk.find .itself "/old" = .ok (["old"], .directory) := by decide +kernel
    obtain ⟨rfl, -⟩ := Prod.mk.inj (Except.ok.inj (stands.symm.trans found))
    exact ⟨by simp, by decide +kernel⟩
  have lost : spoiltDisk.Removable "/lost" := fun loc found => by
    have stands : spoiltDisk.find .itself "/lost" = .ok (["lost"], .link "none") := by decide +kernel
    cases stands.symm.trans found
  have stops : (copyProject "/proj" "/old" {}).run spoiltDisk =
      (.error (.io "/proj/s" (.file .noDevice)),
        ((copyProject "/proj" "/old" {}).run spoiltDisk).2) :=
    Prod.ext (by decide +kernel) rfl
  have refused : (copyProject "/proj" "/lost" {}).run spoiltDisk =
      (.error (.io "/lost" (.file .alreadyExists)),
        ((copyProject "/proj" "/lost" {}).run spoiltDisk).2) :=
    Prod.ext (by decide +kernel) rfl
  exact ⟨old,
    ⟨_, _, stops, by decide +kernel, copyProject_withdrawn "/proj" "/old" {} spoiltDisk old stops⟩,
    lost, _, _, refused, by decide +kernel,
    copyProject_withdrawn "/proj" "/lost" {} spoiltDisk lost refused⟩

end VersionMatrix
