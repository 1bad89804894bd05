import VersionMatrix.Proofs.FileTree.Slashes

/-! What a removal leaves. With less on the disk a path leads where it led before, or it stops at a name
that has become free. So what is removed at a path is at the location that the path names, or below. -/
namespace VersionMatrix

open FileTree Disk

variable {disk other after : Disk} {top loc dir : Location} {path : String}

namespace FileTree

variable {tree other : FileTree} {approach : Approach} {destination : Destination}

theorem get?_erase_of_within (proper : top ≠ []) (within : top <+: loc) :
    (tree.erase top).get? loc = none := by
  have : loc ≠ [] := by
    rintro rfl
    exact proper (List.prefix_nil.1 within)
  rw [get?_erase this, if_pos (isWithin_iff.2 within)]

/-- What is not within an erased location stays. -/
theorem get?_erase_of_not_within (outside : ¬ top <+: loc) :
    (tree.erase top).get? loc = tree.get? loc := by
  by_cases root : loc = []
  · rw [root, get?_root, get?_root]
  · rw [get?_erase root, if_neg (fun within => outside (isWithin_iff.1 within))]

theorem get?_eraseBelow_of_not_within (outside : ¬ top <+: loc) :
    (tree.eraseBelow top).get? loc = tree.get? loc := by
  by_cases root : loc = []
  · rw [root, get?_root, get?_root]
  · rw [get?_eraseBelow root, if_neg]
    intro below
    simp only [isBelow, Bool.and_eq_true] at below
    exact outside (isWithin_iff.1 below.1)

/-- Of two trees the one with less on it has a walk arrive where it arrives on the other, or at a name
that is free on this one only. -/
theorem walk_of_less (less : ∀ loc entry, other.get? loc = some entry → tree.get? loc = some entry)
    {links : Nat} {here : Location} {names : List String}
    (arrives : other.walk approach links here names = .ok destination) :
    tree.walk approach links here names = .ok destination ∨
      ∃ dir name asDirectory, destination = .vacant dir name asDirectory ∧
        tree.get? (dir ++ [name]) ≠ other.get? (dir ++ [name]) := by
  induction links, here, names using walk_induction with
  | nil links here =>
      rw [walk_nil] at arrives ⊢
      exact Or.inl arrives
  | stay links here step rest idle ih =>
      rw [walk_stay idle] at arrives ⊢
      exact ih arrives
  | up links here rest ih =>
      rw [walk_up] at arrives ⊢
      exact ih arrives
  | long links here step rest idle isUp isLong =>
      obtain ⟨fault, stops⟩ := @walk_refused approach links here step rest idle isUp (Or.inr isLong)
      rw [stops] at arrives
      cases arrives
  | name links here step rest descends down follow =>
      have asked := asked_of_walk descends arrives
      rw [walk_name descends asked] at arrives ⊢
      cases found : other.get? (here ++ [step]) with
      | none =>
          simp only [found] at arrives
          cases before : tree.get? (here ++ [step]) with
          | none => exact Or.inl arrives
          | some entry =>
              split at arrives
              · exact Or.inr ⟨here, step, _, (Except.ok.inj arrives).symm, by simp [before, found]⟩
              · cases arrives
      | some entry =>
          rw [less _ _ found]
          cases entry with
          | directory =>
              simp only [found] at arrives
              exact down arrives
          | link target =>
              simp only [found] at arrives ⊢
              split at arrives
              next itself => exact Or.inl (by rw [if_pos itself]; exact arrives)
              next through =>
                  rw [if_neg through]
                  cases links with
                  | zero => cases arrives
                  | succ fewer => exact follow fewer _ _ rfl arrives
          | _ =>
              simp only [found] at arrives
              exact Or.inl arrives

end FileTree

/-- Nothing has been added. -/
def Shrinks (disk after : Disk) : Prop :=
  ∀ loc entry, after.tree.get? loc = some entry → disk.tree.get? loc = some entry

theorem Shrinks.refl (disk : Disk) : Shrinks disk disk := fun _ _ => id

theorem Shrinks.trans (first : Shrinks disk other) (second : Shrinks other after) :
    Shrinks disk after :=
  fun loc entry found => first loc entry (second loc entry found)

/-- To erase adds nothing. -/
theorem shrinks_erase (disk : Disk) (top : Location) :
    Shrinks disk (disk.modifyTree (·.erase top)) := by
  intro loc entry found
  by_cases root : loc = []
  · rw [root, get?_root] at found ⊢
    exact found
  · rw [modifyTree, get?_erase root] at found
    split at found
    · cases found
    · exact found

theorem shrinks_eraseBelow (disk : Disk) (top : Location) :
    Shrinks disk (disk.modifyTree (·.eraseBelow top)) := by
  intro loc entry found
  by_cases root : loc = []
  · rw [root, get?_root] at found ⊢
    exact found
  · rw [modifyTree, get?_eraseBelow root] at found
    split at found
    · cases found
    · exact found

/-- A path that opens on what is left of a disk has opened on the disk. -/
theorem Disk.Opens.of_shrinks (opens : other.Opens (fun _ => False) path dir)
    (shrinks : Shrinks disk other) (same : disk.workingDirectory = other.workingDirectory) :
    disk.Opens (fun _ => False) path dir :=
  opens.mono same.symm fun loc entry shown => ⟨shown.1, shrinks loc entry shown.2⟩

/-- What a path finds stands at the location that it finds. -/
theorem get?_of_find {approach : Approach} {entry : Entry}
    (found : disk.find approach path = .ok (loc, entry)) : disk.tree.get? loc = some entry := by
  obtain ⟨-, start, walked⟩ := fault?_of_resolve (resolve_of_find found)
  exact stands_of_walk start walked

/-- What is found on a disk with less on it was found there before. -/
theorem find_of_shrinks {approach : Approach} {entry : Entry} (shrinks : Shrinks disk other)
    (same : disk.workingDirectory = other.workingDirectory)
    (found : other.find approach path = .ok (loc, entry)) :
    disk.find approach path = .ok (loc, entry) := by
  obtain ⟨sound, start, walked⟩ := fault?_of_resolve (resolve_of_find found)
  have origin : disk.origin path = other.origin path := by rw [origin, origin, same]
  rcases walk_of_less shrinks walked with walked | ⟨_, _, _, vacant, -⟩
  · rw [find, resolve_eq, sound, origin]
    simp only [shrinks _ _ start, walked, ne_eq, not_true_eq_false, if_false]
    rfl
  · cases vacant

/-- The location at which a path finds an entry, be it a link, is the one that it names. -/
theorem place?_of_find {entry : Entry} (found : disk.find .itself path = .ok (loc, entry)) :
    disk.place? path = some loc := by
  rw [place?, resolve_of_find found]

/-- What a path names on a disk with less on it is at the location that it named before, or below, if
nothing else is missing. -/
theorem held_of_shrinks (shrinks : Shrinks disk other)
    (agree : AgreeOff (disk.Held path) disk other) (held : other.Held path loc) :
    disk.Held path loc := by
  obtain ⟨top, placed, inside⟩ := held
  rw [place?] at placed
  cases resolved : other.resolve .itself path with
  | error fault =>
      rw [resolved] at placed
      cases placed
  | ok destination =>
      rw [resolved] at placed
      obtain ⟨sound, start, walked⟩ := fault?_of_resolve resolved
      have origin : disk.origin path = other.origin path := by
        rw [origin, origin, agree.workingDirectory]
      rcases walk_of_less shrinks walked with walked | ⟨dir, name, _, rfl, missing⟩
      · refine ⟨top, ?_, inside⟩
        rw [place?, resolve_eq, sound, origin]
        simp only [shrinks _ _ start, walked, ne_eq, not_true_eq_false, if_false]
        exact placed
      · -- The walk stops where something has been taken away, and that was held by the path.
        obtain rfl := Option.some.inj placed
        by_contra outside
        refine missing (agree.get? _ fun within => outside ?_)
        obtain ⟨top, placed, within⟩ := within
        exact ⟨top, placed, within.trans inside⟩

/-- A directory that is removed was there, and is erased. -/
theorem exists_erase_of_removeDirectory (removed : disk.removeDirectory path = .ok other) :
    ∃ loc, disk.find .itself (dropSlashes path) = .ok (loc, .directory) ∧
      other = disk.modifyTree (·.erase loc) := by
  unfold removeDirectory at removed
  split at removed
  · cases found : disk.find .through path <;> rw [found] at removed <;> cases removed
  · cases found : disk.find .through path <;> rw [found] at removed <;> cases removed
  · cases found : disk.find .itself (dropSlashes path) with
    | error fault =>
        rw [found] at removed
        cases removed
    | ok place =>
        obtain ⟨loc, entry⟩ := place
        rw [found] at removed
        cases entry with
        | directory =>
            simp only [bind, Except.bind] at removed
            split at removed
            · exact ⟨loc, rfl, (Except.ok.inj removed).symm⟩
            · cases removed
        | _ => cases removed

/-- A removal adds nothing and takes away only what its path names, even where the path leads through
what is removed. -/
theorem shrinks_removeTree (disk : Disk) (path : String) :
    Shrinks disk (disk.removeTree path).2 ∧
      AgreeOff (disk.Held path) disk (disk.removeTree path).2 := by
  have same : Shrinks disk disk ∧ AgreeOff (disk.Held path) disk disk :=
    ⟨Shrinks.refl disk, AgreeOff.refl _ disk⟩
  rw [removeTree]
  cases found : disk.find .itself path with
  | error fault => exact same
  | ok place =>
      obtain ⟨top, entry⟩ := place
      have held : ∀ loc, ¬ disk.Held path loc → ¬ top <+: loc :=
        fun loc outside within => outside ⟨top, place?_of_find found, within⟩
      have erased : ∀ before, AgreeOff (disk.Held path) before (before.modifyTree (·.erase top)) :=
        fun before => ⟨rfl, fun loc outside => (get?_erase_of_not_within (held loc outside)).symm⟩
      have emptied : AgreeOff (disk.Held path) disk (disk.modifyTree (·.eraseBelow top)) :=
        ⟨rfl, fun loc outside => (get?_eraseBelow_of_not_within (held loc outside)).symm⟩
      cases entry with
      | link target => exact ⟨shrinks_erase disk top, erased disk⟩
      | directory =>
          simp only
          cases removed : (disk.modifyTree (·.eraseBelow top)).removeDirectory path with
          | error fault => cases fault <;> exact ⟨shrinks_eraseBelow disk top, emptied⟩
          | ok next =>
              obtain ⟨loc, found', rfl⟩ := exists_erase_of_removeDirectory removed
              -- The emptied directory is the one that the path led to before.
              have opens : disk.Opens (fun _ => False) path top :=
                (opens_of_find found fun _ _ => id).2
              have opens' : (disk.modifyTree (·.eraseBelow top)).Opens (fun _ => False)
                  (dropSlashes path) loc := (opens_of_find found' fun _ _ => id).2
              obtain rfl : loc = top :=
                ((opens_dropSlashes.1 opens').of_shrinks (shrinks_eraseBelow disk top) rfl).unique opens
              exact ⟨(shrinks_eraseBelow disk _).trans (shrinks_erase _ _), emptied.trans (erased _)⟩
      | _ => exact same

end VersionMatrix
