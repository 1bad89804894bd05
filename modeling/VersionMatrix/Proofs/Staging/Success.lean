import VersionMatrix.Proofs.Staging.Completion

/-! What a copy that succeeds has copied: every entry that the filter includes and that stood in the project
all along, by paths that are short enough. It does not matter where the copy stands. -/
namespace VersionMatrix

open FileTree Disk DiskAction

variable {disk after : Disk} {source destination base item : String}
  {top place rel rest : Location} {rows : List (String × Entry)} {entry first : Entry}
  {filter : CopyFilter}

/-- The counterpart of an entry, which stands at a relative location in a project. -/
structure Counterpart (source destination : String) (rel loc : Location) (entry : Entry)
    (after : Disk) : Prop where
  stands : after.tree.get? loc = some entry
  plain : entry ≠ .socket
  short : ∀ above item, rel = above ++ [item] → item.utf8ByteSize ≤ nameLimit
  fits : (Path.join source (Path.joinAll "" rel)).utf8ByteSize < pathLimit ∧
    (Path.join destination (Path.joinAll "" rel)).utf8ByteSize < pathLimit

theorem Counterpart.of_shrinks {loc : Location} {later : Disk}
    (counterpart : Counterpart source destination rel loc entry after) (kept : Shrinks later after) :
    Counterpart source destination rel loc entry later where
  stands := kept _ _ counterpart.stands
  plain := counterpart.plain
  short := counterpart.short
  fits := counterpart.fits

/-- What is asked of the copy of what a directory holds: if it succeeds then there is a counterpart of every
entry below that the filter includes and whose way starts with what was listed. -/
def Meets (source destination : String) (filter : CopyFilter)
    (copy : String → List (String × Entry) → DiskAction Nat) : Prop :=
  ∀ (rel place top : Location) (rows : List (String × Entry)) (disk : Disk) (item : String)
    (first : Entry) (rest : Location) (entry : Entry),
    Target source rel place disk → Target destination rel top disk → Awaited top rows disk →
    (item, first) ∈ rows → filter.includes (Path.joinAll "" (rel ++ item :: rest)) = true →
    disk.tree.get? (place ++ [item]) = some first →
    disk.tree.get? (place ++ item :: rest) = some entry →
    (copy (Path.joinAll "" rel) rows).Ends disk fun result after => result.isOk = true →
      Counterpart source destination (rel ++ item :: rest) (top ++ item :: rest) entry after

theorem Path.utf8ByteSize_lt_of_joinFault? (names : ∀ item ∈ rel, isName item = true)
    (sound : joinFault? (below base (joinAll "" rel)) item = none) :
    (join base (joinAll "" (rel ++ [item]))).utf8ByteSize < pathLimit := by
  rw [joinAll_concat, join_joinAll base item names]
  exact (fault?_eq_none_iff.1 (Option.or_eq_none_iff.1 sound).1).2.2

section

variable (origin : Target source rel place disk) (target : Target destination rel top disk)
  (proper : Path.isName item = true) (vacant : Vacant disk (top ++ [item]))

include origin target proper vacant

/-- An entry that is put in its place has its counterpart there. -/
theorem counterpart_put
    (sound : Path.joinFault? (Path.below source (Path.joinAll "" rel)) item = none)
    (sound' : Path.joinFault? (Path.below destination (Path.joinAll "" rel)) item = none)
    (plain : entry ≠ .socket) :
    Counterpart source destination (rel ++ [item]) (top ++ [item]) entry
      (disk.modifyTree (·.put (top ++ [item]) entry)) where
  stands := get?_put_self
    (hasRoom_of_isName proper target.opens.get? (by simp [vacant _ (List.prefix_refl _)]))
  plain := plain
  short above other same := by
    obtain rfl := List.singleton_inj.1 (List.append_inj' same rfl).2
    exact size_le_of_joinFault? sound
  fits := ⟨Path.utf8ByteSize_lt_of_joinFault? origin.names sound,
    Path.utf8ByteSize_lt_of_joinFault? target.names sound'⟩

/-- An entry that holds nothing is copied as it is. -/
theorem meets_leaf {copy : String → List (String × Entry) → DiskAction Nat}
    (found : disk.tree.get? (place ++ [item]) = some entry) (leaf : entry ≠ .directory)
    (included : filter.includes (Path.joinAll "" (rel ++ [item])) = true) (count : Nat) :
    (copyEntry source destination filter copy (Path.joinAll "" rel) count (item, entry)).Ends disk
      fun result after => result.isOk = true →
        Counterpart source destination (rel ++ [item]) (top ++ [item]) entry after := by
  unfold copyEntry
  simp only [Path.join_joinAll _ _ target.names]
  simp only [← Path.joinAll_concat, included, if_true]
  cases entry with
  | directory => exact absurd rfl leaf
  | socket =>
      refine ends_change_bind (fun _ => nofun) fun next copied => ?_
      obtain ⟨bytes, executable, read, -, -⟩ := target.of_copyFile proper vacant copied
      rw [readFile_join_of_socket origin.opens proper found] at read
      cases read
  | link points =>
      have links : (copyLink (Path.entryAt source rel item) (Path.entryAt destination rel item)).Ends
          disk fun result after => result.isOk = true →
            Counterpart source destination (rel ++ [item]) (top ++ [item]) (.link points) after := by
        refine ends_query (fun _ => nofun) fun value read => ends_change (fun _ => nofun) ?_
        intro next created _
        obtain ⟨sound', rfl⟩ := target.of_createLink proper vacant created
        rw [readLink_join origin.opens proper found] at read
        obtain ⟨sound, rfl⟩ := of_not_refused read
        exact counterpart_put origin target proper vacant sound sound' nofun
      exact links.andThen (fun _ _ _ => nofun) fun _ _ met _ => met rfl
  | file bytes executable =>
      refine ends_change_bind (fun _ => nofun) fun next copied _ => ?_
      obtain ⟨bytes', executable', read, sound', rfl⟩ := target.of_copyFile proper vacant copied
      rw [readFile_join origin.opens proper found] at read
      obtain ⟨sound, same⟩ := of_not_refused read
      obtain ⟨rfl, rfl⟩ := Prod.mk.inj same
      exact counterpart_put origin target proper vacant sound sound' nofun

end

theorem exists_get?_of_prefix {tree : FileTree} {loc below : Location}
    (stands : tree.get? below = some entry) (above : loc <+: below) :
    ∃ other, tree.get? loc = some other := by
  rw [← Option.isSome_iff_exists, ← Option.ne_none_iff_isSome]
  intro absent
  rw [get?_eq_none_of_absent absent above] at stands
  cases stands

section

variable {copy : String → List (String × Entry) → DiskAction Nat}
  (target : Target destination rel top disk) (inner : Extends destination copy)
  (meets : Meets source destination filter copy)
  (included : filter.includes (Path.joinAll "" (rel ++ item :: rest)) = true)

include target inner meets included

/-- A directory that has just been made is a counterpart itself, and so is what is copied to it. -/
theorem meets_made (origin : Target source rel place disk) (proper : Path.isName item = true)
    (vacant : Vacant disk (top ++ [item]))
    (found : disk.tree.get? (place ++ [item]) = some .directory)
    (stands : disk.tree.get? (place ++ item :: rest) = some entry)
    (sound : Path.joinFault? (Path.below source (Path.joinAll "" rel)) item = none)
    (sound' : Path.joinFault? (Path.below destination (Path.joinAll "" rel)) item = none)
    (below : Target destination (rel ++ [item]) (top ++ [item])
      (disk.modifyTree (·.put (top ++ [item]) .directory))) :
    (copy (Path.joinAll "" (rel ++ [item])) (disk.tree.contents (place ++ [item]))).Ends
      (disk.modifyTree (·.put (top ++ [item]) .directory)) fun result after => result.isOk = true →
        Counterpart source destination (rel ++ item :: rest) (top ++ item :: rest) entry after := by
  have listing := listing_join origin.opens proper found
  rw [sound] at listing
  have awaited : Awaited (top ++ [item]) (disk.tree.contents (place ++ [item]))
      (disk.modifyTree (·.put (top ++ [item]) .directory)) := awaited_of_listing vacant listing
  cases rest with
  | nil =>
      obtain rfl := Option.some.inj (found.symm.trans stands)
      have counterpart : Counterpart source destination (rel ++ [item]) (top ++ [item]) .directory _ :=
        counterpart_put origin target proper vacant sound sound' nofun
      have copies := inner (rel ++ [item]) (top ++ [item]) _ _ below awaited
      exact fun _ => counterpart.of_shrinks copies.kept
  | cons first more =>
      have adds : Adds top [(item, .directory)] disk
          (disk.modifyTree (·.put (top ++ [item]) .directory)) :=
        adds_put vacant fun _ isLink => by cases isLink
      have inside := (origin.of_kept adds.kept rfl).down proper (size_le_of_joinFault? sound)
        (adds.kept _ _ found)
      have deeper (loc : Location) : loc ++ item :: first :: more = loc ++ [item] ++ first :: more :=
        List.append_cons loc item (first :: more)
      rw [deeper] at included stands
      rw [deeper, deeper]
      obtain ⟨entry', listed⟩ := exists_get?_of_prefix stands
        ((List.prefix_append_right_inj (place ++ [item])).2 (List.prefix_append [first] more))
      exact meets (rel ++ [item]) (place ++ [item]) (top ++ [item]) _ _ first entry' more entry inside
        below awaited (mem_contents.2 listed) included (adds.kept _ _ listed) (adds.kept _ _ stands)

/-- A directory is made, and copied with what it is found to hold before that. -/
theorem meets_directory (origin : Target source rel place disk)
    (proper : Path.isName item = true) (vacant : Vacant disk (top ++ [item]))
    (found : disk.tree.get? (place ++ [item]) = some .directory)
    (stands : disk.tree.get? (place ++ item :: rest) = some entry) (count : Nat) :
    (copyEntry source destination filter copy (Path.joinAll "" rel) count (item, .directory)).Ends disk
      fun result after => result.isOk = true →
        Counterpart source destination (rel ++ item :: rest) (top ++ item :: rest) entry after := by
  have here : filter.includes (Path.joinAll "" (rel ++ [item])) = true := by
    rw [List.append_cons] at included
    exact filter.includes_of_append included
  unfold copyEntry
  simp only [Path.join_joinAll _ _ target.names]
  simp only [← Path.joinAll_concat, here, if_true]
  refine ends_inspect (ends_change_bind (fun _ => nofun) fun next made => ?_)
  obtain ⟨rfl, below, -, sound'⟩ := target.of_ensureDirectory proper vacant made
  rw [listing_join origin.opens proper found]
  cases sound : Path.joinFault? (Path.below source (Path.joinAll "" rel)) item with
  | some fault => exact nofun
  | none =>
      have copies := meets_made target inner meets included origin proper vacant found stands sound
        sound' below
      exact copies.andThen (fun _ _ _ => nofun) fun _ _ met _ => met rfl

/-- An entry is met, whether it is listed itself or stands below a directory that is. -/
theorem meets_copyEntry (origin : Target source rel place disk) (proper : Path.isName item = true)
    (vacant : Vacant disk (top ++ [item])) (found : disk.tree.get? (place ++ [item]) = some first)
    (stands : disk.tree.get? (place ++ item :: rest) = some entry) (count : Nat) :
    (copyEntry source destination filter copy (Path.joinAll "" rel) count (item, first)).Ends disk
      fun result after => result.isOk = true →
        Counterpart source destination (rel ++ item :: rest) (top ++ item :: rest) entry after := by
  by_cases isDirectory : first = .directory
  · subst isDirectory
    exact meets_directory target inner meets included origin proper vacant found stands count
  · cases rest with
    | nil =>
        obtain rfl := Option.some.inj (found.symm.trans stands)
        exact meets_leaf origin target proper vacant found isDirectory included count
    | cons next more =>
        have missing : disk.tree.get? (place ++ [item]) ≠ some .directory := by
          rw [found]
          exact fun same => isDirectory (Option.some.inj same)
        have none := get?_eq_none_of_prefix missing
          ((List.prefix_append_right_inj place).2 (List.prefix_append [item] (next :: more))) (by simp)
        rw [List.singleton_append, stands] at none
        cases none

/-- An entry below one of the rows has its counterpart once all rows are copied. -/
theorem meets_foldlM (origin : Target source rel place disk) (awaited : Awaited top rows disk)
    (listed : (item, first) ∈ rows) (found : disk.tree.get? (place ++ [item]) = some first)
    (stands : disk.tree.get? (place ++ item :: rest) = some entry) (count : Nat) :
    (rows.foldlM (copyEntry source destination filter copy (Path.joinAll "" rel)) count).Ends disk
      fun result after => result.isOk = true →
        Counterpart source destination (rel ++ item :: rest) (top ++ item :: rest) entry after := by
  induction rows generalizing disk count with
  | nil => cases listed
  | cons row rows ih =>
      rw [List.foldlM_cons]
      have proper := awaited.proper row List.mem_cons_self
      have vacant := awaited.vacant row List.mem_cons_self
      have adding : (copyEntry source destination filter copy (Path.joinAll "" rel) count row).Ends disk
          fun _ after => Adds top [row] disk after := target.ends_copyEntry proper vacant inner count
      rcases List.mem_cons.1 listed with rfl | later
      · have meeting := meets_copyEntry target inner meets included origin proper vacant found stands
          count
        refine (adding.and meeting).andThen (fun _ _ _ => nofun) fun copied after ⟨adds, met⟩ => ?_
        -- What is copied after it leaves the counterpart as it is.
        have others : (rows.foldlM (copyEntry source destination filter copy (Path.joinAll "" rel))
            copied).Ends after fun _ later => Adds top rows after later :=
          (target.of_kept adds.kept adds.agree.workingDirectory).ends_foldlM (awaited.of_adds adds)
            inner copied
        exact fun _ => (met rfl).of_shrinks others.kept
      · refine adding.andThen (fun _ _ _ => nofun) fun copied after adds => ?_
        have same := adds.agree.workingDirectory
        exact ih (target.of_kept adds.kept same) (origin.of_kept adds.kept same) (awaited.of_adds adds)
          later (adds.kept _ _ found) (adds.kept _ _ stands) copied

end

/-- Every entry that the filter includes has its counterpart in the copy, by induction on the depth. -/
theorem meets_copyListed (source destination : String) (filter : CopyFilter) (depth : Nat) :
    Meets source destination filter (copyListed source destination filter depth) := by
  induction depth with
  | zero => exact fun rel place top rows disk item first rest entry _ _ _ _ _ _ _ => nofun
  | succ depth ih =>
      intro rel place top rows disk item first rest entry origin target awaited listed included found
        stands
      exact meets_foldlM target (extends_copyListed source destination filter depth) ih included origin
        awaited listed found stands 0

end VersionMatrix
