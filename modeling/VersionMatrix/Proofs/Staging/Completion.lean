import VersionMatrix.Proofs.FileTree.Files
import VersionMatrix.Proofs.Staging.Footprint

/-! The copy of entries that can all be copied. It comes to its end, and counts the regular files that it
has copied. -/
namespace VersionMatrix

open FileTree Disk DiskAction

variable {initial disk after : Disk} {source base destination path item : String}
  {top project rel : Location} {filter : CopyFilter} {entry : Entry}

namespace Path

theorem nul_notMem_join (sound : '\x00' ∉ base.toList) (sound' : '\x00' ∉ item.toList) :
    '\x00' ∉ (join base item).toList := by
  rcases join_cases base item with ⟨-, same⟩ | ⟨-, -, same⟩ | ⟨-, -, same⟩
  · rwa [same]
  · rw [same, String.toList_append]
    exact fun member => (List.mem_append.1 member).elim sound sound'
  · have slash : '\x00' ∉ "/".toList := by decide
    rw [same, String.toList_append, String.toList_append]
    exact fun member => (List.mem_append.1 member).elim
      (fun inner => (List.mem_append.1 inner).elim sound slash) sound'

theorem nul_notMem_of_isName (proper : isName item = true) : '\x00' ∉ item.toList := by
  simp only [isName, Bool.and_eq_true, List.all_eq_true, bne_iff_ne] at proper
  exact fun member => (proper.2 _ member).2 rfl

theorem nul_notMem_joinAll (names : ∀ item ∈ rel, isName item = true)
    (sound : '\x00' ∉ base.toList) : '\x00' ∉ (joinAll base rel).toList := by
  induction rel generalizing base with
  | nil => exact sound
  | cons first rest ih =>
      rw [List.forall_mem_cons] at names
      exact ih names.2 (nul_notMem_join sound (nul_notMem_of_isName names.1))

theorem utf8ByteSize_le_join (base item : String) :
    item.utf8ByteSize ≤ (join base item).utf8ByteSize := by
  obtain ⟨before, same⟩ := exists_join_eq base item
  rw [same, String.utf8ByteSize_append]
  omega

theorem utf8ByteSize_lt_join (base : String) (filled : item ≠ "") :
    base.utf8ByteSize < (join base item).utf8ByteSize := by
  have long : 0 < item.utf8ByteSize := by
    rw [Nat.pos_iff_ne_zero]
    exact fun none => filled (String.utf8ByteSize_eq_zero_iff.1 none)
  rcases join_cases base item with ⟨rfl, same⟩ | ⟨-, -, same⟩ | ⟨-, -, same⟩
  · rw [same]
    exact long
  · rw [same, String.utf8ByteSize_append]
    omega
  · rw [same, String.utf8ByteSize_append, String.utf8ByteSize_append]
    omega

/-- Every name on a path takes up some of its length. -/
theorem length_le_joinAll (names : ∀ item ∈ rel, isName item = true) :
    rel.length ≤ (joinAll "" rel).utf8ByteSize := by
  induction rel using List.reverseRecOn with
  | nil => exact Nat.zero_le _
  | append_singleton rel last ih =>
      have longer := utf8ByteSize_lt_join (joinAll "" rel) (ne_empty_of_isName (names last (by simp)))
      have before := ih fun item member => names item (List.mem_append_left _ member)
      rw [joinAll_concat, List.length_append, List.length_singleton]
      omega

/-- A name in a directory below a path is not refused if it is short enough and the path is. -/
theorem joinFault?_below (sound : fault? base = none) (names : ∀ item ∈ rel, isName item = true)
    (proper : isName item = true) (short : item.utf8ByteSize ≤ nameLimit)
    (fits : (join base (joinAll "" (rel ++ [item]))).utf8ByteSize < pathLimit) :
    joinFault? (below base (joinAll "" rel)) item = none := by
  have whole : join base (joinAll "" (rel ++ [item])) = entryAt base rel item := by
    rw [joinAll_concat, join_joinAll base item names]
  have nulFree : '\x00' ∉ (entryAt base rel item).toList := by
    rw [← whole]
    refine nul_notMem_join (fault?_eq_none_iff.1 sound).1
      (nul_notMem_joinAll (fun other member => ?_) (by decide))
    rcases List.mem_append.1 member with inner | last
    · exact names other inner
    · exact List.mem_singleton.1 last ▸ proper
  rw [whole] at fits
  rw [joinFault?, if_neg (Nat.not_lt.2 short),
    fault?_eq_none_iff.2 ⟨nulFree, join_ne_empty _ (ne_empty_of_isName proper), fits⟩]
  rfl

end Path

namespace DiskAction

variable {α β : Type} {act : Disk → Except FileFault Disk} {rest : α → DiskAction β} {post : Outlook β}

/-- A change that is not refused. -/
theorem ends_change_of_ok (acted : act disk = .ok after) :
    (change path act).Ends disk fun result left => ∃ value, result = .ok value ∧ left = after := by
  change ∃ value, answerAt path ((act disk).map fun _ => ()) = .ok value ∧
    (act disk).toOption.getD disk = after
  rw [acted]
  exact ⟨(), rfl, rfl⟩

theorem ends_query_of_ok {ask : Disk → Except FileFault α} {answer : α}
    (answered : ask disk = .ok answer) (goesOn : (rest answer).Ends disk post) :
    (query path ask >>= rest).Ends disk post := by
  change (DiskAction.andThen (.done (answerAt path (ask disk))) rest).Ends disk post
  rw [answered]
  exact goesOn

/-- After an action that comes to its end the rest is what is left to do. -/
theorem Ends.andThen_of_ok {action : DiskAction α} {reached : α → Disk → Prop}
    (first : action.Ends disk fun result after => ∃ value, result = .ok value ∧ reached value after)
    (goesOn : ∀ value after, reached value after → (rest value).Ends after post) :
    (action >>= rest).Ends disk post := by
  refine first.andThen ?_ ?_
  · rintro error after ⟨value, ⟨⟩, -⟩
  · rintro value after ⟨_, same, arrived⟩
    exact goesOn value after (Except.ok.inj same ▸ arrived)

end DiskAction

/-- A project that can be copied by two paths: there is no socket among the entries that are copied, and
their names and the paths to them are short enough. -/
structure Copyable (filter : CopyFilter) (tree : FileTree) (source destination : String)
    (project : Location) : Prop where
  plain : ∀ rel, copied filter tree project rel ≠ some .socket
  names : ∀ rel item entry, copied filter tree project (rel ++ [item]) = some entry →
    item.utf8ByteSize ≤ nameLimit
  paths : ∀ rel entry, rel ≠ [] → copied filter tree project rel = some entry →
    (Path.join source (Path.joinAll "" rel)).utf8ByteSize < pathLimit ∧
      (Path.join destination (Path.joinAll "" rel)).utf8ByteSize < pathLimit

/-- The part of a copy that has come to its end: the named entries have been copied, and there are as many
regular files more in the copy as the count has grown by. -/
structure Replicated (filter : CopyFilter) (initial : Disk) (project top rel : Location)
    (items : List String) (count : Nat) (before : Disk) (total : Nat) (after : Disk) : Prop where
  filled : Filled filter initial project top rel items before after
  counted : total + (before.tree.filesBelow top).length =
    count + (after.tree.filesBelow top).length

/-- What is asked of a part of the copy that is to come to its end. -/
def Completes (filter : CopyFilter) (initial : Disk) (project top rel : Location)
    (items : List String) (count : Nat) (before : Disk) : Outlook Nat := fun result after =>
  ∃ total, result = .ok total ∧
    Replicated filter initial project top rel items count before total after

/-- Two replicas of different entries make one of them all. -/
theorem Replicated.append {first second : List String} {count between total : Nat}
    {middle : Disk} (here : Replicated filter initial project top rel first count disk between middle)
    (next : Replicated filter initial project top rel second between middle total after)
    (apart : ∀ item ∈ first, item ∉ second) :
    Replicated filter initial project top rel (first ++ second) count disk total after where
  filled := here.filled.append next.filled apart
  counted := by
    have counted := here.counted
    have counted' := next.counted
    omega

abbrev Below (top : Location) : Location → Prop := fun loc => top <+: loc ∧ loc ≠ top

/-- No entry that the filter includes stands in the place of the copy. The place may still be in the
project. -/
def Spares (filter : CopyFilter) (project top : Location) : Prop :=
  ∀ rel, filter.includes (Path.joinAll "" rel) = true → ¬ top <+: project ++ rel

/-- An entry of the project that is to be copied next, with the paths to its directory and to the
counterpart of that. The disk differs from that at first only below the place of the copy. -/
structure Upcoming (filter : CopyFilter) (initial : Disk) (source destination : String) (top project rel : Location)
    (item : String) (entry : Entry) (disk : Disk) : Prop where
  vacancy : Vacancy initial top project rel item entry disk
  origin : Target source rel (project ++ rel) disk
  target : Target destination rel (top ++ rel) disk
  agree : AgreeOff (Below top) initial disk
  spares : Spares filter project top

/-- What is asked of the copy of what a directory holds if it may still go down so far. -/
def Concludes (filter : CopyFilter) (initial : Disk) (source destination : String)
    (top project : Location) (depth : Nat) (copy : String → List (String × Entry) → DiskAction Nat) :
    Prop :=
  ∀ (rel : Location) (rows : List (String × Entry)) (disk : Disk),
    rel.length < pathLimit → pathLimit ≤ rel.length + depth →
    (∀ row ∈ rows, Upcoming filter initial source destination top project rel row.1 row.2 disk) →
    (rows.map (·.1)).Nodup →
    (copy (Path.joinAll "" rel) rows).Ends disk
      (Completes filter initial project top rel (rows.map (·.1)) 0 disk)

namespace Vacancy

/-- An entry that is put makes one file more if it is a file. -/
theorem length_filesBelow_put (vacancy : Vacancy initial top project rel item entry disk) (put : Entry) :
    ((disk.modifyTree (·.put (top ++ rel ++ [item]) put)).tree.filesBelow top).length =
      (disk.tree.filesBelow top).length + if put.isFile then 1 else 0 :=
  FileTree.length_filesBelow_put vacancy.hasRoom vacancy.free within_top

/-- An entry that holds nothing has been copied once it has been put. -/
theorem replicated_put (vacancy : Vacancy initial top project rel item entry disk)
    (leaf : entry ≠ .directory)
    (included : filter.includes (Path.joinAll "" (rel ++ [item])) = true) {count total : Nat}
    (counts : total = count + if entry.isFile then 1 else 0) :
    Replicated filter initial project top rel [item] count disk total
      (disk.modifyTree (·.put (top ++ rel ++ [item]) entry)) where
  filled := vacancy.filled_put leaf included
  counted := by
    rw [vacancy.length_filesBelow_put entry, counts]
    omega

/-- A directory has been copied once what it holds has. -/
theorem replicated_directory (vacancy : Vacancy initial top project rel item .directory disk)
    (included : filter.includes (Path.joinAll "" (rel ++ [item])) = true) {count total : Nat}
    (inner : Replicated filter initial project top (rel ++ [item])
      ((initial.tree.contents (project ++ rel ++ [item])).map (·.1)) 0
      (disk.modifyTree (·.put (top ++ rel ++ [item]) .directory)) total after) :
    Replicated filter initial project top rel [item] count disk (count + total) after where
  filled := vacancy.filled_directory rfl included inner.filled
  counted := by
    have counted := inner.counted
    rw [vacancy.length_filesBelow_put .directory, if_neg (by decide)] at counted
    omega

end Vacancy

theorem below_of_within {loc : Location} (inside : top ++ rel ++ [item] <+: loc) : Below top loc := by
  refine ⟨within_top.trans inside, ?_⟩
  rintro rfl
  have longer := inside.length_le
  simp only [List.length_append, List.length_singleton] at longer
  omega

/-- What has been filled in is below the root of the replica. -/
theorem Filled.below {items : List String}
    (filled : Filled filter initial project top rel items disk after) :
    AgreeOff (Below top) disk after :=
  filled.agree.mono fun _ ⟨_, _, inside⟩ => below_of_within inside

namespace Upcoming

section

variable (upcoming : Upcoming filter initial source destination top project rel item entry disk)

include upcoming

theorem get?_entry (included : filter.includes (Path.joinAll "" (rel ++ [item])) = true) :
    disk.tree.get? (project ++ rel ++ [item]) = some entry := by
  rw [← upcoming.agree.get?, upcoming.vacancy.found]
  rw [List.append_assoc]
  exact fun below => upcoming.spares _ included below.1

theorem copied_eq (included : filter.includes (Path.joinAll "" (rel ++ [item])) = true) :
    copied filter initial.tree project (rel ++ [item]) = some entry := by
  rw [copied, if_pos included, ← List.append_assoc, upcoming.vacancy.found]

/-- An entry stays to be copied while others are. -/
theorem of_filled {items : List String}
    (filled : Filled filter initial project top rel items disk after)
    (vacant : ∀ item ∈ items, Vacant disk (top ++ rel ++ [item])) (other : item ∉ items) :
    Upcoming filter initial source destination top project rel item entry after where
  vacancy := upcoming.vacancy.of_filled filled vacant other
  origin := upcoming.origin.of_kept (filled.more vacant) filled.agree.workingDirectory
  target := upcoming.target.of_kept (filled.more vacant) filled.agree.workingDirectory
  agree := upcoming.agree.trans filled.below
  spares := upcoming.spares

end

section

variable (copyable : Copyable filter initial.tree source destination project)
  (sound : Path.fault? source = none) (sound' : Path.fault? destination = none)
  (upcoming : Upcoming filter initial source destination top project rel item entry disk)
  (included : filter.includes (Path.joinAll "" (rel ++ [item])) = true)

include copyable upcoming included

theorem length_lt_pathLimit : (rel ++ [item]).length < pathLimit := by
  have names : ∀ other ∈ rel ++ [item], Path.isName other = true := fun other member =>
    (List.mem_append.1 member).elim (upcoming.origin.names other) fun last =>
      List.mem_singleton.1 last ▸ upcoming.vacancy.proper
  calc (rel ++ [item]).length
      ≤ (Path.joinAll "" (rel ++ [item])).utf8ByteSize := Path.length_le_joinAll names
    _ ≤ (Path.join source (Path.joinAll "" (rel ++ [item]))).utf8ByteSize :=
        Path.utf8ByteSize_le_join _ _
    _ < pathLimit := (copyable.paths _ entry (by simp) (upcoming.copied_eq included)).1

include sound sound'

/-- Neither the path to an entry that is copied nor the path to its counterpart is refused. -/
theorem joinFault?_eq_none :
    Path.joinFault? (Path.below source (Path.joinAll "" rel)) item = none ∧
      Path.joinFault? (Path.below destination (Path.joinAll "" rel)) item = none := by
  have names := upcoming.origin.names
  have proper := upcoming.vacancy.proper
  have stands := upcoming.copied_eq included
  have short := copyable.names rel item entry stands
  obtain ⟨fits, fits'⟩ := copyable.paths _ entry (by simp) stands
  exact ⟨Path.joinFault?_below sound names proper short fits,
    Path.joinFault?_below sound' names proper short fits'⟩

/-- The operations on the paths of an entry that is copied are not refused. -/
theorem copyLink_ends {points : String} (isLink : entry = .link points) :
    (copyLink (Path.entryAt source rel item) (Path.entryAt destination rel item)).Ends disk
      fun result left => ∃ value, result = .ok value ∧
        left = disk.modifyTree (·.put (top ++ rel ++ [item]) entry) := by
  obtain ⟨fromSource, toPlace⟩ := joinFault?_eq_none copyable sound sound' upcoming included
  have stands := upcoming.get?_entry included
  rw [isLink] at stands
  have read := readLink_join upcoming.origin.opens upcoming.vacancy.proper stands
  have created := createLink_join upcoming.target.opens upcoming.vacancy.proper points
  rw [fromSource] at read
  rw [toPlace, upcoming.vacancy.free] at created
  rw [isLink]
  exact ends_query_of_ok read (ends_change_of_ok created)

/-- The copy of a file that is included succeeds. -/
theorem copyFile_eq {bytes : List UInt8} {executable : Bool} (isFile : entry = .file bytes executable) :
    disk.copyFile (Path.entryAt source rel item) (Path.entryAt destination rel item) =
      .ok (disk.modifyTree (·.put (top ++ rel ++ [item]) entry)) := by
  obtain ⟨fromSource, toPlace⟩ := joinFault?_eq_none copyable sound sound' upcoming included
  have stands := upcoming.get?_entry included
  have free := upcoming.vacancy.free
  have kept : ∀ target, disk.tree.get? (top ++ rel ++ [item]) ≠ some (.link target) := by
    rw [free]
    nofun
  rw [isFile] at stands
  have written := writeFile_join upcoming.target.opens upcoming.vacancy.proper kept bytes
    (some executable)
  rw [toPlace, free] at written
  rw [copyFile, readFile_join upcoming.origin.opens upcoming.vacancy.proper stands, fromSource, isFile]
  exact written

/-- A directory that is included is made. -/
theorem ensureDirectory_eq :
    disk.ensureDirectory (Path.entryAt destination rel item) =
      .ok (disk.modifyTree (·.put (top ++ rel ++ [item]) .directory)) := by
  obtain ⟨-, toPlace⟩ := joinFault?_eq_none copyable sound sound' upcoming included
  have made := ensureDirectory_join upcoming.target.opens upcoming.vacancy.proper upcoming.vacancy.free
  rwa [toPlace] at made

/-- A directory of the project is listed as it was at the start. -/
theorem listing_eq (isDirectory : entry = .directory) :
    disk.listing (Path.entryAt source rel item) =
      .ok (initial.tree.contents (project ++ rel ++ [item])) := by
  obtain ⟨fromSource, -⟩ := joinFault?_eq_none copyable sound sound' upcoming included
  have stands := upcoming.get?_entry included
  -- The copy may stand in the directory, but no deeper: the directory itself is included.
  have same : disk.tree.contents (project ++ rel ++ [item]) =
      initial.tree.contents (project ++ rel ++ [item]) := contents_congr fun next => by
    refine (upcoming.agree.get? _ fun ⟨within, apart⟩ => ?_).symm
    rcases List.prefix_concat_iff.1 within with same | inside
    · exact apart same.symm
    · rw [List.append_assoc] at inside
      exact upcoming.spares _ included inside
  rw [isDirectory] at stands
  rw [listing_join upcoming.origin.opens upcoming.vacancy.proper stands, fromSource, same]

/-- What a directory of the project holds comes next once its counterpart has been made. -/
theorem inner (isDirectory : entry = .directory) {row : String × Entry}
    (listed : row ∈ initial.tree.contents (project ++ rel ++ [item])) :
    Upcoming filter initial source destination top project (rel ++ [item]) row.1 row.2
      (disk.modifyTree (·.put (top ++ rel ++ [item]) .directory)) := by
  have short := size_le_of_joinFault?
    (joinFault?_eq_none copyable sound sound' upcoming included).1
  have proper := upcoming.vacancy.proper
  have more := upcoming.vacancy.get?_put_of_found .directory
  have stands := more _ _ (upcoming.get?_entry included)
  rw [isDirectory] at stands
  have origin := (upcoming.origin.of_kept more rfl).down proper short stands
  have made := ensureDirectory_eq copyable sound sound' upcoming included
  obtain ⟨-, target, -⟩ := upcoming.target.of_ensureDirectory proper upcoming.vacancy.vacant made
  refine ⟨upcoming.vacancy.inner isDirectory listed, ?_, ?_, ?_, upcoming.spares⟩
  · rw [← List.append_assoc]
    exact origin
  · rw [← List.append_assoc]
    exact target
  · exact upcoming.agree.trans (agreeOff_put disk (below_of_within (List.prefix_refl _)))

omit included in
/-- The copy of an entry comes to its end if the copy of what is below it does. -/
theorem completes_copyEntry {depth : Nat} {copy : String → List (String × Entry) → DiskAction Nat}
    (copies : Concludes filter initial source destination top project depth copy)
    (deep : pathLimit ≤ rel.length + 1 + depth) (count : Nat) :
    (copyEntry source destination filter copy (Path.joinAll "" rel) count (item, entry)).Ends disk
      (Completes filter initial project top rel [item] count disk) := by
  unfold copyEntry
  simp only [Path.join_joinAll _ _ upcoming.origin.names]
  simp only [← Path.joinAll_concat]
  split
  next included =>
      cases entry with
      | socket => exact absurd (upcoming.copied_eq included) (copyable.plain _)
      | link points =>
          refine (copyLink_ends copyable sound sound' upcoming included rfl).andThen_of_ok ?_
          rintro _ _ rfl
          exact ⟨_, rfl, upcoming.vacancy.replicated_put nofun included rfl⟩
      | file bytes executable =>
          have copied := copyFile_eq copyable sound sound' upcoming included rfl
          refine (ends_change_of_ok copied).andThen_of_ok ?_
          rintro _ _ rfl
          exact ⟨_, rfl, upcoming.vacancy.replicated_put nofun included rfl⟩
      | directory =>
          have made := ensureDirectory_eq copyable sound sound' upcoming included
          refine ends_inspect ((ends_change_of_ok made).andThen_of_ok ?_)
          rintro _ _ rfl
          rw [listing_eq copyable sound sound' upcoming included rfl]
          have below := copies (rel ++ [item]) (initial.tree.contents (project ++ rel ++ [item])) _
            (length_lt_pathLimit copyable upcoming included)
            (by rw [List.length_append, List.length_singleton]; exact deep)
            (fun row => inner copyable sound sound' upcoming included rfl) (nodup_contents _ _)
          refine below.andThen_of_ok fun total after replicated => ?_
          exact ⟨_, rfl, upcoming.vacancy.replicated_directory included replicated⟩
  next excluded =>
      exact ⟨count, rfl, upcoming.vacancy.filled_excluded (by simpa using excluded), rfl⟩

end

end Upcoming

/-- The copy of what a directory holds comes to its end, since no path that is short enough goes down
further than the copy may. -/
theorem concludes_copyListed (copyable : Copyable filter initial.tree source destination project)
    (sound : Path.fault? source = none) (sound' : Path.fault? destination = none) (depth : Nat) :
    Concludes filter initial source destination top project depth
      (copyListed source destination filter depth) := by
  induction depth with
  | zero => exact fun rel rows disk short deep _ _ => absurd short (Nat.not_lt.2 deep)
  | succ depth ih =>
      intro rel rows disk short deep upcoming distinct
      rw [copyListed]
      generalize 0 = count
      induction rows generalizing disk count with
      | nil => exact ⟨count, rfl, Filled.nil, rfl⟩
      | cons row rows ihRows =>
          rw [List.map_cons, List.nodup_cons] at distinct
          rw [List.foldlM_cons]
          have first := upcoming row List.mem_cons_self
          refine (first.completes_copyEntry copyable sound sound' ih (by omega) count).andThen_of_ok ?_
          intro between middle here
          have vacant : ∀ item ∈ [row.1], Vacant disk (top ++ rel ++ [item]) :=
            fun item listed => List.mem_singleton.1 listed ▸ first.vacancy.vacant
          -- The names are distinct, so the places of the other entries are still free.
          have remain : ∀ other ∈ rows,
              Upcoming filter initial source destination top project rel other.1 other.2 middle := by
            intro other listed
            refine (upcoming other (List.mem_cons_of_mem _ listed)).of_filled here.filled vacant ?_
            intro same
            exact distinct.1 (List.mem_singleton.1 same ▸ List.mem_map_of_mem listed)
          obtain ⟨total, same, next⟩ := ihRows middle remain distinct.2 between
          refine ⟨total, same, here.append next fun item listed => ?_⟩
          exact List.mem_singleton.1 listed ▸ distinct.1

end VersionMatrix
