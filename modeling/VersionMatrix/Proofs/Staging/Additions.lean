import VersionMatrix.Proofs.Staging.Context

/-! What the copy of entries adds. Whatever the project is and wherever it lies, and however far the copy
comes, entries are added at the names that were listed and nothing else is changed. -/
namespace VersionMatrix

open FileTree Disk DiskAction

namespace DiskAction

variable {α β : Type} {disk : Disk} {path : String} {mid post : Outlook α} {post' : Outlook β}

theorem Ends.and {action : DiskAction α} (first : action.Ends disk mid) (second : action.Ends disk post) :
    action.Ends disk fun result after => mid result after ∧ post result after :=
  ⟨first, second⟩

/-- An action that goes on with another ends as the second does, or as the first fails. -/
theorem Ends.andThen {action : DiskAction α} {next : α → DiskAction β} (first : action.Ends disk mid)
    (fails : ∀ error after, mid (.error error) after → post' (.error error) after)
    (goesOn : ∀ value after, mid (.ok value) after → (next value).Ends after post') :
    (action >>= next).Ends disk post' := by
  induction action generalizing disk with
  | done result =>
      cases result with
      | ok value => exact goesOn value disk first
      | error error => exact fails error disk first
  | operate effect rest ih => exact ih _ first

/-- An action with a handler ends as it succeeds, or as the handler does. -/
theorem Ends.recover {action : DiskAction α} {handler : StageError → DiskAction α}
    (first : action.Ends disk mid)
    (succeeds : ∀ value after, mid (.ok value) after → post (.ok value) after)
    (handles : ∀ error after, mid (.error error) after → (handler error).Ends after post) :
    (tryCatch action handler).Ends disk post := by
  induction action generalizing disk with
  | done result =>
      cases result with
      | ok value => exact succeeds value disk first
      | error error => exact handles error disk first
  | operate effect rest ih => exact ih _ first

theorem ends_inspect {look : Disk → α} {next : α → DiskAction β}
    (goesOn : (next (look disk)).Ends disk post') : (inspect look >>= next).Ends disk post' := goesOn

theorem ends_query {ask : Disk → Except FileFault α} {next : α → DiskAction β}
    (fails : ∀ error, post' (.error error) disk)
    (goesOn : ∀ value, ask disk = .ok value → (next value).Ends disk post') :
    (query path ask >>= next).Ends disk post' := by
  change (DiskAction.andThen (.done (answerAt path (ask disk))) next).Ends disk post'
  cases asked : ask disk with
  | ok value => exact goesOn value asked
  | error fault => exact fails _

/-- A change is made as a whole or not at all. -/
theorem ends_change {act : Disk → Except FileFault Disk} {post : Outlook Unit}
    (refused : ∀ error, post (.error error) disk)
    (changed : ∀ next, act disk = .ok next → post (.ok ()) next) :
    (change path act).Ends disk post := by
  change post (answerAt path ((act disk).map fun _ => ())) ((act disk).toOption.getD disk)
  cases acted : act disk with
  | ok next => exact changed next acted
  | error fault => exact refused _

/-- After a change that is made the action goes on, and after one that is refused it ends. -/
theorem ends_change_bind {act : Disk → Except FileFault Disk} {next : Unit → DiskAction β}
    (refused : ∀ error, post' (.error error) disk)
    (goesOn : ∀ after, act disk = .ok after → (next ()).Ends after post') :
    (change path act >>= next).Ends disk post' := by
  change (DiskAction.andThen (.done (answerAt path ((act disk).map fun _ => ()))) next).Ends
    ((act disk).toOption.getD disk) post'
  cases acted : act disk with
  | ok after => exact goesOn after acted
  | error fault => exact refused _

end DiskAction

variable {disk middle after made : Disk} {source destination base name item : String}
  {dir top rel : Location} {row : String × Entry} {rows : List (String × Entry)} {entry : Entry}
  {filter : CopyFilter}

/-- Entries have been added at the listed names in a directory or below, and nothing has been lost. A
link stands at such a name only if a link was listed. -/
structure Adds (top : Location) (rows : List (String × Entry)) (before after : Disk) : Prop where
  agree : AgreeOff (fun loc => ∃ row ∈ rows, top ++ [row.1] <+: loc) before after
  kept : Shrinks after before
  links : ∀ row ∈ rows, ∀ target, after.tree.get? (top ++ [row.1]) = some (.link target) →
    ∃ points, row.2 = .link points

/-- Entries that are to be copied to a directory in which nothing stands at their names. -/
structure Awaited (top : Location) (rows : List (String × Entry)) (disk : Disk) : Prop where
  proper : ∀ row ∈ rows, Path.isName row.1 = true
  distinct : (rows.map (·.1)).Nodup
  vacant : ∀ row ∈ rows, Vacant disk (top ++ [row.1])

/-- The path to a directory of the copy leads there. -/
structure Target (destination : String) (rel top : Location) (disk : Disk) : Prop where
  names : ∀ item ∈ rel, Path.isName item = true
  opens : disk.Opens (fun _ => False) (Path.below destination (Path.joinAll "" rel)) top

theorem Target.of_kept (target : Target destination rel top disk) (kept : Shrinks after disk)
    (same : disk.workingDirectory = after.workingDirectory) : Target destination rel top after :=
  ⟨target.names, target.opens.of_shrinks kept same.symm⟩

theorem adds_self (vacant : ∀ row ∈ rows, Vacant disk (top ++ [row.1])) : Adds top rows disk disk where
  agree := AgreeOff.refl _ disk
  kept := Shrinks.refl disk
  links row listed target found := by
    rw [vacant row listed _ (List.prefix_refl _)] at found
    cases found

/-- Entries may be added one after the other. -/
theorem Adds.cons (first : Adds top [row] disk middle) (rest : Adds top rows middle after)
    (fresh : row.1 ∉ rows.map (·.1)) : Adds top (row :: rows) disk after where
  agree := by
    refine (first.agree.mono ?_).trans (rest.agree.mono ?_)
    · rintro loc ⟨other, listed, inside⟩
      exact ⟨other, List.mem_singleton.1 listed ▸ List.mem_cons_self, inside⟩
    · rintro loc ⟨other, listed, inside⟩
      exact ⟨other, List.mem_cons_of_mem _ listed, inside⟩
  kept := rest.kept.trans first.kept
  links other listed target found := by
    rcases List.mem_cons.1 listed with rfl | listed
    · refine first.links other (List.mem_singleton_self other) target ?_
      rw [rest.agree.get?, found]
      rintro ⟨next, listed', inside⟩
      have same := (List.prefix_append_right_inj _).1 inside
      exact fresh ((List.cons_prefix_cons.1 same).1 ▸ List.mem_map_of_mem listed')
    · exact rest.links other listed target found

/-- Putting an entry where nothing stands, a link only for a link. -/
theorem adds_put {put : Entry} (vacant : Vacant disk (top ++ [item]))
    (same : ∀ target, put = .link target → ∃ points, entry = .link points) :
    Adds top [(item, entry)] disk (disk.modifyTree (·.put (top ++ [item]) put)) where
  agree := agreeOff_put disk ⟨_, List.mem_singleton_self _, List.prefix_refl _⟩
  kept loc found standing := by
    rw [modifyTree, Disk.get?_put, if_neg, standing]
    rintro ⟨rfl, -⟩
    rw [vacant _ (List.prefix_refl _)] at standing
    cases standing
  links other listed target found := by
    obtain rfl := List.mem_singleton.1 listed
    rw [modifyTree, Disk.get?_put] at found
    split at found
    · exact same target (Option.some.inj found)
    · rw [vacant _ (List.prefix_refl _)] at found
      cases found

/-- The rows still to come have their places vacant after one of them is added. -/
theorem Awaited.of_adds (awaited : Awaited top (row :: rows) disk) (adds : Adds top [row] disk after) :
    Awaited top rows after where
  proper other listed := awaited.proper other (List.mem_cons_of_mem _ listed)
  distinct := (List.nodup_cons.1 awaited.distinct).2
  vacant other listed loc inside := by
    rw [← adds.agree.get?, awaited.vacant other (List.mem_cons_of_mem _ listed) loc inside]
    rintro ⟨next, listed', inside'⟩
    obtain rfl := List.mem_singleton.1 listed'
    have same := List.prefix_of_prefix_length_le inside inside' (by simp)
    have names := (List.prefix_append_right_inj _).1 same
    exact (List.nodup_cons.1 awaited.distinct).1
      (List.mem_map.2 ⟨other, listed, (List.cons_prefix_cons.1 names).1⟩)

/-- What a directory holds can be copied to one that has been made where nothing stood. -/
theorem awaited_of_listing {path : String} {put : Entry} (vacant : Vacant after top)
    (listed : disk.listing path = .ok rows) : Awaited top rows (after.modifyTree (·.put top put)) := by
  obtain ⟨loc, -, rfl⟩ := exists_contents_of_listing listed
  refine ⟨fun row => isName_of_mem_contents, nodup_contents _ _, fun row _ loc inside => ?_⟩
  rw [modifyTree, get?_put_of_ne]
  · exact vacant loc ((List.prefix_append _ _).trans inside)
  rintro rfl
  have longer := inside.length_le
  rw [List.length_append, List.length_singleton] at longer
  omega

/-- What is asked of the copy of what a directory holds, however far it comes. -/
def Extends (destination : String) (copy : String → List (String × Entry) → DiskAction Nat) : Prop :=
  ∀ (rel top : Location) (rows : List (String × Entry)) (disk : Disk),
    Target destination rel top disk → Awaited top rows disk →
      (copy (Path.joinAll "" rel) rows).Ends disk fun _ after => Adds top rows disk after

namespace Target

/-- The path to a directory that has just been made leads there. -/
theorem down (target : Target destination rel top disk) (proper : Path.isName item = true)
    (short : item.utf8ByteSize ≤ nameLimit) (found : disk.tree.get? (top ++ [item]) = some .directory) :
    Target destination (rel ++ [item]) (top ++ [item]) disk where
  names other member := by
    rcases List.mem_append.1 member with inside | last
    · exact target.names other inside
    · exact List.mem_singleton.1 last ▸ proper
  opens := by
    rw [Path.below_concat destination target.names proper]
    exact opens_join target.opens proper short ⟨id, found⟩

section

variable (target : Target destination rel top disk) (proper : Path.isName item = true)
  (vacant : Vacant disk (top ++ [item]))

include target proper vacant

theorem of_createLink {points : String} {next : Disk}
    (created : disk.createLink points (Path.entryAt destination rel item) = .ok next) :
    Path.joinFault? (Path.below destination (Path.joinAll "" rel)) item = none ∧
      next = disk.modifyTree (·.put (top ++ [item]) (.link points)) := by
  rw [createLink_join target.opens proper, vacant _ (List.prefix_refl _)] at created
  split at created
  next => cases created
  next sound _ => exact ⟨sound, (Except.ok.inj created).symm⟩
  next absent => cases absent

/-- A link that is created is all that is added. -/
theorem adds_createLink {points points' : String} {next : Disk}
    (created : disk.createLink points (Path.entryAt destination rel item) = .ok next) :
    Adds top [(item, .link points')] disk next := by
  obtain ⟨-, rfl⟩ := target.of_createLink proper vacant created
  exact adds_put vacant fun _ _ => ⟨points', rfl⟩

theorem of_copyFile {path : String} {next : Disk}
    (copied : disk.copyFile path (Path.entryAt destination rel item) = .ok next) :
    ∃ bytes executable, disk.readFile path = .ok (bytes, executable) ∧
      Path.joinFault? (Path.below destination (Path.joinAll "" rel)) item = none ∧
      next = disk.modifyTree (·.put (top ++ [item]) (.file bytes executable)) := by
  rw [copyFile] at copied
  cases read : disk.readFile path with
  | error fault =>
      rw [read] at copied
      cases copied
  | ok content =>
      have kept : ∀ target, disk.tree.get? (top ++ [item]) ≠ some (.link target) := by
        simp [vacant _ (List.prefix_refl _)]
      rw [read] at copied
      simp only [bind, Except.bind] at copied
      rw [writeFile_join target.opens proper kept, vacant _ (List.prefix_refl _)] at copied
      cases sound : Path.joinFault? (Path.below destination (Path.joinAll "" rel)) item with
      | some fault =>
          rw [sound] at copied
          cases copied
      | none =>
          rw [sound] at copied
          exact ⟨_, _, rfl, rfl, (Except.ok.inj copied).symm⟩

/-- A file that is copied is all that is added. -/
theorem adds_copyFile {path : String} {next : Disk}
    (copied : disk.copyFile path (Path.entryAt destination rel item) = .ok next) :
    Adds top [(item, entry)] disk next := by
  obtain ⟨bytes, executable, -, -, rfl⟩ := target.of_copyFile proper vacant copied
  exact adds_put vacant fun _ isLink => by cases isLink

/-- A directory that is made stands at its place and is a target in turn. -/
theorem of_ensureDirectory {next : Disk}
    (made : disk.ensureDirectory (Path.entryAt destination rel item) = .ok next) :
    next = disk.modifyTree (·.put (top ++ [item]) .directory) ∧
      Target destination (rel ++ [item]) (top ++ [item]) next ∧
      next.tree.get? (top ++ [item]) = some .directory ∧
      Path.joinFault? (Path.below destination (Path.joinAll "" rel)) item = none := by
  have absent := vacant _ (List.prefix_refl _)
  rw [ensureDirectory_join target.opens proper absent] at made
  obtain ⟨sound, rfl⟩ := of_not_refused made
  have room : disk.tree.hasRoom (top ++ [item]) = true :=
    hasRoom_of_isName proper target.opens.get? (by simp [absent])
  have adds : Adds top [(item, .directory)] disk
      (disk.modifyTree (·.put (top ++ [item]) .directory)) :=
    adds_put vacant fun _ isLink => by cases isLink
  have found : (disk.modifyTree (·.put (top ++ [item]) .directory)).tree.get? (top ++ [item]) =
      some .directory := get?_put_self room
  exact ⟨rfl, (target.of_kept adds.kept rfl).down proper (size_le_of_joinFault? sound) found, found, sound⟩

/-- A directory has been added with what has been copied to it. -/
theorem adds_directory {next : Disk}
    (made : disk.ensureDirectory (Path.entryAt destination rel item) = .ok next)
    (inner : Adds (top ++ [item]) rows next after) : Adds top [(item, .directory)] disk after := by
  obtain ⟨rfl, -, found, -⟩ := target.of_ensureDirectory proper vacant made
  have adds : Adds top [(item, .directory)] disk
      (disk.modifyTree (·.put (top ++ [item]) .directory)) :=
    adds_put vacant fun _ isLink => by cases isLink
  refine ⟨adds.agree.trans (inner.agree.mono ?_), inner.kept.trans adds.kept, ?_⟩
  · rintro loc ⟨row, -, inside⟩
    exact ⟨_, List.mem_singleton_self _, (List.prefix_append _ _).trans inside⟩
  · intro row listed points isLink
    obtain rfl := List.mem_singleton.1 listed
    rw [inner.kept _ _ found] at isLink
    cases isLink

/-- Whatever stands at the source, the copy of an entry adds it at its name only. -/
theorem ends_copyEntry {copy : String → List (String × Entry) → DiskAction Nat}
    (inner : Extends destination copy) (count : Nat) :
    (copyEntry source destination filter copy (Path.joinAll "" rel) count (item, entry)).Ends disk
      fun _ after => Adds top [(item, entry)] disk after := by
  have idle : Adds top [(item, entry)] disk disk := adds_self fun row listed => by
    obtain rfl := List.mem_singleton.1 listed
    exact vacant
  unfold copyEntry
  simp only [Path.join_joinAll _ _ target.names]
  simp only [← Path.joinAll_concat]
  split
  next included =>
      cases entry with
      | directory =>
          -- The listing is taken before the counterpart is made, so it may not list the counterpart
          -- even where that lies in the directory itself.
          refine ends_inspect (ends_change_bind (fun _ => idle) fun next made => ?_)
          obtain ⟨rfl, below, -⟩ := target.of_ensureDirectory proper vacant made
          cases listed : disk.listing (Path.entryAt source rel item) with
          | error fault =>
              exact target.adds_directory proper vacant made (@adds_self _ _ [] (by simp))
          | ok rows =>
              have copies := inner (rel ++ [item]) (top ++ [item]) rows _ below
                (awaited_of_listing vacant listed)
              exact copies.andThen (fun _ _ => target.adds_directory proper vacant made)
                fun _ _ => target.adds_directory proper vacant made
      | link points =>
          have links : (copyLink (Path.entryAt source rel item) (Path.entryAt destination rel item)).Ends
              disk fun _ after => Adds top [(item, .link points)] disk after :=
            ends_query (fun _ => idle) fun points _ => ends_change (fun _ => idle) fun next =>
              target.adds_createLink proper vacant
          exact links.andThen (fun _ _ => id) fun _ _ => id
      | _ =>
          exact ends_change_bind (fun _ => idle) fun next => target.adds_copyFile proper vacant
  next => exact idle

end

end Target

/-- However far the copy of entries comes, it adds entries at their names only. -/
theorem Target.ends_foldlM (target : Target destination rel top disk) (awaited : Awaited top rows disk)
    {copy : String → List (String × Entry) → DiskAction Nat} (inner : Extends destination copy)
    (count : Nat) :
    (rows.foldlM (copyEntry source destination filter copy (Path.joinAll "" rel)) count).Ends disk
      fun _ after => Adds top rows disk after := by
  induction rows generalizing disk count with
  | nil => exact adds_self awaited.vacant
  | cons row rows ih =>
      rw [List.foldlM_cons]
      -- The names are distinct, so what is added for one entry leaves the others' names free.
      have fresh := (List.nodup_cons.1 awaited.distinct).1
      have first : (copyEntry source destination filter copy (Path.joinAll "" rel) count row).Ends disk
          fun _ after => Adds top [row] disk after :=
        target.ends_copyEntry (awaited.proper row List.mem_cons_self)
          (awaited.vacant row List.mem_cons_self) inner count
      refine first.andThen ?_ ?_
      · intro error after adds
        exact adds.cons (adds_self (awaited.of_adds adds).vacant) fresh
      · intro copied after adds
        have rest := ih (target.of_kept adds.kept adds.agree.workingDirectory)
          (awaited.of_adds adds) copied
        exact adds.cons rest fresh

/-- A copy only adds to its destination, at each depth. -/
theorem extends_copyListed (source destination : String) (filter : CopyFilter) (depth : Nat) :
    Extends destination (copyListed source destination filter depth) := by
  induction depth with
  | zero => exact fun rel top rows disk _ awaited => adds_self awaited.vacant
  | succ depth ih => exact fun rel top rows disk target awaited => target.ends_foldlM awaited ih 0

end VersionMatrix
