import VersionMatrix.Proofs.Staging.Site

/-! What the copy of a project holds: the entries of the project whose paths the filter includes, each
as it is there, and nothing else. While it is made the copy stays in its place. -/
namespace VersionMatrix

open FileTree Disk DiskAction

namespace Path

theorem prefix_joinAll (base : String) (relative : List String) :
    base.toList <+: (joinAll base relative).toList := by
  induction relative generalizing base with
  | nil => exact List.prefix_refl _
  | cons first rest ih =>
      refine List.IsPrefix.trans ?_ (ih (join base first))
      rcases join_cases base first with ⟨rfl, -⟩ | ⟨-, -, same⟩ | ⟨-, -, same⟩
      · exact List.nil_prefix
      · rw [same, String.toList_append]
        exact List.prefix_append ..
      · rw [same, String.toList_append, String.toList_append, List.append_assoc]
        exact List.prefix_append ..

theorem joinAll_append (base : String) (first second : List String) :
    joinAll base (first ++ second) = joinAll (joinAll base first) second := by
  rw [joinAll, List.foldl_append]
  rfl

/-- The path of an entry in a directory that stands at a relative location below a path. -/
abbrev entryAt (base : String) (relative : Location) (item : String) : String :=
  join (below base (joinAll "" relative)) item

end Path

/-- What is below an excluded directory is excluded. -/
theorem CopyFilter.includes_of_append (filter : CopyFilter) {above below : List String}
    (included : filter.includes (Path.joinAll "" (above ++ below)) = true) :
    filter.includes (Path.joinAll "" above) = true := by
  simp only [includes, Bool.not_eq_true', List.any_eq_false] at included ⊢
  intro fragment listed found
  refine included fragment listed (Text.contains_iff.2 ?_)
  rw [Path.joinAll_append]
  exact (Text.contains_iff.1 found).trans (Path.prefix_joinAll _ below).isInfix

/-- What a copy is to hold at a relative location: the entry of the project there, if the filter
includes its path. -/
def copied (filter : CopyFilter) (tree : FileTree) (project relative : Location) : Option Entry :=
  if filter.includes (Path.joinAll "" relative) then tree.get? (project ++ relative) else none

variable {own foreign : Location → Prop} {initial disk after later : Disk}
  {source base name item relative : String} {dir project rel : Location} {filter : CopyFilter}
  {entry : Entry}

/-- Nothing below an excluded entry is copied. -/
theorem copied_eq_none_of_excluded {tree : FileTree}
    (excluded : filter.includes (Path.joinAll "" rel) = false) (below : Location) :
    copied filter tree project (rel ++ below) = none := by
  rw [copied, if_neg]
  intro included
  rw [filter.includes_of_append included] at excluded
  cases excluded

/-- Nothing is copied from below what is no directory. -/
theorem copied_eq_none_of_leaf {tree : FileTree}
    (leaf : tree.get? (project ++ rel) ≠ some .directory) {below : Location} (proper : below ≠ []) :
    copied filter tree project (rel ++ below) = none := by
  rw [copied, ← List.append_assoc, get?_eq_none_of_prefix leaf (List.prefix_append ..)]
  · exact ite_self none
  · simpa using proper

/-- A copy under way. Only its place differs from the disk at first, and the project is apart from the
place and from what is foreign. -/
structure Copying (foreign : Location → Prop) (initial : Disk) (base name : String)
    (dir project : Location) (disk : Disk) : Prop where
  site : Site foreign base name dir disk
  agree : AgreeOff (Within (dir ++ [name])) initial disk
  apart : ∀ loc, project <+: loc → ¬ dir ++ [name] <+: loc
  readable : ∀ loc, project <+: loc → ¬ foreign loc

/-- The paths to a directory of the project and to its counterpart. -/
structure Paths (foreign : Location → Prop) (source base name : String) (dir project : Location)
    (rel : Location) (disk : Disk) : Prop where
  names : ∀ item ∈ rel, Path.isName item = true
  fromDir : disk.Opens (fun loc => dir ++ [name] <+: loc ∨ foreign loc)
    (Path.below source (Path.joinAll "" rel)) (project ++ rel)
  toDir : disk.Opens foreign (Path.below (Path.join base name) (Path.joinAll "" rel))
    (dir ++ [name] ++ rel)

/-- The named entries of a directory have been copied with all below them, and nothing else has been
changed. -/
structure Filled (filter : CopyFilter) (initial : Disk) (project top rel : Location)
    (items : List String) (before after : Disk) : Prop where
  agree : AgreeOff (fun loc => ∃ item ∈ items, top ++ rel ++ [item] <+: loc) before after
  holds : ∀ item ∈ items, ∀ below, after.tree.get? (top ++ rel ++ item :: below) =
    copied filter initial.tree project (rel ++ item :: below)

/-- Whether nothing stands at a name in a directory, nor below it. -/
def Vacant (disk : Disk) (top : Location) : Prop := ∀ loc, top <+: loc → disk.tree.get? loc = none

namespace Copying

theorem of_agreeOff (copying : Copying foreign initial base name dir project disk)
    (agree : AgreeOff (Within (dir ++ [name])) disk after) :
    Copying foreign initial base name dir project after where
  site := copying.site.of_agreeOff_within agree
  agree := copying.agree.trans agree
  apart := copying.apart
  readable := copying.readable

/-- While a copy is made, the project stays as it was. -/
theorem get?_project (copying : Copying foreign initial base name dir project disk)
    {loc : Location} (inside : project <+: loc) : disk.tree.get? loc = initial.tree.get? loc :=
  (copying.agree.get? loc (copying.apart loc inside)).symm

end Copying

/-- Paths stay as long as nothing that stood is lost in the place of the copy. -/
theorem Paths.of_agreeOff (paths : Paths foreign source base name dir project rel disk)
    (agree : AgreeOff (Within (dir ++ [name])) disk after)
    (more : ∀ loc entry, disk.tree.get? loc = some entry → after.tree.get? loc = some entry) :
    Paths foreign source base name dir project rel after where
  names := paths.names
  fromDir := paths.fromDir.of_agreeOff (agree.mono fun _ => Or.inl)
  toDir := paths.toDir.mono agree.workingDirectory fun loc entry shown =>
    ⟨shown.1, more loc entry shown.2⟩

/-- What has been filled was vacant before, so nothing is lost. -/
theorem Filled.more {top : Location} {items : List String}
    (filled : Filled filter initial project top rel items disk after)
    (vacant : ∀ item ∈ items, Vacant disk (top ++ rel ++ [item])) (loc : Location) (entry : Entry)
    (found : disk.tree.get? loc = some entry) : after.tree.get? loc = some entry := by
  rw [← filled.agree.get? loc, found]
  rintro ⟨item, listed, inside⟩
  rw [vacant item listed loc inside] at found
  cases found

theorem Filled.within {top : Location} {items : List String}
    (filled : Filled filter initial project top rel items disk after) :
    AgreeOff (Within top) disk after :=
  filled.agree.mono fun _ ⟨_, _, inside⟩ =>
    ((List.prefix_append _ _).trans (List.prefix_append _ _)).trans inside

/-- Entries may be copied one after the other. -/
theorem Filled.append {top : Location} {first second : List String}
    (here : Filled filter initial project top rel first disk after)
    (next : Filled filter initial project top rel second after later)
    (apart : ∀ item ∈ first, item ∉ second) :
    Filled filter initial project top rel (first ++ second) disk later where
  agree := by
    refine AgreeOff.trans (here.agree.mono ?_) (next.agree.mono ?_)
    · rintro loc ⟨item, listed, inside⟩
      exact ⟨item, List.mem_append_left _ listed, inside⟩
    · rintro loc ⟨item, listed, inside⟩
      exact ⟨item, List.mem_append_right _ listed, inside⟩
  holds item listed below := by
    by_cases isSecond : item ∈ second
    · exact next.holds item isSecond below
    · have isFirst := (List.mem_append.1 listed).resolve_right isSecond
      rw [← next.agree.get?, here.holds item isFirst below]
      rintro ⟨other, listed', inside⟩
      have same : [other] <+: item :: below := (List.prefix_append_right_inj _).1 inside
      exact apart item isFirst ((List.cons_prefix_cons.1 same).1 ▸ listed')

theorem within_top {top below : Location} : Within top (top ++ rel ++ below) := by
  rw [Within, List.append_assoc]
  exact List.prefix_append ..

/-- A free place in the copy, in a directory that stands there, for an entry of the project. -/
structure Vacancy (initial : Disk) (top project rel : Location) (item : String) (entry : Entry)
    (disk : Disk) : Prop where
  proper : Path.isName item = true
  stands : disk.tree.get? (top ++ rel) = some .directory
  vacant : Vacant disk (top ++ rel ++ [item])
  found : initial.tree.get? (project ++ rel ++ [item]) = some entry

namespace Vacancy

variable {top : Location} (vacancy : Vacancy initial top project rel item entry disk)

include vacancy

theorem free : disk.tree.get? (top ++ rel ++ [item]) = none :=
  vacancy.vacant _ (List.prefix_refl _)

theorem hasRoom : disk.tree.hasRoom (top ++ rel ++ [item]) = true :=
  hasRoom_of_isName vacancy.proper vacancy.stands (by rw [vacancy.free]; simp)

/-- Putting an entry where nothing stood changes that place only. -/
theorem get?_put (put : Entry) (loc : Location) :
    (disk.modifyTree (·.put (top ++ rel ++ [item]) put)).tree.get? loc =
      if loc = top ++ rel ++ [item] then some put else disk.tree.get? loc := by
  simp only [modifyTree, Disk.get?_put, vacancy.hasRoom, and_true]

/-- Nothing is lost where an entry is put. -/
theorem get?_put_of_found (put : Entry) (loc : Location) (other : Entry)
    (stands : disk.tree.get? loc = some other) :
    (disk.modifyTree (·.put (top ++ rel ++ [item]) put)).tree.get? loc = some other := by
  rw [vacancy.get?_put, if_neg, stands]
  rintro rfl
  rw [vacancy.free] at stands
  cases stands

/-- An excluded entry is left out with all below it. -/
theorem filled_excluded (excluded : filter.includes (Path.joinAll "" (rel ++ [item])) = false) :
    Filled filter initial project top rel [item] disk disk where
  agree := AgreeOff.refl _ disk
  holds other listed below := by
    obtain rfl := List.mem_singleton.1 listed
    have none := @copied_eq_none_of_excluded project (rel ++ [other]) filter initial.tree excluded
      below
    rw [List.append_assoc, List.singleton_append] at none
    rw [none]
    exact vacancy.vacant _ ((List.prefix_append_right_inj _).2 (by simp))

/-- An entry that holds nothing is copied by putting it. -/
theorem filled_put (leaf : entry ≠ .directory)
    (included : filter.includes (Path.joinAll "" (rel ++ [item])) = true) :
    Filled filter initial project top rel [item] disk
      (disk.modifyTree (·.put (top ++ rel ++ [item]) entry)) where
  agree := agreeOff_put disk ⟨item, List.mem_singleton_self item, List.prefix_refl _⟩
  holds other listed below := by
    obtain rfl := List.mem_singleton.1 listed
    rw [vacancy.get?_put]
    cases below with
    | nil => rw [if_pos rfl, copied, if_pos included, ← List.append_assoc, vacancy.found]
    | cons first rest =>
        have deeper : top ++ rel ++ other :: first :: rest ≠ top ++ rel ++ [other] := by
          simp
        have leaf' : initial.tree.get? (project ++ (rel ++ [other])) ≠ some .directory := by
          rw [← List.append_assoc, vacancy.found]
          simpa using leaf
        have none := @copied_eq_none_of_leaf project (rel ++ [other]) filter initial.tree leaf'
          (first :: rest) (by simp)
        rw [List.append_assoc] at none
        rw [if_neg deeper, List.singleton_append] at *
        rw [none]
        exact vacancy.vacant _ ((List.prefix_append_right_inj _).2 (by simp))

/-- What a directory of the project holds has a free place once its counterpart has been made. -/
theorem inner (isDirectory : entry = .directory) {row : String × Entry}
    (listed : row ∈ initial.tree.contents (project ++ rel ++ [item])) :
    Vacancy initial top project (rel ++ [item]) row.1 row.2
      (disk.modifyTree (·.put (top ++ rel ++ [item]) .directory)) := by
  subst isDirectory
  refine ⟨isName_of_mem_contents listed, ?_, fun loc inside => ?_, ?_⟩
  · rw [← List.append_assoc, vacancy.get?_put, if_pos rfl]
  · have deeper : top ++ rel ++ [item] ++ [row.1] <+: loc := by simpa using inside
    rw [vacancy.get?_put, if_neg]
    · exact vacancy.vacant loc ((List.prefix_append _ _).trans deeper)
    · rintro rfl
      simpa using deeper.length_le
  · rw [← List.append_assoc]
    exact mem_contents.1 listed

/-- A place stays free while the places of others are filled. -/
theorem of_filled {items : List String}
    (filled : Filled filter initial project top rel items disk after)
    (vacant : ∀ item ∈ items, Vacant disk (top ++ rel ++ [item])) (other : item ∉ items) :
    Vacancy initial top project rel item entry after where
  proper := vacancy.proper
  stands := filled.more vacant _ _ vacancy.stands
  vacant loc inside := by
    rw [← filled.agree.get?, vacancy.vacant loc inside]
    rintro ⟨next, listed, inside'⟩
    have same := List.prefix_of_prefix_length_le inside inside' (by simp)
    have := (List.prefix_append_right_inj _).1 same
    exact other ((List.cons_prefix_cons.1 this).1 ▸ listed)
  found := vacancy.found

/-- A directory is copied by making it and copying what it holds. -/
theorem filled_directory (isDirectory : entry = .directory)
    (included : filter.includes (Path.joinAll "" (rel ++ [item])) = true)
    (inner : Filled filter initial project top (rel ++ [item])
      ((initial.tree.contents (project ++ rel ++ [item])).map (·.1))
      (disk.modifyTree (·.put (top ++ rel ++ [item]) .directory)) after) :
    Filled filter initial project top rel [item] disk after where
  agree := by
    have made : AgreeOff (fun loc => ∃ other ∈ [item], top ++ rel ++ [other] <+: loc) disk
        (disk.modifyTree (·.put (top ++ rel ++ [item]) .directory)) :=
      agreeOff_put disk ⟨item, List.mem_singleton_self item, List.prefix_refl _⟩
    refine made.trans (inner.agree.mono ?_)
    rintro loc ⟨next, -, inside⟩
    refine ⟨item, List.mem_singleton_self item, List.IsPrefix.trans ?_ inside⟩
    rw [← List.append_assoc]
    exact List.prefix_append ..
  holds other listed below := by
    obtain rfl := List.mem_singleton.1 listed
    subst isDirectory
    have deeper : ∀ below : Location, top ++ rel ++ other :: below =
        top ++ (rel ++ [other]) ++ below := by simp
    have relative : ∀ below : Location, rel ++ other :: below = rel ++ [other] ++ below := by simp
    have whole : project ++ (rel ++ [other]) = project ++ rel ++ [other] := by simp
    rw [deeper below, relative below]
    cases below with
    | nil =>
        rw [List.append_nil, List.append_nil, ← inner.agree.get?, vacancy.get?_put, if_pos,
          copied, if_pos included, whole, vacancy.found]
        · simp
        · rintro ⟨next, -, inside⟩
          simpa using inside.length_le
    | cons next rest =>
        by_cases isInner : next ∈ (initial.tree.contents (project ++ rel ++ [other])).map (·.1)
        · exact inner.holds next isInner rest
        · have absent : initial.tree.get? (project ++ (rel ++ [other] ++ next :: rest)) = none := by
            rw [← List.append_assoc, whole]
            exact get?_eq_none_of_unlisted isInner rest
          rw [copied, absent, ite_self, ← inner.agree.get?, vacancy.get?_put, if_neg]
          · rw [← deeper]
            exact vacancy.vacant _ ((List.prefix_append_right_inj _).2 (by simp))
          · simp
          · rintro ⟨item, listed, inside⟩
            have same : [item] <+: next :: rest := (List.prefix_append_right_inj _).1 inside
            exact isInner ((List.cons_prefix_cons.1 same).1 ▸ listed)

end Vacancy

/-- What is asked of a part of the copy: it keeps to its place, and if it succeeds then the named
entries have been copied. -/
def Fills (filter : CopyFilter) (initial : Disk) (project top rel : Location) (items : List String)
    (before : Disk) : Outlook Nat := fun result after =>
  AgreeOff (Within top) before after ∧
    (result.isOk = true → Filled filter initial project top rel items before after)

/-- What is asked of the operation that makes a counterpart: if it succeeds then it has put an entry,
and otherwise it has changed nothing. -/
def Puts (loc : Location) (put : Entry) (before : Disk) : Outlook Unit
  | .ok _, after => after = before.modifyTree (·.put loc put)
  | .error _, after => after = before

/-- An entry of the project that is to be copied next. -/
structure Pending (foreign : Location → Prop) (initial : Disk) (source base name : String)
    (dir project rel : Location) (item : String) (entry : Entry) (disk : Disk) : Prop where
  copying : Copying foreign initial base name dir project disk
  paths : Paths foreign source base name dir project rel disk
  proper : Path.isName item = true
  vacant : Vacant disk (dir ++ [name] ++ rel ++ [item])
  found : initial.tree.get? (project ++ rel ++ [item]) = some entry

namespace Pending

variable {found : Disk}

theorem vacancy
    (pending : Pending foreign initial source base name dir project rel item entry disk) :
    Vacancy initial (dir ++ [name]) project rel item entry disk :=
  ⟨pending.proper, pending.paths.toDir.get?, pending.vacant, pending.found⟩

theorem get?_entry
    (pending : Pending foreign initial source base name dir project rel item entry disk) :
    disk.tree.get? (project ++ rel ++ [item]) = some entry := by
  rw [pending.copying.get?_project, pending.found]
  rw [List.append_assoc]
  exact List.prefix_append ..

/-- Whatever is foreign, the entry and its counterpart are found the same. -/
theorem of_agreeOff
    (pending : Pending foreign initial source base name dir project rel item entry disk)
    (agree : AgreeOff foreign disk found) :
    found.Opens foreign (Path.below source (Path.joinAll "" rel)) (project ++ rel) ∧
      found.tree.get? (project ++ rel ++ [item]) = some entry ∧
      found.Opens foreign (Path.below (Path.join base name) (Path.joinAll "" rel))
        (dir ++ [name] ++ rel) ∧
      found.tree.get? (dir ++ [name] ++ rel ++ [item]) = none := by
  refine ⟨?_, ?_, pending.paths.toDir.of_agreeOff agree, ?_⟩
  · exact (pending.paths.fromDir.reveal fun _ => Or.inr).of_agreeOff agree
  · rw [← agree.get?, pending.get?_entry]
    apply pending.copying.readable
    rw [List.append_assoc]
    exact List.prefix_append ..
  · rw [← agree.get?, pending.vacancy.free]
    exact pending.copying.site.apart _ within_top

theorem agreeOff_put_entry
    (_ : Pending foreign initial source base name dir project rel item entry disk) (put : Entry) :
    AgreeOff (Within (dir ++ [name])) disk
      (disk.modifyTree (·.put (dir ++ [name] ++ rel ++ [item]) put)) :=
  agreeOff_put disk within_top

/-- A change at the counterpart is refused for its text, or puts an entry there. -/
theorem confined_change
    (pending : Pending foreign initial source base name dir project rel item entry disk)
    (fault? : Option FileFault) {path : String} {act : Disk → Except FileFault Disk} {put : Entry}
    (acts : ∀ found, AgreeOff foreign disk found →
      act found =
        match fault? with
        | some fault => .error fault
        | none => .ok (found.modifyTree (·.put (dir ++ [name] ++ rel ++ [item]) put))) :
    Confined (Within (dir ++ [name])) foreign (change path act) disk
      (Puts (dir ++ [name] ++ rel ++ [item]) put disk) := by
  cases fault? with
  | some fault => exact confined_change_of_error acts rfl
  | none =>
      have apart : ∀ below, ¬ foreign (dir ++ [name] ++ rel ++ below) :=
        fun below => pending.copying.site.apart _ within_top
      refine confined_change_of_put acts within_top (apart [item]) ?_ rfl
      rw [List.dropLast_concat]
      simpa using apart []

/-- The copy of a link puts that link in its place, whatever other jobs do. -/
theorem confined_copyLink {target : String}
    (pending : Pending foreign initial source base name dir project rel item (.link target) disk) :
    Confined (Within (dir ++ [name])) foreign
      (copyLink (Path.entryAt source rel item)
        (Path.entryAt (Path.join base name) rel item)) disk
      (Puts (dir ++ [name] ++ rel ++ [item]) (.link target) disk) := by
  have read : ∀ found, AgreeOff foreign disk found →
      found.readLink (Path.entryAt source rel item) =
        match Path.joinFault? (Path.below source (Path.joinAll "" rel)) item with
        | some fault => .error fault
        | none => .ok target := by
    intro found agree
    obtain ⟨fromDir, there, -, -⟩ := pending.of_agreeOff agree
    exact readLink_join fromDir pending.proper there
  refine confined_query read (fun fault _ => rfl) fun points answered => ?_
  obtain rfl : points = target := by
    split at answered
    · cases answered
    · exact (Except.ok.inj answered).symm
  refine pending.confined_change
    (Path.joinFault? (Path.below (Path.join base name) (Path.joinAll "" rel)) item)
    fun found agree => ?_
  obtain ⟨-, -, toDir, free⟩ := pending.of_agreeOff agree
  rw [createLink_join toDir pending.proper, free]
  cases Path.joinFault? _ item <;> rfl

/-- The copy of a file puts that file in its place, whatever other jobs do. -/
theorem confined_copyFile {bytes : List UInt8} {executable : Bool} {path : String}
    (pending : Pending foreign initial source base name dir project rel item
      (.file bytes executable) disk) :
    Confined (Within (dir ++ [name])) foreign
      (change path fun disk =>
        disk.copyFile (Path.entryAt source rel item)
          (Path.entryAt (Path.join base name) rel item)) disk
      (Puts (dir ++ [name] ++ rel ++ [item]) (.file bytes executable) disk) := by
  refine pending.confined_change
    ((Path.joinFault? (Path.below source (Path.joinAll "" rel)) item).or
      (Path.joinFault? (Path.below (Path.join base name) (Path.joinAll "" rel)) item))
    fun found agree => ?_
  obtain ⟨fromDir, there, toDir, free⟩ := pending.of_agreeOff agree
  have kept : ∀ target, found.tree.get? (dir ++ [name] ++ rel ++ [item]) ≠ some (.link target) := by
    rw [free]
    simp
  rw [copyFile, readFile_join fromDir pending.proper there]
  cases Path.joinFault? (Path.below source (Path.joinAll "" rel)) item with
  | some fault => rfl
  | none =>
      simp only [bind, Except.bind, writeFile_join toDir pending.proper kept, free, Option.none_or]
      cases Path.joinFault? _ item <;> rfl

/-- A socket is refused. -/
theorem confined_copySocket {path : String}
    (pending : Pending foreign initial source base name dir project rel item .socket disk) :
    Confined (Within (dir ++ [name])) foreign
      (change path fun disk =>
        disk.copyFile (Path.entryAt source rel item)
          (Path.entryAt (Path.join base name) rel item)) disk
      (fun result after => result.isOk = false ∧ after = disk) := by
  have refused : ∀ found, AgreeOff foreign disk found →
      found.copyFile (Path.entryAt source rel item) (Path.entryAt (Path.join base name) rel item) =
        .error ((Path.joinFault? (Path.below source (Path.joinAll "" rel)) item).getD
          .noDevice) := by
    intro found agree
    obtain ⟨fromDir, there, -, -⟩ := pending.of_agreeOff agree
    rw [copyFile, readFile_join_of_socket fromDir pending.proper there]
    rfl
  exact confined_change_of_error refused ⟨rfl, rfl⟩

/-- A directory is made in its place, whatever other jobs do. -/
theorem confined_makeDirectory
    (pending : Pending foreign initial source base name dir project rel item .directory disk) :
    Confined (Within (dir ++ [name])) foreign
      (change (Path.entryAt (Path.join base name) rel item) fun disk =>
        disk.ensureDirectory
          (Path.entryAt (Path.join base name) rel item)) disk
      (Puts (dir ++ [name] ++ rel ++ [item]) .directory disk) := by
  refine pending.confined_change
    (Path.joinFault? (Path.below (Path.join base name) (Path.joinAll "" rel)) item)
    fun found agree => ?_
  obtain ⟨-, -, toDir, free⟩ := pending.of_agreeOff agree
  exact ensureDirectory_join toDir pending.proper free

end Pending

/-- What is asked of the copy of what a directory holds. -/
def Copies (foreign : Location → Prop) (initial : Disk) (source base name : String)
    (dir project : Location) (filter : CopyFilter)
    (copy : String → List (String × Entry) → DiskAction Nat) : Prop :=
  ∀ (rel : Location) (rows : List (String × Entry)) (disk : Disk),
    (∀ row ∈ rows, Pending foreign initial source base name dir project rel row.1 row.2 disk) →
    (rows.map (·.1)).Nodup →
    Confined (Within (dir ++ [name])) foreign (copy (Path.joinAll "" rel) rows) disk
      (Fills filter initial project (dir ++ [name]) rel (rows.map (·.1)) disk)

theorem Path.join_joinAll (base item : String) (names : ∀ item ∈ rel, Path.isName item = true) :
    Path.join base (Path.join (Path.joinAll "" rel) item) = Path.entryAt base rel item :=
  Path.join_join base (Path.getLast?_joinAll names) item

theorem Path.below_concat (base : String) (names : ∀ item ∈ rel, Path.isName item = true)
    (proper : Path.isName item = true) :
    Path.below base (Path.joinAll "" (rel ++ [item])) = Path.entryAt base rel item := by
  rw [Path.joinAll_concat, Path.below, if_neg (Path.join_ne_empty _ (Path.ne_empty_of_isName proper)),
    Path.join_joinAll base item names]

/-- A part of the copy that fails at once has changed nothing. -/
theorem fills_error {top : Location} {items : List String} (error : StageError) :
    Fills filter initial project top rel items disk (.error error) disk :=
  ⟨AgreeOff.refl _ disk, (absurd · Bool.false_ne_true)⟩

namespace Pending

/-- What a directory of the project holds is to be copied after its counterpart has been made. -/
theorem inner
    (pending : Pending foreign initial source base name dir project rel item .directory disk)
    (short : item.utf8ByteSize ≤ nameLimit) {row : String × Entry}
    (listed : row ∈ initial.tree.contents (project ++ rel ++ [item])) :
    Pending foreign initial source base name dir project (rel ++ [item]) row.1 row.2
      (disk.modifyTree (·.put (dir ++ [name] ++ rel ++ [item]) .directory)) := by
  have made := pending.agreeOff_put_entry .directory
  have vacancy := pending.vacancy.inner rfl listed
  have paths := pending.paths.of_agreeOff made (pending.vacancy.get?_put_of_found .directory)
  have names : ∀ other ∈ rel ++ [item], Path.isName other = true := by
    intro other member
    rcases List.mem_append.1 member with inside | last
    · exact pending.paths.names other inside
    · exact List.mem_singleton.1 last ▸ pending.proper
  refine ⟨pending.copying.of_agreeOff made, ⟨names, ?_, ?_⟩, vacancy.proper, vacancy.vacant,
    vacancy.found⟩
  · rw [Path.below_concat source pending.paths.names pending.proper, ← List.append_assoc]
    refine opens_join paths.fromDir pending.proper short
      ⟨?_, pending.vacancy.get?_put_of_found _ _ _ pending.get?_entry⟩
    have inside : project <+: project ++ rel ++ [item] := by
      rw [List.append_assoc]
      exact List.prefix_append ..
    exact fun either => either.elim (pending.copying.apart _ inside)
      (pending.copying.readable _ inside)
  · rw [Path.below_concat _ pending.paths.names pending.proper, ← List.append_assoc]
    refine opens_join paths.toDir pending.proper short ⟨?_, ?_⟩
    · exact pending.copying.site.apart _ within_top
    · rw [pending.vacancy.get?_put, if_pos rfl]

/-- A directory of the project is listed as it was at first. -/
theorem listing_entry {found : Disk}
    (pending : Pending foreign initial source base name dir project rel item .directory disk)
    (agree : AgreeOff foreign disk found) :
    found.listing (Path.entryAt source rel item) =
      match Path.joinFault? (Path.below source (Path.joinAll "" rel)) item with
      | some fault => .error fault
      | none => .ok (initial.tree.contents (project ++ rel ++ [item])) := by
  obtain ⟨fromDir, there, -, -⟩ := pending.of_agreeOff agree
  have inside : ∀ next, project <+: project ++ rel ++ [item] ++ [next] := fun next => by simp
  have same : found.tree.contents (project ++ rel ++ [item]) =
      initial.tree.contents (project ++ rel ++ [item]) := contents_congr fun next => by
    rw [← agree.get? _ (pending.copying.readable _ (inside next)),
      pending.copying.get?_project (inside next)]
  have listed := listing_join fromDir pending.proper there
  rw [same] at listed
  exact listed

/-- One entry is copied with what is below it, whatever other jobs do. -/
theorem confined_copyEntry
    (pending : Pending foreign initial source base name dir project rel item entry disk)
    {copy : String → List (String × Entry) → DiskAction Nat}
    (copies : Copies foreign initial source base name dir project filter copy) (count : Nat) :
    Confined (Within (dir ++ [name])) foreign
      (copyEntry source (Path.join base name) filter copy (Path.joinAll "" rel) count (item, entry))
      disk (Fills filter initial project (dir ++ [name]) rel [item] disk) := by
  have names := pending.paths.names
  unfold copyEntry
  simp only [Path.join_joinAll _ _ names]
  simp only [← Path.joinAll_concat]
  split
  next included =>
      -- An entry that holds nothing: the operation that makes its counterpart is all there is.
      have leaf : entry ≠ .directory → ∀ (make : DiskAction Unit) (value : Nat),
          Confined (Within (dir ++ [name])) foreign make disk
            (Puts (dir ++ [name] ++ rel ++ [item]) entry disk) →
          Confined (Within (dir ++ [name])) foreign (make >>= fun _ => pure value) disk
            (Fills filter initial project (dir ++ [name]) rel [item] disk) := by
        intro leaf make value confined
        refine confined.andThen ?_ ?_
        · rintro error _ rfl
          exact fills_error error
        · rintro _ _ rfl
          exact ⟨pending.agreeOff_put_entry entry, fun _ => pending.vacancy.filled_put leaf included⟩
      cases entry with
      | link target => exact leaf (by simp) _ _ pending.confined_copyLink
      | file bytes executable => exact leaf (by simp) _ _ pending.confined_copyFile
      | socket =>
          refine Confined.andThen pending.confined_copySocket ?_ ?_
          · rintro error _ ⟨-, rfl⟩
            exact fills_error error
          · rintro _ _ ⟨isOk, -⟩
            cases isOk
      | directory =>
          -- The project is listed before the counterpart is made, and nothing there changes.
          refine confined_inspect (fun found agree => pending.listing_entry agree) ?_
          refine Confined.andThen pending.confined_makeDirectory ?_ ?_
          · rintro error _ rfl
            exact fills_error error
          rintro _ _ rfl
          have made := pending.agreeOff_put_entry .directory
          cases sound : Path.joinFault? (Path.below source (Path.joinAll "" rel)) item with
          | some fault => exact ⟨made, (absurd · Bool.false_ne_true)⟩
          | none =>
              have inner := copies (rel ++ [item])
                (initial.tree.contents (project ++ rel ++ [item])) _
                (fun row listed => pending.inner (size_le_of_joinFault? sound) listed)
                (nodup_contents _ _)
              refine Confined.andThen inner ?_ ?_
              · rintro error later ⟨agree, -⟩
                exact ⟨made.trans agree, (absurd · Bool.false_ne_true)⟩
              · rintro value later ⟨agree, filled⟩
                exact ⟨made.trans agree,
                  fun _ => pending.vacancy.filled_directory rfl included (filled rfl)⟩
  next excluded =>
      exact ⟨AgreeOff.refl _ disk, fun _ => pending.vacancy.filled_excluded (by simpa using excluded)⟩

/-- An entry stays to be copied while others are. -/
theorem of_filled
    (pending : Pending foreign initial source base name dir project rel item entry disk)
    {items : List String}
    (filled : Filled filter initial project (dir ++ [name]) rel items disk after)
    (vacant : ∀ item ∈ items, Vacant disk (dir ++ [name] ++ rel ++ [item]))
    (other : item ∉ items) :
    Pending foreign initial source base name dir project rel item entry after where
  copying := pending.copying.of_agreeOff filled.within
  paths := pending.paths.of_agreeOff filled.within (filled.more vacant)
  proper := pending.proper
  vacant := (pending.vacancy.of_filled filled vacant other).vacant
  found := pending.found

end Pending

theorem Filled.nil {top : Location} : Filled filter initial project top rel [] disk disk :=
  ⟨AgreeOff.refl _ disk, fun _ listed => absurd listed List.not_mem_nil⟩

/-- A listing is copied, whatever other jobs do, by induction on the depth. -/
theorem copies_copyListed (depth : Nat) :
    Copies foreign initial source base name dir project filter
      (copyListed source (Path.join base name) filter depth) := by
  induction depth with
  | zero => exact fun rel rows disk _ _ => fills_error _
  | succ depth ih =>
      intro rel rows disk pending distinct
      rw [copyListed]
      generalize 0 = count
      induction rows generalizing disk count with
      | nil => exact ⟨AgreeOff.refl _ disk, fun _ => Filled.nil⟩
      | cons row rows ihRows =>
          rw [List.map_cons, List.nodup_cons] at distinct
          rw [List.foldlM_cons]
          have first := pending row List.mem_cons_self
          refine Confined.andThen (first.confined_copyEntry ih count) ?_ ?_
          · rintro error later ⟨agree, -⟩
            exact ⟨agree, (absurd · Bool.false_ne_true)⟩
          rintro copies middle ⟨agree, filled⟩
          have here := filled rfl
          have vacant : ∀ item ∈ [row.1], Vacant disk (dir ++ [name] ++ rel ++ [item]) := by
            intro item listed
            exact List.mem_singleton.1 listed ▸ first.vacant
          have rest := ihRows middle (fun next listed => by
            refine (pending next (List.mem_cons_of_mem _ listed)).of_filled here vacant ?_
            intro same
            exact distinct.1 (List.mem_singleton.1 same ▸ List.mem_map_of_mem listed)) distinct.2
            copies
          refine rest.mono ?_
          rintro result later ⟨agree', filled'⟩
          refine ⟨agree.trans agree', fun isOk => here.append (filled' isOk) ?_⟩
          intro item listed
          exact List.mem_singleton.1 listed ▸ distinct.1

end VersionMatrix
