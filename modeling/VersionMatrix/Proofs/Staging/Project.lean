import VersionMatrix.Proofs.Staging.Copy

/-! The copy of a whole project: what stood in its place is removed, the copy is made, and a copy that
fails is removed again. -/
namespace VersionMatrix

open FileTree Disk DiskAction

variable {own foreign : Location → Prop} {initial disk after : Disk}
  {source base name destination : String} {dir project : Location} {filter : CopyFilter}

/-- A directory that holds of a project what the filter includes, and nothing else. -/
structure Mirrors (filter : CopyFilter) (initial : Disk) (project top : Location) (after : Disk) :
    Prop where
  made : after.tree.get? top = some .directory
  holds : ∀ rel, rel ≠ [] →
    after.tree.get? (top ++ rel) = copied filter initial.tree project rel

/-- What is asked of the copy of a project: it keeps to its place, and if it succeeds then the project
is mirrored there. -/
def Stages (filter : CopyFilter) (initial : Disk) (project top : Location) (before : Disk) :
    Outlook Nat := fun result after =>
  AgreeOff (Within top) before after ∧
    (result.isOk = true → Mirrors filter initial project top after)

/-- A project that can be read apart from the place of its copy. -/
structure Readable (foreign : Location → Prop) (source : String) (top project : Location)
    (disk : Disk) : Prop where
  sound : Path.fault? source = none
  opens : disk.Opens (fun loc => top <+: loc ∨ foreign loc) source project

/-- A readable source is found on every disk that agrees outside what is foreign. -/
theorem Readable.find (readable : Readable foreign source (dir ++ [name]) project disk)
    {found : Disk} (agree : AgreeOff foreign disk found) :
    found.find .through source = .ok (project, .directory) :=
  find_of_opens ((readable.opens.reveal fun _ => Or.inr).of_agreeOff agree) readable.sound

/-- A directory is made in a site exactly if nothing stands there. -/
theorem Site.createDirectory_eq (site : Site foreign base name dir disk) {found : Disk}
    (agree : AgreeOff foreign disk found) :
    found.createDirectory (Path.join base name) =
      match disk.tree.get? (dir ++ [name]) with
      | none => .ok (found.modifyTree (·.put (dir ++ [name]) .directory))
      | some _ => .error .alreadyExists := by
  have creates := createDirectory_join (site.of_agreeOff_foreign agree).opens site.proper
  rw [site.sound, site.get?_eq agree] at creates
  refine creates.trans ?_
  cases disk.tree.get? (dir ++ [name]) <;> rfl

namespace Site

variable (site : Site foreign base name dir disk) (free : disk.tree.get? (dir ++ [name]) = none)

include site free

theorem hasRoom : disk.tree.hasRoom (dir ++ [name]) = true :=
  hasRoom_of_isName site.proper site.opens.get? (by rw [free]; simp)

/-- The place of the copy is made. -/
theorem get?_make (loc : Location) :
    (disk.modifyTree (·.put (dir ++ [name]) .directory)).tree.get? loc =
      if loc = dir ++ [name] then some .directory else disk.tree.get? loc := by
  simp only [modifyTree, Disk.get?_put, site.hasRoom free, and_true]

/-- Once the place has been made, there is a free place in it for whatever the project holds. -/
theorem vacancy {row : String × Entry} (listed : row ∈ initial.tree.contents project) :
    Vacancy initial (dir ++ [name]) project [] row.1 row.2
      (disk.modifyTree (·.put (dir ++ [name]) .directory)) := by
  refine ⟨isName_of_mem_contents listed, ?_, fun loc inside => ?_, ?_⟩
  · rw [List.append_nil, site.get?_make free, if_pos rfl]
  · rw [List.append_nil] at inside
    rw [site.get?_make free, if_neg]
    · exact get?_eq_none_of_absent free ((List.prefix_append _ _).trans inside)
    · rintro rfl
      simpa using inside.length_le
  · rw [List.append_nil]
    exact mem_contents.1 listed

/-- The project is mirrored once all that it holds has been copied. -/
theorem mirrors
    (filled : Filled filter initial project (dir ++ [name]) []
      ((initial.tree.contents project).map (·.1))
      (disk.modifyTree (·.put (dir ++ [name]) .directory)) after) :
    Mirrors filter initial project (dir ++ [name]) after where
  made := by
    rw [← filled.agree.get?, site.get?_make free, if_pos rfl]
    rintro ⟨item, -, inside⟩
    simpa using inside.length_le
  holds rel proper := by
    obtain ⟨first, rest, rfl⟩ := List.exists_cons_of_ne_nil proper
    by_cases listed : first ∈ (initial.tree.contents project).map (·.1)
    · have holds := filled.holds first listed rest
      rw [List.append_nil] at holds
      exact holds
    · rw [copied, get?_eq_none_of_unlisted listed rest, ite_self, ← filled.agree.get?,
        site.get?_make free, if_neg (by simp)]
      · exact get?_eq_none_of_absent free (List.prefix_append ..)
      · rintro ⟨item, member, inside⟩
        rw [List.append_nil] at inside
        have same : [item] <+: first :: rest := (List.prefix_append_right_inj _).1 inside
        exact listed ((List.cons_prefix_cons.1 same).1 ▸ member)

end Site

namespace Copying

/-- Once the place has been made, what the project holds is to be copied. -/
theorem pending (copying : Copying foreign initial base name dir project disk)
    (readable : Readable foreign source (dir ++ [name]) project disk)
    (free : disk.tree.get? (dir ++ [name]) = none) {row : String × Entry}
    (listed : row ∈ initial.tree.contents project) :
    Pending foreign initial source base name dir project [] row.1 row.2
      (disk.modifyTree (·.put (dir ++ [name]) .directory)) := by
  have made : AgreeOff (Within (dir ++ [name])) disk
      (disk.modifyTree (·.put (dir ++ [name]) .directory)) :=
    agreeOff_put disk (List.prefix_refl _)
  have vacancy := copying.site.vacancy free listed
  refine ⟨copying.of_agreeOff made, ⟨by simp, ?_, ?_⟩, vacancy.proper, vacancy.vacant,
    vacancy.found⟩
  · rw [List.append_nil]
    exact readable.opens.of_agreeOff (made.mono fun _ => Or.inl)
  · rw [List.append_nil]
    refine opens_join ?_ copying.site.proper (size_le_of_joinFault? copying.site.sound) ⟨?_, ?_⟩
    · exact (copying.site.of_agreeOff_within made).opens.reveal fun _ => Or.inr
    · exact copying.site.apart _ (List.prefix_refl _)
    · rw [copying.site.get?_make free, if_pos rfl]

theorem listing (copying : Copying foreign initial base name dir project disk)
    (readable : Readable foreign source (dir ++ [name]) project disk) {found : Disk}
    (agree : AgreeOff foreign disk found) :
    found.listing source = .ok (initial.tree.contents project) := by
  rw [listing_of_find (readable.find agree)]
  refine congrArg Except.ok (contents_congr fun next => ?_)
  rw [← agree.get? _ (copying.readable _ (List.prefix_append ..)),
    copying.get?_project (List.prefix_append ..)]

/-- The place is made where nothing stands. -/
theorem confined_make (site : Site foreign base name dir disk) :
    Confined (Within (dir ++ [name])) foreign
      (change (Path.join base name) fun disk => disk.createDirectory (Path.join base name)) disk
      (fun result after => Puts (dir ++ [name]) .directory disk result after ∧
        (result.isOk = true → disk.tree.get? (dir ++ [name]) = none)) := by
  have creates := fun found (agree : AgreeOff foreign disk found) => site.createDirectory_eq agree
  cases free : disk.tree.get? (dir ++ [name]) with
  | some entry =>
      rw [free] at creates
      exact confined_change_of_error creates ⟨rfl, (absurd · Bool.false_ne_true)⟩
  | none =>
      rw [free] at creates
      refine confined_change_of_put creates (List.prefix_refl _)
        (site.apart _ (List.prefix_refl _)) ?_ ⟨rfl, fun _ => rfl⟩
      rw [List.dropLast_concat]
      exact site.clear

/-- A project is staged, whatever other jobs do. -/
theorem confined_copyInto (copying : Copying foreign initial base name dir project disk)
    (readable : Readable foreign source (dir ++ [name]) project disk) :
    Confined (Within (dir ++ [name])) foreign (copyInto source (Path.join base name) filter) disk
      (Stages filter initial project (dir ++ [name]) disk) := by
  refine Confined.andThen (confined_make copying.site) ?_ ?_
  · rintro error _ ⟨rfl, -⟩
    exact ⟨AgreeOff.refl _ _, (absurd · Bool.false_ne_true)⟩
  rintro _ _ ⟨rfl, free⟩
  have free := free rfl
  have made : AgreeOff (Within (dir ++ [name])) disk
      (disk.modifyTree (·.put (dir ++ [name]) .directory)) :=
    agreeOff_put disk (List.prefix_refl _)
  have readable' : Readable foreign source (dir ++ [name]) project
      (disk.modifyTree (·.put (dir ++ [name]) .directory)) :=
    ⟨readable.sound, readable.opens.of_agreeOff (made.mono fun _ => Or.inl)⟩
  refine confined_inspect (fun found agree =>
    (copying.of_agreeOff made).listing readable' agree) ?_
  have copies := @copies_copyListed foreign initial source base name dir project filter pathLimit []
    (initial.tree.contents project) _ (fun row listed => copying.pending readable free listed)
    (nodup_contents _ _)
  refine Confined.mono copies ?_
  rintro result later ⟨agree, filled⟩
  exact ⟨made.trans agree, fun isOk => copying.site.mirrors free (filled isOk)⟩

end Copying

/-- The paths that a copy starts from lead through nothing foreign. -/
structure ClearPaths (foreign : Location → Prop) (source destination : String) (disk : Disk) :
    Prop where
  fromSource : ∀ loc ∈ disk.route source, ¬ foreign loc
  toPlace : ∀ loc ∈ disk.route destination, ¬ foreign loc

/-- A path that is clear of what is foreign leads to the same entry. -/
theorem find_of_agreeOff {path : String} {found : Disk} (agree : AgreeOff foreign disk found)
    (clear : ∀ loc ∈ disk.route path, ¬ foreign loc) (approach : Approach) :
    found.find approach path = disk.find approach path := by
  rw [Disk.find, Disk.find, resolve_of_agreeOff agree clear]

theorem stat_of_agreeOff {path : String} {found : Disk} (agree : AgreeOff foreign disk found)
    (clear : ∀ loc ∈ disk.route path, ¬ foreign loc) : found.stat path = disk.stat path := by
  rw [Disk.stat, Disk.stat, find_of_agreeOff agree clear]

theorem exists_find_of_stat {path : String} {entry : Entry} (found : disk.stat path = .ok entry) :
    ∃ loc, disk.find .through path = .ok (loc, entry) := by
  rw [Disk.stat] at found
  cases result : disk.find .through path with
  | error fault =>
      rw [result] at found
      cases found
  | ok place =>
      rw [result] at found
      obtain ⟨loc, _⟩ := place
      exact ⟨loc, by rw [← Except.ok.inj found]⟩

namespace ClearPaths

/-- The check of the project changes nothing and does not see other jobs. -/
theorem confined_requireProject (clear : ClearPaths foreign source destination disk) :
    Confined own foreign (requireProject source) disk fun result after =>
      after = disk ∧ (result.isOk = true → disk.stat source = .ok .directory) := by
  refine confined_inspect (fun found agree => stat_of_agreeOff agree clear.fromSource) ?_
  cases disk.stat source with
  | error fault => exact ⟨rfl, (absurd · Bool.false_ne_true)⟩
  | ok entry =>
      cases entry with
      | directory => exact ⟨rfl, fun _ => rfl⟩
      | _ => exact ⟨rfl, (absurd · Bool.false_ne_true)⟩

/-- The check of the parent changes nothing and does not see other jobs. -/
theorem confined_requireParent (clear : ClearPaths foreign source destination disk) :
    Confined own foreign (requireParent destination) disk fun _ after => after = disk := by
  unfold requireParent
  cases parent : Path.parent? destination with
  | none => exact rfl
  | some parent' =>
      have sees : ∀ found, AgreeOff foreign disk found →
          (parent' != "" && !found.isDirectory parent') =
            (parent' != "" && !disk.isDirectory parent') := fun found agree => by
        have aside : ∀ loc ∈ disk.route parent', ¬ foreign loc :=
          fun loc member => clear.toPlace loc (route_parent_subset parent member)
        simp only [isDirectory, stat_of_agreeOff agree aside]
      refine confined_inspect sees ?_
      cases parent' != "" && !disk.isDirectory parent' <;> exact rfl

/-- The destination is cleared if anything is found there. -/
theorem confined_clearDestination (clear : ClearPaths foreign source destination disk)
    (removes : Removes own foreign disk destination) :
    Confined own foreign (clearDestination destination) disk fun _ after =>
      AgreeOff own disk after := by
  have sees : ∀ found, AgreeOff foreign disk found →
      found.pathExists destination = disk.pathExists destination := fun found agree => by
    rw [pathExists, pathExists, stat_of_agreeOff agree clear.toPlace]
  refine confined_inspect sees ?_
  cases disk.pathExists destination with
  | false => exact AgreeOff.refl own disk
  | true => exact confined_removeTree removes

/-- What is asked of the copy of a project follows from what is asked of the copy to a cleared place. -/
theorem confined_copyProject_of_copyInto {post : Outlook Nat}
    (clear : ClearPaths foreign source destination initial)
    (removes : ∀ disk, AgreeOff own initial disk → Removes own foreign disk destination)
    (fails : ∀ error after, AgreeOff own initial after → post (.error error) after)
    (copies : initial.stat source = .ok .directory → ∀ cleared, AgreeOff own initial cleared →
      Confined own foreign (copyInto source destination filter) cleared fun result after =>
        AgreeOff own cleared after ∧ (result.isOk = true → post result after)) :
    Confined own foreign (copyProject source destination filter) initial post := by
  refine Confined.andThen clear.confined_requireProject ?_ ?_
  · rintro error _ ⟨rfl, -⟩
    exact fails error _ (AgreeOff.refl _ _)
  rintro _ _ ⟨rfl, isDirectory⟩
  refine Confined.andThen clear.confined_requireParent ?_ ?_
  · rintro error _ rfl
    exact fails error _ (AgreeOff.refl _ _)
  rintro _ _ rfl
  refine Confined.andThen (clear.confined_clearDestination (removes _ (AgreeOff.refl _ _))) fails ?_
  intro _ cleared agree
  refine Confined.recover (copies (isDirectory rfl) cleared agree) ?_ ?_
  · rintro value after ⟨-, copied⟩
    exact copied rfl
  · rintro error partly ⟨agree', -⟩
    refine Confined.andThen (confined_discardTree (removes _ (agree.trans agree'))) ?_ ?_
    · intro error' after agree''
      exact fails error' after ((agree.trans agree').trans agree'')
    · intro _ after agree''
      exact fails error after ((agree.trans agree').trans agree'')

/-- Whatever is foreign, a project is copied the same, and only to its place. -/
theorem confined_copyProject
    (clear : ClearPaths foreign source (Path.join base name) initial)
    (site : Site foreign base name dir initial)
    (readable : ∀ project, initial.find .through source = .ok (project, .directory) →
      Readable foreign source (dir ++ [name]) project initial ∧
        ∀ loc, project <+: loc → ¬ dir ++ [name] <+: loc ∧ ¬ foreign loc) :
    Confined (Within (dir ++ [name])) foreign (copyProject source (Path.join base name) filter)
      initial fun result after => AgreeOff (Within (dir ++ [name])) initial after ∧
        (result.isOk = true → ∃ project, initial.find .through source = .ok (project, .directory) ∧
          Mirrors filter initial project (dir ++ [name]) after) := by
  refine clear.confined_copyProject_of_copyInto
    (fun disk agree => (site.of_agreeOff_within agree).removes) ?_ ?_
  · intro error after agree
    exact ⟨agree, (absurd · Bool.false_ne_true)⟩
  intro isDirectory cleared agree
  obtain ⟨project, found⟩ := exists_find_of_stat isDirectory
  obtain ⟨readable, apart⟩ := readable project found
  have copying : Copying foreign initial base name dir project cleared :=
    ⟨site.of_agreeOff_within agree, agree, fun loc inside => (apart loc inside).1,
      fun loc inside => (apart loc inside).2⟩
  have readable : Readable foreign source (dir ++ [name]) project cleared :=
    ⟨readable.sound, readable.opens.of_agreeOff (agree.mono fun _ => Or.inl)⟩
  refine Confined.mono (copying.confined_copyInto readable) ?_
  rintro result after ⟨agree', mirrors⟩
  exact ⟨agree', fun isOk => ⟨agree.trans agree', fun _ => ⟨project, found, mirrors isOk⟩⟩⟩

/-- Where the destination is refused whatever is foreign, nothing is copied and nothing changed. -/
theorem confined_copyProject_of_refused {fault : FileFault}
    (clear : ClearPaths foreign source destination initial)
    (refused : ∀ found, AgreeOff foreign initial found →
      found.resolve .itself destination = .error fault)
    (slashless : dropSlashes destination = destination) :
    Confined (fun _ => False) foreign (copyProject source destination filter) initial
      fun result after => result.isOk = false ∧ AgreeOff (fun _ => False) initial after := by
  refine clear.confined_copyProject_of_copyInto (fun disk same => ?_) (fun error after same => ?_) ?_
  · refine (@removes_of_error _ foreign disk destination fault fun found agree => ?_).1
    rw [Disk.find, refused found ((same.mono fun _ => False.elim).trans agree)]
    rfl
  · exact ⟨rfl, same⟩
  intro _ cleared same
  have creates : ∀ found, AgreeOff foreign cleared found →
      found.createDirectory destination = .error fault := by
    intro found agree
    rw [createDirectory_of_slashless slashless,
      refused found ((same.mono fun _ => False.elim).trans agree)]
  have create : Confined (fun _ => False) foreign
      (change destination fun disk => disk.createDirectory destination) cleared
      fun result after => result.isOk = false ∧ after = cleared :=
    confined_change_of_error creates ⟨rfl, rfl⟩
  refine Confined.andThen create ?_ ?_
  · rintro error _ ⟨-, rfl⟩
    exact ⟨AgreeOff.refl _ _, (absurd · Bool.false_ne_true)⟩
  · rintro _ _ ⟨isOk, -⟩
    cases isOk

end ClearPaths

end VersionMatrix
