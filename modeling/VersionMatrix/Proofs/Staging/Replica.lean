import VersionMatrix.Proofs.Staging.Completion
import VersionMatrix.Proofs.Staging.Leftovers

/-! The copy of a whole project to a place that can be cleared for it. It succeeds, and the project is then
mirrored there and nowhere else changed. -/
namespace VersionMatrix

open FileTree Disk DiskAction

variable {disk other cleared after after' : Disk} {source destination base name : String}
  {dir top project : Location} {filter : CopyFilter}

/-- A place for a copy that its path leads to, with or without slashes at its end, and that can be cleared:
nothing stands there, or a directory, or the path itself leads to a link that leads to something. -/
structure Replaceable (disk : Disk) (destination base name : String) (dir : Location) : Prop where
  text : dropSlashes destination = Path.join base name
  sound : Path.fault? destination = none
  parent : ∀ parent, Path.parent? destination = some parent →
    parent = "" ∨ disk.isDirectory parent = true
  site : Site (fun _ => False) base name dir disk
  stands : disk.tree.get? (dir ++ [name]) = none ∨
    disk.tree.get? (dir ++ [name]) = some .directory ∨
    destination = Path.join base name ∧
      (∃ target, disk.tree.get? (dir ++ [name]) = some (.link target)) ∧
      disk.pathExists destination = true

/-- A project neither inside nor around a place. Its path may lead through a directory in that place, but
not through a link there and not through what is below. -/
structure Detached (disk : Disk) (source : String) (project top : Location) : Prop where
  found : disk.find .through source = .ok (project, .directory)
  outside : ¬ top <+: project
  around : ¬ project <+: top
  aside : ∀ loc ∈ disk.route source, top <+: loc →
    loc = top ∧ disk.tree.get? top = some .directory

/-- A project that its path leads to once a directory stands in a place, whatever that holds. -/
structure Reached (disk : Disk) (source : String) (project top : Location) : Prop where
  found : disk.find .through source = .ok (project, .directory)
  aside : ∀ loc ∈ disk.route source, top <+: loc →
    loc = top ∧ disk.tree.get? top = some .directory

namespace Reached

variable (reached : Reached disk source project top)

include reached

theorem sound : Path.fault? source = none :=
  (opens_of_find reached.found fun _ _ => id).1

theorem origin (agree : AgreeOff (Within top) disk after)
    (made : after.tree.get? top = some .directory) : Target source [] project after := by
  have clear : ∀ loc ∈ disk.route source,
      ¬ (top <+: loc ∧ ¬ (loc = top ∧ disk.tree.get? top = some .directory)) :=
    fun loc member veiled => veiled.2 (reached.aside loc member veiled.1)
  have opens := (opens_of_find reached.found clear).2
  refine ⟨by simp, opens.mono agree.workingDirectory fun loc entry shown => ⟨id, ?_⟩⟩
  by_cases within : top <+: loc
  · obtain ⟨rfl, stands⟩ := Classical.not_not.1 fun veiled => shown.1 ⟨within, veiled⟩
    rw [made, ← stands, shown.2]
  · rw [← agree.get? loc within, shown.2]

theorem listing_eq (agree : AgreeOff (Within top) disk after)
    (made : after.tree.get? top = some .directory) :
    after.listing source = .ok (after.tree.contents project) := by
  have opens : after.Opens _ source project := (reached.origin agree made).opens
  exact listing_of_find (find_of_opens opens reached.sound)

/-- The check of the project succeeds for a source that is reached. -/
theorem run_requireProject_ok : (requireProject source).run disk = (.ok (), disk) := by
  have found : disk.stat source = .ok .directory := by
    rw [stat, reached.found]
    rfl
  rw [requireProject, run_inspect_bind, found]
  rfl

theorem of_agreeOff (same : AgreeOff (fun _ => False) disk other) :
    Reached other source project top where
  found := (find_of_agreeOff same (fun _ _ => id) _).trans reached.found
  aside loc member within := by
    rw [route_of_agreeOff same fun _ _ => id] at member
    rw [← same.get? top id]
    exact reached.aside loc member within

end Reached

namespace Detached

variable (detached : Detached disk source project top)

include detached

/-- A project that does not enclose its destination is apart from it. -/
theorem apart (loc : Location) (inside : project <+: loc) : ¬ top <+: loc := fun within =>
  (List.prefix_or_prefix_of_prefix inside within).elim detached.around detached.outside

theorem reached : Reached disk source project top := ⟨detached.found, detached.aside⟩

theorem spares (filter : CopyFilter) : Spares filter project top :=
  fun _ _ => detached.apart _ (List.prefix_append ..)

end Detached

/-- What is copied depends on the tree alone. -/
theorem copied_of_agreeOff (same : AgreeOff (fun _ => False) disk other) (filter : CopyFilter)
    (project rel : Location) :
    copied filter other.tree project rel = copied filter disk.tree project rel := by
  rw [copied, copied, same.get? _ id]

/-- What is to be copied does not depend on what stands in the place of the copy. -/
theorem Spares.copied_eq (spares : Spares filter project top)
    (agree : AgreeOff (Within top) disk after) (rel : Location) :
    copied filter after.tree project rel = copied filter disk.tree project rel := by
  unfold copied
  split
  next included => exact (agree.get? _ (spares rel included)).symm
  next => rfl

theorem Copyable.congr {tree tree' : FileTree}
    (copyable : Copyable filter tree source destination project)
    (same : ∀ rel, copied filter tree' project rel = copied filter tree project rel) :
    Copyable filter tree' source destination project where
  plain rel := by
    rw [same]
    exact copyable.plain rel
  names rel item entry stands := by
    rw [same] at stands
    exact copyable.names rel item entry stands
  paths rel entry proper stands := by
    rw [same] at stands
    exact copyable.paths rel entry proper stands

theorem Mirrors.congr (mirrors : Mirrors filter other project top after)
    (same : ∀ rel, copied filter other.tree project rel = copied filter disk.tree project rel) :
    Mirrors filter disk project top after :=
  ⟨mirrors.made, fun rel proper => (mirrors.holds rel proper).trans (same rel)⟩

def includedFiles (filter : CopyFilter) (tree : FileTree) (project : Location) : List Location :=
  (tree.filesBelow project).filter fun rel => filter.includes (Path.joinAll "" rel)

/-- A mirrored project has the files that the filter includes. -/
theorem Mirrors.length_filesBelow (mirrors : Mirrors filter disk project top after)
    (found : disk.tree.get? project = some .directory) :
    (after.tree.filesBelow top).length = (includedFiles filter disk.tree project).length := by
  refine List.Perm.length_eq ((List.perm_ext_iff_of_nodup (nodup_filesBelow _ _)
    ((nodup_filesBelow _ _).filter _)).2 fun rel => ?_)
  rw [List.mem_filter, mem_filesBelow, mem_filesBelow]
  by_cases atTop : rel = []
  · subst atTop
    rw [List.append_nil, List.append_nil, mirrors.made, found]
    simp
  · rw [mirrors.holds rel atTop, copied]
    split
    next included => simp [included]
    next excluded => simp [excluded]

/-- Disks are alike that are but for one place and mirror one project there. -/
theorem Mirrors.agreeOff (mirrors : Mirrors filter disk project top after)
    (mirrors' : Mirrors filter other project top after')
    (same : AgreeOff (fun _ => False) disk other) (agree : AgreeOff (Within top) disk after)
    (agree' : AgreeOff (Within top) other after') : AgreeOff (fun _ => False) after after' where
  workingDirectory :=
    (agree.symm.workingDirectory.trans same.workingDirectory).trans agree'.workingDirectory
  get? loc _ := by
    by_cases within : top <+: loc
    · obtain ⟨rel, rfl⟩ := within
      by_cases atTop : rel = []
      · rw [atTop, List.append_nil, mirrors.made, mirrors'.made]
      · rw [mirrors.holds rel atTop, mirrors'.holds rel atTop, copied, copied, same.get? _ id]
    · rw [← agree.get? loc within, ← agree'.get? loc within, same.get? loc id]

/-- Where nothing stands a directory can be made. -/
theorem Free.createDirectory_eq (free : Free disk destination base name dir) :
    disk.createDirectory destination = .ok (disk.withDirectory (dir ++ [name])) := by
  obtain ⟨-, -, short⟩ := Path.fault?_eq_none_iff.1 free.sound
  have vacant : disk.resolve .itself (Path.join base name) = .ok (.vacant dir name false) := by
    rw [resolve_join free.site.opens free.site.proper (Or.inl rfl), free.site.sound,
      FileTree.destination, free.absent]
  rw [createDirectory, if_neg (by simp [Nat.not_le.2 short]), free.text, vacant]
  rfl

/-- What is asked of a copy that is to succeed in its place. -/
def Mirrored (filter : CopyFilter) (initial : Disk) (project top : Location) : Outlook Nat :=
  fun result after => ∃ total, result = .ok total ∧
    Mirrors filter initial project top after ∧ AgreeOff (Within top) initial after ∧
    total = (after.tree.filesBelow top).length

section

variable (reached : Reached disk source project (dir ++ [name]))
  (spares : Spares filter project (dir ++ [name]))
  (copyable : Copyable filter disk.tree source destination project)

include reached spares copyable

/-- To a place where nothing stands a project is copied whole. -/
theorem mirrored_copyInto (agree : AgreeOff (Within (dir ++ [name])) disk cleared)
    (free : Free cleared destination base name dir) :
    (copyInto source destination filter).Ends cleared
      (Mirrored filter disk project (dir ++ [name])) := by
  have started : Lodged destination base name dir [] cleared (cleared.withDirectory (dir ++ [name])) :=
    ⟨free, adds_self (by simp)⟩
  have agree := agree.trans started.agree
  have origin := reached.origin agree started.found
  have same (rel : Location) := spares.copied_eq agree rel
  refine (ends_change_of_ok free.createDirectory_eq).andThen_of_ok ?_
  rintro _ _ rfl
  refine ends_inspect ?_
  rw [reached.listing_eq agree started.found]
  -- What is copied is what the disk holds by now: a listing of the project may show the new directory.
  have upcoming : ∀ row ∈ (cleared.withDirectory (dir ++ [name])).tree.contents project,
      Upcoming filter (cleared.withDirectory (dir ++ [name])) source destination (dir ++ [name]) project
        [] row.1 row.2 (cleared.withDirectory (dir ++ [name])) := by
    intro row listed
    refine ⟨free.site.vacancy free.absent listed, ?_, ?_, AgreeOff.refl _ _, spares⟩
    · rw [List.append_nil]
      exact origin
    · rw [List.append_nil]
      exact started.target
  obtain ⟨total, ended, replicated⟩ := concludes_copyListed (copyable.congr same) reached.sound
    free.sound pathLimit [] _ _ (by decide) (by simp) upcoming (nodup_contents _ _)
  have mirrors := (free.site.mirrors free.absent replicated.filled).congr same
  refine ⟨total, ended, mirrors, agree.trans replicated.filled.within, ?_⟩
  have none : ((cleared.withDirectory (dir ++ [name])).tree.filesBelow (dir ++ [name])).length = 0 := by
    rw [withDirectory, modifyTree, FileTree.length_filesBelow_put (free.site.hasRoom free.absent)
      free.absent (List.prefix_refl _), filesBelow_of_absent free.absent]
    rfl
  have counted := replicated.counted
  rw [none, Nat.add_zero, Nat.zero_add] at counted
  exact counted

end

namespace Replaceable

variable (replaceable : Replaceable disk destination base name dir)

include replaceable

/-- What stands at a place that can be cleared is cleared away. -/
theorem exists_cleared :
    ∃ cleared, (clearDestination destination).run disk = (.ok (), cleared) ∧
      AgreeOff (Within (dir ++ [name])) disk cleared ∧
      Free cleared destination base name dir := by
  obtain ⟨text, sound, -, site, stands⟩ := replaceable
  have short := size_le_of_joinFault? site.sound
  have free : ∀ cleared, AgreeOff (Within (dir ++ [name])) disk cleared →
      cleared.tree.get? (dir ++ [name]) = none → Free cleared destination base name dir :=
    fun cleared agree absent => ⟨text, sound, site.of_agreeOff_within agree, absent⟩
  obtain ⟨vacant, stood⟩ := resolve_of_dropSlashes text sound site.proper short site.opens
    (show Approach.through ≠ .creating by decide)
  rcases stands with absent | found | ⟨rfl, linked, leads⟩
  · obtain ⟨asDirectory, resolved⟩ := vacant absent
    have nothing : disk.pathExists destination = false := by
      rw [pathExists, stat, find, resolved]
      rfl
    refine ⟨disk, ?_, AgreeOff.refl _ disk, free disk (AgreeOff.refl _ disk) absent⟩
    rw [clearDestination, run_inspect_bind, nothing]
    rfl
  · have something : disk.pathExists destination = true := by
      rw [pathExists, stat, find, stood found]
      rfl
    have removes := removeTree_of_dropSlashes text sound site.proper short site.opens found
      (Option.or_eq_none_iff.1 site.sound).1
    obtain ⟨isOk, gone⟩ := site.removeTree_ok (Or.inl found)
    have agree := site.agreeOff_removeTree
    rw [← removes] at isOk gone agree
    refine ⟨(disk.removeTree destination).2, ?_, agree, free _ agree gone⟩
    rw [clearDestination, run_inspect_bind, something]
    exact Prod.ext (congrArg (answerAt destination) isOk) rfl
  · have way : disk.MakesWay (Path.join base name) := fun top placed => by
      obtain rfl := Option.some.inj (site.place?.symm.trans placed)
      exact Or.inr (Or.inr ⟨linked, leads⟩)
    obtain ⟨cleared, clears, agree, absent⟩ := site.exists_run_clearDestination way
    exact ⟨cleared, clears, agree, free cleared agree absent⟩

/-- The check of the parent succeeds for a destination that can be replaced. -/
theorem run_requireParent_ok : (requireParent destination).run disk = (.ok (), disk) := by
  rw [requireParent]
  cases named : Path.parent? destination with
  | none => rfl
  | some parent =>
      have passes : (parent != "" && !disk.isDirectory parent) = false := by
        rcases replaceable.parent parent named with rfl | isDirectory
        · rfl
        · rw [isDirectory, Bool.not_true, Bool.and_false]
      simp only [run_inspect_bind, passes]
      rfl

/-- The path leads to whatever directory has been made in its place. -/
theorem find_eq (agree : AgreeOff (Within (dir ++ [name])) disk after)
    (made : after.tree.get? (dir ++ [name]) = some .directory) :
    after.find .through destination = .ok (dir ++ [name], .directory) := by
  have site := replaceable.site.of_agreeOff_within agree
  have short := size_le_of_joinFault? site.sound
  have opens : after.Opens (fun _ => False) (Path.join base name) (dir ++ [name]) :=
    opens_join site.opens.bare site.proper short ⟨id, made⟩
  rw [← replaceable.text] at opens
  exact find_of_opens (opens_dropSlashes.1 opens) replaceable.sound

theorem of_agreeOff (same : AgreeOff (fun _ => False) disk other) :
    Replaceable other destination base name dir := by
  have sees : ∀ path, other.stat path = disk.stat path :=
    fun path => stat_of_agreeOff same fun _ _ => id
  obtain ⟨text, sound, parent, site, stands⟩ := replaceable
  refine ⟨text, sound, fun parent' named => ?_, site.of_agreeOff_foreign same, ?_⟩
  · rw [isDirectory, sees]
    exact parent parent' named
  · rw [← same.get? _ id, pathExists, sees]
    exact stands

end Replaceable

/-- A copy to a place that can be cleared comes to what it comes to once that has been cleared. -/
theorem Replaceable.ends_copyProject (replaceable : Replaceable disk destination base name dir)
    (reached : Reached disk source project (dir ++ [name])) {post : Outlook Nat}
    (copies : ∀ cleared, AgreeOff (Within (dir ++ [name])) disk cleared →
      Free cleared destination base name dir →
      (tryCatch (copyInto source destination filter) fun error => do
        discardTree destination
        throw error).Ends cleared post) :
    (copyProject source destination filter).Ends disk post := by
  obtain ⟨cleared, clears, agree, free⟩ := replaceable.exists_cleared
  rw [DiskAction.Ends, run_copyProject, run_copyChecks, reached.run_requireProject_ok]
  simp only [replaceable.run_requireParent_ok, run_bind (clearDestination destination), clears]
  exact copies cleared agree free

/-- A copyable project is mirrored at its destination. -/
theorem mirrored_copyProject (replaceable : Replaceable disk destination base name dir)
    (reached : Reached disk source project (dir ++ [name]))
    (spares : Spares filter project (dir ++ [name]))
    (copyable : Copyable filter disk.tree source destination project) :
    (copyProject source destination filter).Ends disk
      (Mirrored filter disk project (dir ++ [name])) := by
  refine replaceable.ends_copyProject reached fun cleared agree free => ?_
  refine (mirrored_copyInto reached spares copyable agree free).recover (fun _ _ => id) ?_
  rintro error after ⟨total, ⟨⟩, -⟩

/-- The copy of a project of which nothing that is included stands in the place of the copy. -/
theorem exists_mirrors_of_spares (replaceable : Replaceable disk destination base name dir)
    (reached : Reached disk source project (dir ++ [name]))
    (spares : Spares filter project (dir ++ [name]))
    (copyable : Copyable filter disk.tree source destination project) :
    ∃ count after, (copyProject source destination filter).run disk = (.ok count, after) ∧
      after.find .through destination = .ok (dir ++ [name], .directory) ∧
      Mirrors filter disk project (dir ++ [name]) after ∧
      AgreeOff (Within (dir ++ [name])) disk after ∧
      count = (includedFiles filter disk.tree project).length ∧
      ∀ other, AgreeOff (fun _ => False) disk other →
        ∃ after', (copyProject source destination filter).run other = (.ok count, after') ∧
          AgreeOff (fun _ => False) after after' := by
  obtain ⟨count, isOk, mirrors, agree, counted⟩ :=
    mirrored_copyProject replaceable reached spares copyable
  have files := counted.trans (mirrors.length_filesBelow (get?_of_find reached.found))
  refine ⟨count, _, Prod.ext isOk rfl, replaceable.find_eq agree mirrors.made, mirrors, agree, files,
    fun other same => ?_⟩
  obtain ⟨count', isOk', mirrors', agree', counted'⟩ :=
    mirrored_copyProject (replaceable.of_agreeOff same) (reached.of_agreeOff same) spares
      (copyable.congr (copied_of_agreeOff same filter project))
  have mirrored := mirrors.agreeOff mirrors' same agree agree'
  have equal : count' = count := by
    rw [counted, counted']
    exact length_filesBelow_congr fun rel => (mirrored.get? _ id).symm
  exact ⟨_, Prod.ext (equal ▸ isOk') rfl, mirrored⟩

/-- A project that can be copied is copied to a place that can be cleared. Afterwards the path leads to a
directory that holds of the project the entries whose paths the filter includes, each as it is there, and
nothing else. Nothing else on the disk has changed, the files that were copied are counted, and in whatever
order the directories on the disk keep their entries the copy comes to the same. -/
theorem copyProject_replicates (filter : CopyFilter)
    (replaceable : Replaceable disk destination base name dir)
    (detached : Detached disk source project (dir ++ [name]))
    (copyable : Copyable filter disk.tree source destination project) :
    ∃ count after, (copyProject source destination filter).run disk = (.ok count, after) ∧
      after.find .through destination = .ok (dir ++ [name], .directory) ∧
      (∀ rel, rel ≠ [] → after.tree.get? (dir ++ [name] ++ rel) =
        if filter.includes (Path.joinAll "" rel) then disk.tree.get? (project ++ rel) else none) ∧
      (∀ rel, after.tree.get? (project ++ rel) = disk.tree.get? (project ++ rel)) ∧
      AgreeOff (Within (dir ++ [name])) disk after ∧
      count = (includedFiles filter disk.tree project).length ∧
      ∀ other, AgreeOff (fun _ => False) disk other →
        ∃ after', (copyProject source destination filter).run other = (.ok count, after') ∧
          AgreeOff (fun _ => False) after after' := by
  obtain ⟨count, after, ran, leads, mirrors, agree, files, elsewhere⟩ :=
    exists_mirrors_of_spares replaceable detached.reached (detached.spares filter) copyable
  exact ⟨count, after, ran, leads, mirrors.holds,
    fun rel => (agree.get? _ (detached.apart _ (List.prefix_append ..))).symm, agree, files, elsewhere⟩

/-- Whether a project can be copied is seen from the entries that the disk keeps. -/
theorem copyable_of_entries {tree : FileTree} (filter : CopyFilter) (proper : project ≠ [])
    (small : ∀ row ∈ tree.entries, project <+: row.1 →
      row.2 ≠ .socket ∧ (∀ item ∈ row.1, item.utf8ByteSize ≤ nameLimit) ∧
        (Path.join source (Path.joinAll "" (row.1.drop project.length))).utf8ByteSize < pathLimit ∧
        (Path.join destination (Path.joinAll "" (row.1.drop project.length))).utf8ByteSize < pathLimit) :
    Copyable filter tree source destination project := by
  have kept : ∀ rel entry, copied filter tree project rel = some entry →
      entry ≠ .socket ∧ (∀ item ∈ project ++ rel, item.utf8ByteSize ≤ nameLimit) ∧
        (Path.join source (Path.joinAll "" rel)).utf8ByteSize < pathLimit ∧
        (Path.join destination (Path.joinAll "" rel)).utf8ByteSize < pathLimit := by
    intro rel entry stands
    rw [copied] at stands
    split at stands
    next =>
        have member := (get?_eq_some_iff (by simp [proper])).1 stands
        have row := small _ member (List.prefix_append ..)
        rwa [List.drop_left] at row
    next => cases stands
  refine ⟨fun rel stands => (kept rel _ stands).1 rfl, fun rel item entry stands => ?_,
    fun rel entry _ stands => (kept rel entry stands).2.2⟩
  exact (kept _ entry stands).2.1 item (by simp)

/-- A project with an executable, a link and files in a directory of a directory, and an older copy. -/
def layeredDisk : Disk where
  tree :=
    { entries :=
        [(["proj"], .directory), (["proj", "run"], .file [65] true), (["proj", "src"], .directory),
          (["proj", "src", "gen"], .directory), (["proj", "src", "gen", "b"], .file [66] false),
          (["proj", "src", "l"], .link "../run"), (["old"], .directory),
          (["old", "z"], .file [90] false)] }

/-- An excluded fragment may go over a slash, and a path to the project may lead through the older copy, of
which nothing is left. -/
theorem copyProject_replicates_layered :
    Replaceable layeredDisk "/old/" "/" "old" [] ∧
      Detached layeredDisk "/old/../proj" ["proj"] ["old"] ∧
      Copyable { excluded := ["src/gen"] } layeredDisk.tree "/old/../proj" "/old/" ["proj"] ∧
      ∃ after, (copyProject "/old/../proj" "/old/" { excluded := ["src/gen"] }).run layeredDisk =
          (.ok 1, after) ∧
        after.tree.get? ["old", "run"] = some (.file [65] true) ∧
        after.tree.get? ["old", "src", "l"] = some (.link "../run") ∧
        after.tree.get? ["old", "src", "gen", "b"] = none ∧
        after.tree.get? ["old", "z"] = none := by
  have opens := (@opens_of_find _ (fun loc => ["old"] <+: loc ∨ False) _ _ _
    (by decide +kernel : layeredDisk.find .through "/" = .ok ([], .directory)) (by decide +kernel)).2
  have replaceable : Replaceable layeredDisk "/old/" "/" "old" [] := by
    refine ⟨by decide +kernel, by decide +kernel, fun parent named => ?_,
      ⟨by decide, by decide +kernel, fun _ _ => id, id, opens⟩, Or.inr (Or.inl rfl)⟩
    obtain rfl := Option.some.inj (named.symm.trans (by decide +kernel : _ = some "/"))
    decide +kernel
  have detached : Detached layeredDisk "/old/../proj" ["proj"] ["old"] :=
    ⟨by decide +kernel, by decide, by decide, by decide +kernel⟩
  have copyable : Copyable { excluded := ["src/gen"] } layeredDisk.tree "/old/../proj" "/old/" ["proj"] :=
    copyable_of_entries _ (by simp) (by decide +kernel)
  refine ⟨replaceable, detached, copyable, ?_⟩
  obtain ⟨count, after, ran, -, holds, -, -, files, -⟩ :=
    copyProject_replicates { excluded := ["src/gen"] } replaceable detached copyable
  obtain rfl : count = 1 := files.trans (by decide +kernel)
  refine ⟨after, ran, ?_, ?_, ?_, ?_⟩
  · exact (holds ["run"] (by simp)).trans (by decide +kernel)
  · exact (holds ["src", "l"] (by simp)).trans (by decide +kernel)
  · exact (holds ["src", "gen", "b"] (by simp)).trans (by decide +kernel)
  · exact (holds ["z"] (by simp)).trans (by decide +kernel)

/-- Two projects of one name, one of them next to the directory that a link leads to. -/
def crossedDisk : Disk where
  tree :=
    { entries :=
        [(["q"], .directory), (["q", "r"], .directory), (["q", "proj"], .directory),
          (["q", "proj", "a"], .file [65] false), (["d"], .link "q/r"), (["proj"], .directory),
          (["proj", "b"], .file [66] false), (["e"], .directory), (["e", "inner"], .directory),
          (["l"], .link "e")] }

/-- A copy to a place that can be cleared comes to another project or to nothing where a path leads through
what is cleared away: the path of the project through a link there or through what is below, or the path of
the place through the place itself. It comes to nothing too where the path of the place ends in a point, or in
a slash after a link. -/
theorem exists_copyProject_replicates_not :
    crossedDisk.find .through "/d/../proj" = .ok (["q", "proj"], .directory) ∧
      crossedDisk.tree.get? ["q", "proj", "a"] = some (.file [65] false) ∧
      crossedDisk.find .itself "/d" = .ok (["d"], .link "q/r") ∧
      crossedDisk.pathExists "/d" = true ∧
      ((copyProject "/d/../proj" "/d" {}).run crossedDisk).1.isOk = true ∧
      ((copyProject "/d/../proj" "/d" {}).run crossedDisk).2.tree.get? ["d", "a"] = none ∧
      crossedDisk.find .through "/e/inner/../../proj" = .ok (["proj"], .directory) ∧
      crossedDisk.find .itself "/e" = .ok (["e"], .directory) ∧
      ((copyProject "/e/inner/../../proj" "/e" {}).run crossedDisk).1.isOk = false ∧
      crossedDisk.find .through "/proj" = .ok (["proj"], .directory) ∧
      crossedDisk.isDirectory "/e/.." = true ∧
      crossedDisk.find .itself "/e/../e" = .ok (["e"], .directory) ∧
      ((copyProject "/proj" "/e/../e" {}).run crossedDisk).1.isOk = false ∧
      crossedDisk.find .itself "/e/." = .ok (["e"], .directory) ∧
      ((copyProject "/proj" "/e/." {}).run crossedDisk).1.isOk = false ∧
      crossedDisk.find .itself "/l" = .ok (["l"], .link "e") ∧
      crossedDisk.pathExists "/l/" = true ∧
      ((copyProject "/proj" "/l/" {}).run crossedDisk).1.isOk = false := by
  decide +kernel

end VersionMatrix
