import VersionMatrix.Proofs.Staging.Replica
import VersionMatrix.Proofs.Staging.Success

/-! The copy of a project to a place in the project itself. It meets the directory that it is made in, unless
the filter excludes that. -/
namespace VersionMatrix

open FileTree Disk DiskAction

variable {disk cleared after : Disk} {source destination base name : String}
  {dir top project way : Location} {filter : CopyFilter}

/-- A filter that excludes a place excludes everything in it. -/
theorem not_within_of_includes {rel : Location}
    (excluded : filter.includes (Path.joinAll "" way) = false)
    (included : filter.includes (Path.joinAll "" rel) = true) : ¬ way <+: rel := by
  rintro ⟨below, rfl⟩
  rw [filter.includes_of_append included] at excluded
  cases excluded

/-- A place in a project, at a relative location. The path to the project may lead through a directory in
that place, but not through what is below. -/
structure Enclosed (disk : Disk) (source : String) (project way top : Location) : Prop where
  found : disk.find .through source = .ok (project, .directory)
  proper : way ≠ []
  inside : top = project ++ way
  aside : ∀ loc ∈ disk.route source, top <+: loc →
    loc = top ∧ disk.tree.get? top = some .directory

namespace Enclosed

variable (enclosed : Enclosed disk source project way top)

include enclosed

theorem reached : Reached disk source project top := ⟨enclosed.found, enclosed.aside⟩

theorem spares (excluded : filter.includes (Path.joinAll "" way) = false) :
    Spares filter project top := by
  intro rel included within
  rw [enclosed.inside] at within
  exact not_within_of_includes excluded included ((List.prefix_append_right_inj _).1 within)

end Enclosed

/-- A disk with the directory of a copy from which the whole project has been copied, be the directory in
the project or not. -/
structure Sourced (filter : CopyFilter) (source destination : String) (project top : Location)
    (disk start after : Disk) : Prop where
  agree : AgreeOff (Within top) disk start
  made : start.tree.get? top = some .directory
  meets : ∀ rel entry, rel ≠ [] → copied filter start.tree project rel = some entry →
    Counterpart source destination rel (top ++ rel) entry after

theorem sourced_copyInto (reached : Reached disk source project (dir ++ [name]))
    (agree : AgreeOff (Within (dir ++ [name])) disk cleared)
    (free : Free cleared destination base name dir) :
    (copyInto source destination filter).Ends cleared fun result after => result.isOk = true →
      Sourced filter source destination project (dir ++ [name]) disk
        (cleared.withDirectory (dir ++ [name])) after := by
  have started : Lodged destination base name dir [] cleared (cleared.withDirectory (dir ++ [name])) :=
    ⟨free, adds_self (by simp)⟩
  have agree := agree.trans started.agree
  have vacant : Vacant cleared (dir ++ [name]) := fun _ => get?_eq_none_of_absent free.absent
  have listing := reached.listing_eq agree started.found
  refine (ends_change_of_ok free.createDirectory_eq).andThen_of_ok ?_
  rintro _ _ rfl
  refine ends_inspect ?_
  rw [listing]
  refine fun isOk => ⟨agree, started.found, fun rel entry proper stands => ?_⟩
  obtain ⟨item, rest, rfl⟩ := List.exists_cons_of_ne_nil proper
  rw [copied] at stands
  split at stands
  next included =>
      obtain ⟨first, listed⟩ := exists_get?_of_prefix stands
        ((List.prefix_append_right_inj project).2 (List.prefix_append [item] rest))
      exact meets_copyListed source destination filter pathLimit [] project (dir ++ [name]) _ _ item first
        rest entry (reached.origin agree started.found) started.target (awaited_of_listing vacant listing)
        (mem_contents.2 listed) included listed stands isOk
  next => cases stands

/-- A copy that succeeds has copied the whole project. -/
theorem exists_sourced (replaceable : Replaceable disk destination base name dir)
    (reached : Reached disk source project (dir ++ [name])) {count : Nat}
    (ran : (copyProject source destination filter).run disk = (.ok count, after)) :
    ∃ start, Sourced filter source destination project (dir ++ [name]) disk start after := by
  have ends : (copyProject source destination filter).Ends disk fun result after =>
      result.isOk = true →
        ∃ start, Sourced filter source destination project (dir ++ [name]) disk start after := by
    refine replaceable.ends_copyProject reached fun cleared agree free => ?_
    exact (sourced_copyInto reached agree free).recover (fun _ _ sourced isOk => ⟨_, sourced isOk⟩)
      fun _ _ _ => nofun
  rw [DiskAction.Ends, ran] at ends
  exact ends rfl

namespace Sourced

variable {start : Disk}
  (sourced : Sourced filter source destination project (dir ++ [name]) disk start after)

include sourced

/-- A place that the filter includes has been copied with the rest of the project. -/
theorem get?_self (enclosed : Enclosed disk source project way (dir ++ [name]))
    (included : filter.includes (Path.joinAll "" way) = true) :
    after.tree.get? (dir ++ [name] ++ way) = some .directory := by
  refine (sourced.meets way .directory enclosed.proper ?_).stands
  rw [copied, if_pos included, ← enclosed.inside]
  exact sourced.made

/-- A project that has been copied as a whole was copyable, if the filter excludes the place of the copy. -/
theorem copyable (enclosed : Enclosed disk source project way (dir ++ [name]))
    (excluded : filter.includes (Path.joinAll "" way) = false) :
    Copyable filter disk.tree source destination project := by
  have same := (enclosed.spares excluded).copied_eq sourced.agree
  have meets (rel : Location) (entry : Entry) (proper : rel ≠ [])
      (stands : copied filter disk.tree project rel = some entry) :
      Counterpart source destination rel (dir ++ [name] ++ rel) entry after :=
    sourced.meets rel entry proper ((same rel).trans stands)
  refine ⟨fun rel socket => ?_, fun rel item entry stands => ?_, fun rel entry proper stands =>
    (meets rel entry proper stands).fits⟩
  · by_cases atTop : rel = []
    · subst atTop
      rw [copied, List.append_nil, get?_of_find enclosed.found] at socket
      split at socket <;> cases socket
    · exact (meets rel .socket atTop socket).plain rfl
  · exact (meets (rel ++ [item]) entry (by simp) stands).short rel item rfl

end Sourced

/-- A copy to a place in the project holds what the filter includes of the project outside of the place if
and only if the filter excludes the place and what it includes can be copied. Then nothing else on the disk
has changed, and the files that were copied are counted. A copy to a place that the filter includes fails, or
holds a copy of its own directory. -/
theorem copyProject_enclosed (filter : CopyFilter)
    (replaceable : Replaceable disk destination base name dir)
    (enclosed : Enclosed disk source project way (dir ++ [name])) :
    (filter.includes (Path.joinAll "" way) = false ∧
        Copyable filter disk.tree source destination project ↔
      ∃ count after, (copyProject source destination filter).run disk = (.ok count, after) ∧
        after.find .through destination = .ok (dir ++ [name], .directory) ∧
        ∀ rel, rel ≠ [] → after.tree.get? (dir ++ [name] ++ rel) =
          if filter.includes (Path.joinAll "" rel) ∧ ¬ way <+: rel then disk.tree.get? (project ++ rel)
          else none) ∧
    ∀ count after, (copyProject source destination filter).run disk = (.ok count, after) →
      if filter.includes (Path.joinAll "" way) then
        after.tree.get? (dir ++ [name] ++ way) = some .directory
      else
        AgreeOff (Within (dir ++ [name])) disk after ∧
          count = (includedFiles filter disk.tree project).length := by
  have apart (excluded : filter.includes (Path.joinAll "" way) = false) (rel : Location) :
      filter.includes (Path.joinAll "" rel) = true ∧ ¬ way <+: rel ↔
        filter.includes (Path.joinAll "" rel) = true :=
    and_iff_left_of_imp (not_within_of_includes excluded)
  have met {count : Nat} {after : Disk}
      (ran : (copyProject source destination filter).run disk = (.ok count, after))
      (included : filter.includes (Path.joinAll "" way) = true) :
      after.tree.get? (dir ++ [name] ++ way) = some .directory :=
    (exists_sourced replaceable enclosed.reached ran).elim fun _ sourced =>
      sourced.get?_self enclosed included
  have mirrors (excluded : filter.includes (Path.joinAll "" way) = false)
      (copyable : Copyable filter disk.tree source destination project) :=
    exists_mirrors_of_spares replaceable enclosed.reached (enclosed.spares excluded) copyable
  refine ⟨⟨fun ⟨excluded, copyable⟩ => ?_, ?_⟩, fun count after ran => ?_⟩
  · obtain ⟨count, after, ran, leads, mirrors, -, -, -⟩ := mirrors excluded copyable
    refine ⟨count, after, ran, leads, fun rel proper => ?_⟩
    rw [mirrors.holds rel proper, copied]
    exact if_congr (apart excluded rel).symm rfl rfl
  · rintro ⟨count, after, ran, -, holds⟩
    have excluded : filter.includes (Path.joinAll "" way) = false := by
      by_contra included
      have held := holds way enclosed.proper
      rw [met ran (by simpa using included), if_neg (by simp)] at held
      cases held
    obtain ⟨start, sourced⟩ := exists_sourced replaceable enclosed.reached ran
    exact ⟨excluded, sourced.copyable enclosed excluded⟩
  · split
    next included => exact met ran included
    next excluded =>
        have excluded : filter.includes (Path.joinAll "" way) = false := by simpa using excluded
        obtain ⟨start, sourced⟩ := exists_sourced replaceable enclosed.reached ran
        obtain ⟨count', after', ran', -, -, agree, files, -⟩ :=
          mirrors excluded (sourced.copyable enclosed excluded)
        obtain ⟨same, rfl⟩ := Prod.mk.inj (ran.symm.trans ran')
        obtain rfl := Except.ok.inj same
        exact ⟨agree, files⟩

/-- A project with an executable, a link and a file, and in an excluded directory an older copy. -/
def hostDisk : Disk where
  tree :=
    { entries :=
        [(["proj"], .directory), (["proj", "a"], .file [65] false), (["proj", "src"], .directory),
          (["proj", "src", "l"], .link "../a"), (["proj", "src", "run"], .file [66] true),
          (["proj", ".git"], .directory), (["proj", ".git", "out"], .directory),
          (["proj", ".git", "out", "in"], .directory),
          (["proj", ".git", "out", "z"], .file [90] false)] }

/-- The path to a project may lead through the older copy that is replaced. -/
theorem copyProject_enclosed_host :
    Replaceable hostDisk "/proj/.git/out/" "/proj/.git" "out" ["proj", ".git"] ∧
      Enclosed hostDisk "/proj/.git/out/../.." ["proj"] [".git", "out"] ["proj", ".git", "out"] ∧
      ∃ after, (copyProject "/proj/.git/out/../.." "/proj/.git/out/" {}).run hostDisk =
          (.ok 2, after) ∧
        after.tree.get? ["proj", ".git", "out", "src", "run"] = some (.file [66] true) ∧
        after.tree.get? ["proj", ".git", "out", "src", "l"] = some (.link "../a") ∧
        after.tree.get? ["proj", ".git", "out", ".git"] = none ∧
        after.tree.get? ["proj", ".git", "out", "z"] = none ∧
        after.tree.get? ["proj", "a"] = some (.file [65] false) := by
  have opens := (@opens_of_find _ (fun loc => ["proj", ".git", "out"] <+: loc ∨ False) _ _ _
    (by decide +kernel : hostDisk.find .through "/proj/.git" = .ok (["proj", ".git"], .directory))
    (by decide +kernel)).2
  have replaceable : Replaceable hostDisk "/proj/.git/out/" "/proj/.git" "out" ["proj", ".git"] := by
    refine ⟨by decide +kernel, by decide +kernel, fun parent named => ?_,
      ⟨by decide, by decide +kernel, fun _ _ => id, id, opens⟩, Or.inr (Or.inl rfl)⟩
    obtain rfl := Option.some.inj (named.symm.trans (by decide +kernel : _ = some "/proj/.git"))
    decide +kernel
  have enclosed : Enclosed hostDisk "/proj/.git/out/../.." ["proj"] [".git", "out"]
      ["proj", ".git", "out"] := ⟨by decide +kernel, by decide, rfl, by decide +kernel⟩
  have copyable : Copyable {} hostDisk.tree "/proj/.git/out/../.." "/proj/.git/out/" ["proj"] :=
    copyable_of_entries _ (by simp) (by decide +kernel)
  refine ⟨replaceable, enclosed, ?_⟩
  obtain ⟨whole, partly⟩ := copyProject_enclosed {} replaceable enclosed
  have excluded : ({} : CopyFilter).includes (Path.joinAll "" [".git", "out"]) = false := by decide +kernel
  obtain ⟨count, after, ran, -, holds⟩ := whole.1 ⟨excluded, copyable⟩
  have kept := partly count after ran
  rw [if_neg (by simp [excluded])] at kept
  obtain ⟨agree, files⟩ := kept
  obtain rfl : count = 2 := files.trans (by decide +kernel)
  refine ⟨after, ran, ?_, ?_, ?_, ?_, ?_⟩
  · exact (holds ["src", "run"] (by simp)).trans (by decide +kernel)
  · exact (holds ["src", "l"] (by simp)).trans (by decide +kernel)
  · exact (holds [".git"] (by simp)).trans (by decide +kernel)
  · exact (holds ["z"] (by simp)).trans (by decide +kernel)
  · exact (agree.get? ["proj", "a"] (by decide)).symm.trans rfl

/-- A copy to a place in the project that the filter includes holds the directory in which it has been made.
To a place that the filter excludes the copy fails where the path of the place leads through the place itself
or ends in a point, or where the path of the project leads through what is cleared away. -/
theorem exists_copyProject_enclosed_not :
    hostDisk.find .through "/proj" = .ok (["proj"], .directory) ∧
      hostDisk.find .itself "/proj/out" = .error .notFound ∧
      ((copyProject "/proj" "/proj/out" {}).run hostDisk).1.isOk = true ∧
      ((copyProject "/proj" "/proj/out" {}).run hostDisk).2.tree.get? ["proj", "out", "out"] =
        some .directory ∧
      ((copyProject "/proj" "/proj/out" {}).run hostDisk).2.tree.get? ["proj", "out", "out", "a"] =
        some (.file [65] false) ∧
      hostDisk.find .itself "/proj/.git/out/../out" = .ok (["proj", ".git", "out"], .directory) ∧
      ((copyProject "/proj" "/proj/.git/out/../out" {}).run hostDisk).1.isOk = false ∧
      hostDisk.find .itself "/proj/.git/out/." = .ok (["proj", ".git", "out"], .directory) ∧
      ((copyProject "/proj" "/proj/.git/out/." {}).run hostDisk).1.isOk = false ∧
      hostDisk.find .through "/proj/.git/out/in/../../.." = .ok (["proj"], .directory) ∧
      ((copyProject "/proj/.git/out/in/../../.." "/proj/.git/out" {}).run hostDisk).1.isOk = false := by
  decide +kernel

end VersionMatrix
