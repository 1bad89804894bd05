import VersionMatrix.Proofs.Run.Context
import VersionMatrix.Proofs.Staging.Footprint

/-! What a run changes. It touches only what the path of its staging directory names, except that a link
in the copy is followed when the image definition is written in its place. -/
namespace VersionMatrix

open FileTree Disk DiskAction

variable {pipeline : Pipeline} {job : Job} {initial left disk cleared copied after : Disk}
  {events : List RunEvent} {phase : Phase} {outcome : RunOutcome} {source base name : String}
  {dir loc : Location} {rows : List (String × Entry)}

/-- A file that is written where no directory and no link stands leaves the place of the copy. -/
theorem Site.of_put {foreign : Location → Prop} (site : Site foreign base name dir disk)
    (noDirectory : disk.tree.get? loc ≠ some .directory)
    (noLink : ∀ target, disk.tree.get? loc ≠ some (.link target)) (entry : Entry) :
    Site foreign base name dir (disk.modifyTree (·.put loc entry)) where
  proper := site.proper
  sound := site.sound
  apart := site.apart
  clear := site.clear
  opens := site.opens.mono_of_passes rfl fun place found passes shown => by
    refine ⟨shown.1, ?_⟩
    rw [modifyTree, get?_put_of_ne, shown.2]
    rintro rfl
    rcases passes with rfl | ⟨target, rfl⟩
    · exact noDirectory shown.2
    · exact noLink target shown.2

/-- At most one file has been written, where the path leads. -/
def Writes (path : String) (before after : Disk) : Prop :=
  after = before ∨ ∃ loc bytes mode, before.written? path = some loc ∧
    before.tree.get? loc ≠ some .directory ∧
    (∀ target, before.tree.get? loc ≠ some (.link target)) ∧
    after = before.modifyTree (·.put loc (.file bytes mode))

/-- A definition that is written changes the disk only by what is written at its path. -/
theorem ends_writeDockerfile (directory version template : String) (disk : Disk) :
    (writeDockerfile directory version template).Ends disk fun _ after =>
      Writes (Path.join directory dockerfileName) disk after := by
  have idle : Writes (Path.join directory dockerfileName) disk disk := Or.inl rfl
  unfold writeDockerfile
  cases substituteVersion template version "image definition" with
  | error error => exact idle
  | ok text =>
      refine ends_inspect ?_
      split
      · refine ends_change_bind (fun _ => idle) fun next written => Or.inr ?_
        obtain ⟨loc, mode, led, noDirectory, noLink, same⟩ := exists_put_of_writeFile written
        exact ⟨loc, _, mode, led, noDirectory, noLink, same⟩
      · exact idle
      · exact idle
      · exact idle

/-- In a place where a directory has just been made there is no link. -/
theorem Free.linkless {destination : String} (free : Free cleared destination base name dir)
    (loc : Location) (inside : dir ++ [name] <+: loc) (points : String) :
    (cleared.withDirectory (dir ++ [name])).tree.get? loc ≠ some (.link points) := by
  intro linked
  rw [withDirectory, modifyTree, Disk.get?_put] at linked
  split at linked
  · cases linked
  · rw [get?_eq_none_of_absent free.absent inside] at linked
    cases linked

namespace Lodged

variable (lodged : Lodged (Path.join base name) base name dir rows cleared copied)

include lodged

/-- The path of the copy leads to it. -/
theorem opens : copied.Opens (fun _ => False) (Path.join base name) (dir ++ [name]) :=
  opens_join lodged.site.opens.bare lodged.free.site.proper lodged.free.short ⟨id, lodged.found⟩

/-- The image definition is written in the copy unless a link stands there in its place. After that the
path of the copy still names its place. -/
theorem of_writes (writes : Writes (Path.join (Path.join base name) dockerfileName) copied after) :
    Site (fun _ => False) base name dir after ∧
      AgreeOff (fun loc => dir ++ [name] <+: loc ∨
        copied.written? (Path.join (Path.join base name) dockerfileName) = some loc ∧
          ∃ target, copied.tree.get? (dir ++ [name] ++ [dockerfileName]) = some (.link target))
        copied after := by
  obtain rfl | ⟨loc, bytes, mode, written, noDirectory, noLink, rfl⟩ := writes
  · exact ⟨lodged.site, AgreeOff.refl _ _⟩
  refine ⟨lodged.site.of_put noDirectory noLink _, agreeOff_put copied ?_⟩
  by_cases linked : ∃ target, copied.tree.get? (dir ++ [name] ++ [dockerfileName]) =
      some (.link target)
  · exact Or.inr ⟨written, linked⟩
  · have kept : ∀ target, copied.tree.get? (dir ++ [name] ++ [dockerfileName]) ≠
        some (.link target) := fun target found => linked ⟨target, found⟩
    rw [written?_join lodged.opens isName_dockerfileName kept written]
    exact Or.inl (List.prefix_append ..)

/-- A link stands in place of the image definition only if the project lists one. -/
theorem link_listed {target : String}
    (linked : copied.tree.get? (dir ++ [name] ++ [dockerfileName]) = some (.link target)) :
    ∃ points, (dockerfileName, .link points) ∈ rows := by
  by_cases listed : ∃ row ∈ rows, row.1 = dockerfileName
  · obtain ⟨⟨_, entry⟩, member, rfl⟩ := listed
    obtain ⟨points, rfl⟩ := lodged.adds.links _ member target linked
    exact ⟨points, member⟩
  · have apart : ¬ ∃ row ∈ rows, dir ++ [name] ++ [row.1] <+: dir ++ [name] ++ [dockerfileName] := by
      rintro ⟨row, member, inside⟩
      have same := (List.prefix_append_right_inj _).1 inside
      exact listed ⟨row, member, (List.cons_prefix_cons.1 same).1⟩
    rw [← lodged.adds.agree.get? _ apart, withDirectory, modifyTree, get?_put_of_ne (by simp),
      get?_eq_none_of_absent lodged.free.absent (List.prefix_append ..)] at linked
    cases linked

end Lodged

/-- A link that a project lists was there at first, if its path does not lead through what is removed
and made anew. -/
theorem exists_link_of_listing {top : Location} {item points : String}
    (agree : AgreeOff (Within top) disk cleared) (clear : ∀ loc ∈ disk.route source, ¬ top <+: loc)
    (bare : ∀ loc, top <+: loc → ∀ points, cleared.tree.get? loc ≠ some (.link points))
    (listed : cleared.listing source = .ok rows) (member : (item, .link points) ∈ rows) :
    ∃ project, disk.find .through source = .ok (project, .directory) ∧
      disk.tree.get? (project ++ [item]) = some (.link points) := by
  obtain ⟨project, found, rfl⟩ := exists_contents_of_listing listed
  have linked := mem_contents.1 member
  rw [find_of_agreeOff agree clear] at found
  refine ⟨project, found, ?_⟩
  rw [agree.get? _ fun inside => bare _ inside points linked, linked]

namespace Job

/-- The work of a run on the disk: the copy, and then the image definition. -/
def work (pipeline : Pipeline) (job : Job) : DiskAction Unit := do
  copyWork pipeline job
  templateWork pipeline job

/-- A location that the image definition is written at by way of a link in the copy. Such a link comes
from the project, if the path of the project does not lead through the staging directory. -/
def Strays (pipeline : Pipeline) (job : Job) (disk : Disk) (loc : Location) : Prop :=
  ∃ copied top target, (copyWork pipeline job).run disk = (.ok (), copied) ∧
    disk.place? (pipeline.stagingDirectory job.request) = some top ∧
    copied.tree.get? (top ++ [dockerfileName]) = some (.link target) ∧
    copied.written? (Path.join (pipeline.stagingDirectory job.request) dockerfileName) = some loc ∧
    ((∀ loc ∈ disk.route job.request.sourcePath, ¬ top <+: loc) → ∃ project points,
      disk.find .through job.request.sourcePath = .ok (project, .directory) ∧
        disk.tree.get? (project ++ [dockerfileName]) = some (.link points))

/-- What is asked of the work of a run: it touches only what the path of the staging directory names and
where a link leads, and so does a removal of the staging directory. -/
def Touches (pipeline : Pipeline) (job : Job) (disk after : Disk) : Prop :=
  AgreeOff (fun loc => disk.Held (pipeline.stagingDirectory job.request) loc ∨
    Strays pipeline job disk loc) disk after ∧
  AgreeOff (disk.Held (pipeline.stagingDirectory job.request)) after
    (after.removeTree (pipeline.stagingDirectory job.request)).2

theorem touches_of_shrinks (shrinks : Shrinks disk after)
    (agree : AgreeOff (disk.Held (pipeline.stagingDirectory job.request)) disk after) :
    Touches pipeline job disk after :=
  ⟨agree.mono fun _ => Or.inl,
    (shrinks_removeTree after _).2.mono fun _ => held_of_shrinks shrinks agree⟩

/-- The location of the copy is the one that the path of the staging directory named at first. -/
theorem place?_of_lodged
    (shrinks : Shrinks disk cleared)
    (agree : AgreeOff (disk.Held (pipeline.stagingDirectory job.request)) disk cleared)
    (lodged : Lodged (pipeline.stagingDirectory job.request) base name dir rows cleared copied) :
    disk.place? (pipeline.stagingDirectory job.request) = some (dir ++ [name]) := by
  obtain ⟨top, placed, -⟩ := held_of_shrinks shrinks agree
    ⟨_, lodged.free.place?, List.prefix_refl _⟩
  obtain ⟨proper, -⟩ := opens_of_place?_stagingPath placed
  rw [placed, place?_eq_of_shrinks shrinks agree.workingDirectory proper placed lodged.free.place?]

/-- The copy of a job changes the disk only where its staging directory stands. -/
theorem resides_copyWork (pipeline : Pipeline) (job : Job) (disk : Disk) :
    (copyWork pipeline job).Ends disk
      (Resides job.request.sourcePath (pipeline.stagingDirectory job.request) disk) :=
  (ends_copyProject _ _ _ disk).andThen (fun _ _ => id) fun _ _ => id

/-- The image definition is written once the copy has been made. -/
theorem touches_of_writes (copies : (copyWork pipeline job).run disk = (.ok (), copied))
    (writes : Writes (Path.join (pipeline.stagingDirectory job.request) dockerfileName) copied after) :
    Touches pipeline job disk after := by
  have resides := resides_copyWork pipeline job disk
  rw [Ends, copies] at resides
  obtain ⟨agree, -, made⟩ := resides
  obtain ⟨cleared, base, name, dir, rows, shrinks, agree', lodged, listed⟩ := made rfl
  have placed := place?_of_lodged shrinks agree' lodged
  have held : ∀ loc, dir ++ [name] <+: loc →
      disk.Held (pipeline.stagingDirectory job.request) loc := fun loc => (held_iff placed).2
  have remade : AgreeOff (Within (dir ++ [name])) disk (cleared.withDirectory (dir ++ [name])) :=
    (agree'.mono fun loc => (held_iff placed).1).trans (agreeOff_put cleared (List.prefix_refl _))
  have text : pipeline.stagingDirectory job.request = Path.join base name :=
    (dropSlashes_stagingPath _ _ _).symm.trans lodged.free.text
  rw [text] at writes lodged
  have strays : ∀ loc, copied.written? (Path.join (Path.join base name) dockerfileName) = some loc →
      (∃ target, copied.tree.get? (dir ++ [name] ++ [dockerfileName]) = some (.link target)) →
        Strays pipeline job disk loc := by
    rintro loc written ⟨target, linked⟩
    refine ⟨copied, _, target, copies, placed, linked, text ▸ written, fun clear => ?_⟩
    obtain ⟨points, member⟩ := lodged.link_listed linked
    obtain ⟨project, found, there⟩ :=
      exists_link_of_listing remade clear lodged.free.linkless listed member
    exact ⟨project, points, found, there⟩
  obtain ⟨site, kept⟩ := lodged.of_writes writes
  refine ⟨(agree.mono fun _ => Or.inl).trans (kept.mono fun loc => ?_), ?_⟩
  · exact Or.imp (held loc) fun both => strays loc both.1 both.2
  · rw [text] at held ⊢
    exact site.agreeOff_removeTree.mono held

/-- What a job has done to the disk when its stages end, however they end. -/
theorem ends_work (pipeline : Pipeline) (job : Job) (disk : Disk) :
    (work pipeline job).Ends disk fun _ after => Touches pipeline job disk after := by
  have copies : (copyWork pipeline job).Ends disk fun result after =>
      (copyWork pipeline job).run disk = (result, after) ∧
        Resides job.request.sourcePath (pipeline.stagingDirectory job.request) disk result after :=
    ⟨rfl, resides_copyWork pipeline job disk⟩
  refine copies.andThen ?_ ?_
  · rintro error after ⟨-, agree, shrinks, -⟩
    exact touches_of_shrinks (shrinks rfl) agree
  · rintro _ copied ⟨copies, -⟩
    refine (ends_writeDockerfile _ _ _ copied).andThen ?_ ?_
    · exact fun error after => touches_of_writes copies
    · exact fun path after => touches_of_writes copies

/-- What a run is still to do on the disk before it leaves, if nothing fails. -/
def remaining (pipeline : Pipeline) (job : Job) : Phase → DiskAction Unit
  | .admitted | .copying _ => work pipeline job
  | .working _ rest after => do
    rest
    remaining pipeline job after
  | .templating _ => templateWork pipeline job
  | _ => return ()

/-- What a run that has the disk to itself is still to do comes to what its whole work comes to. In the
end the staging directory has been released, or nothing has been done. -/
def Tends (pipeline : Pipeline) (job : Job) (initial left : Disk) : Phase → Prop
  | .admitted => left = initial
  | .settled outcome => left = initial ∨
      left = release pipeline job ((work pipeline job).run initial).2 outcome
  | phase => ((remaining pipeline job phase).run left).2 = ((work pipeline job).run initial).2

theorem run_bind_pure {α : Type} (action : DiskAction Unit) (value : α) (disk : Disk) :
    ((action >>= fun _ => pure value).run disk).2 = (action.run disk).2 := by
  induction action generalizing disk with
  | done result => cases result <;> rfl
  | operate effect next ih => exact ih disk (effect disk)

/-- Once the work on the disk is done the rest of a run leaves the disk alone. -/
theorem tends_proceed {α : Type} {stage : Stage} {more : List RunEvent} {result : Except StageError α}
    {next : α → Phase} (going : ∀ value, Tends pipeline job initial left (next value))
    (came : left = ((work pipeline job).run initial).2) :
    Tends pipeline job initial (proceed job stage left more result next).disk
      (proceed job stage left more result next).phase := by
  cases result with
  | ok value => exact going value
  | error error => exact came

/-- After an operation the rest of the work goes on from what the operation has left. -/
theorem tends_working {stage : Stage} {rest : DiskAction Unit} {later : Phase}
    (tends : Tends pipeline job initial left (.working stage rest later))
    (open' : ∀ left, ((remaining pipeline job later).run left).2 = ((work pipeline job).run initial).2 →
      Tends pipeline job initial left later) :
    Tends pipeline job initial (act pipeline job left (.working stage rest later)).disk
      (act pipeline job left (.working stage rest later)).phase := by
  cases rest with
  | operate effect next => exact tends
  | done result =>
      cases result with
      | ok value => exact open' left tends
      | error error => exact tends

/-- Each action of a run is part of its whole work. -/
theorem tends_act (shows : Shows job.request events phase)
    (tends : Tends pipeline job initial left phase) :
    Tends pipeline job initial (act pipeline job left phase).disk
      (act pipeline job left phase).phase := by
  cases phase with
  | admitted =>
      obtain rfl : left = initial := tends
      rw [act]
      split
      · exact Or.inl rfl
      · exact rfl
  | copying image => exact tends
  | working stage rest later =>
      obtain ⟨image, ⟨-, rfl, -⟩ | ⟨-, rfl, -⟩⟩ := shows
      · exact tends_working tends fun _ => id
      · exact tends_working tends fun _ => id
  | templating image => exact (run_bind_pure (templateWork pipeline job) () left).trans tends
  | pulled image answer => exact tends_proceed (fun _ => tends) tends
  | building image =>
      rw [act]
      split
      · exact tends
      · exact tends
  | built image answer => exact tends_proceed (fun _ => tends) tends
  | leaving outcome =>
      obtain rfl : left = ((work pipeline job).run initial).2 := tends
      exact Or.inr rfl
  | settled outcome => exact tends
  | _ => exact tends

/-- What a run that is alone is still to do comes to what its whole work comes to. -/
theorem Solo.tends (solo : Solo pipeline job initial events phase left) :
    Tends pipeline job initial left phase := by
  induction solo with
  | start => rfl
  | act prior same ih => exact same ▸ tends_act prior.shows ih

/-- The release of the staging directory touches no more than the work of the run may. -/
theorem agreeOff_release (touches : Touches pipeline job disk after) (outcome : RunOutcome) :
    AgreeOff (fun loc => disk.Held (pipeline.stagingDirectory job.request) loc ∨
      Strays pipeline job disk loc) disk (release pipeline job after outcome) := by
  obtain ⟨agree, removes⟩ := touches
  rw [release]
  split
  · exact agree
  · exact agree.trans (removes.mono fun _ => Or.inl)

/-- Whichever stage a run ends in, and whatever the policy and the engine, the disk is afterwards as it
was before but for the location that the path of its staging directory names and what is below, and but
for the file that a link in the copy leads to in place of the image definition. -/
theorem run_touches (pipeline : Pipeline) (job : Job) (disk : Disk) :
    ∃ events outcome final, job.run pipeline disk = (events, .settled outcome, final) ∧
      ∀ loc, final.tree.get? loc = disk.tree.get? loc ∨
        (∃ top, disk.place? (pipeline.stagingDirectory job.request) = some top ∧ top <+: loc) ∨
          Strays pipeline job disk loc := by
  obtain ⟨events, outcome, final, settled, solo⟩ := exists_run_eq pipeline job disk
  refine ⟨events, outcome, final, settled, fun loc => ?_⟩
  rcases solo.tends with rfl | rfl
  · exact Or.inl rfl
  · have agree := agreeOff_release (ends_work pipeline job disk) outcome
    by_cases touched : disk.Held (pipeline.stagingDirectory job.request) loc ∨
        Strays pipeline job disk loc
    · exact Or.inr touched
    · exact Or.inl (agree.get? loc touched).symm

/-- A project with a link in place of its image definition. It leads to a file outside of the project. -/
def sharingDisk : Disk where
  tree :=
    { entries :=
        [(["proj"], .directory), (["proj", "Dockerfile"], .link "/shared/Dockerfile"),
          (["s"], .directory), (["shared"], .directory),
          (["shared", "Dockerfile"], .file [] false)] }

/-- The link is copied and then followed, so a run that succeeds writes its image definition over the
file that is shared. -/
theorem exists_run_strays :
    sharingDisk.find .through "/proj" = .ok (["proj"], .directory) ∧
      sharingDisk.place? (samplePipeline.stagingDirectory (sampleJob "/proj").request) =
        some ["s", "autochecker_p1"] ∧
      sharingDisk.tree.get? ["shared", "Dockerfile"] = some (.file [] false) ∧
      ((sampleJob "/proj").run samplePipeline sharingDisk).2.1.outcome?.map (·.isOk) = some true ∧
      ((sampleJob "/proj").run samplePipeline sharingDisk).2.2.tree.get? ["shared", "Dockerfile"] =
        some (.file (Text.utf8 "FROM b:1") false) := by
  decide +kernel

end Job

end VersionMatrix
