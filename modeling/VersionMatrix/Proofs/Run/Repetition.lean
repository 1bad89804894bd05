import VersionMatrix.Proofs.Run.Footprint
import VersionMatrix.Proofs.Run.Isolation
import VersionMatrix.Proofs.Run.Refusal
import VersionMatrix.Proofs.Staging.Leftovers

/-! Runs of one request over what others of them have left. Whatever an earlier run has left in the
staging directory, and in whichever stage it stopped, the next run does the same and comes to the
same. -/
namespace VersionMatrix.Job

open FileTree Disk DiskAction

variable {pipeline : Pipeline} {job : Job} {disk other left cleared final : Disk} {dir : Location}
  {events : List RunEvent} {outcome : RunOutcome} {image : String} {error : StageError}

/-- The path to a staging directory does not lead through it. -/
def Rooted (disk : Disk) (root staging : String) : Prop :=
  ∀ top, disk.place? staging = some top → ∀ loc ∈ disk.route root, ¬ top <+: loc

/-- The staging directory of a job in a directory. -/
abbrev stagingAt (job : Job) (dir : Location) : Location :=
  dir ++ [stagingName job.request.projectName job.request.version]

/-- A disk on which the staging directory of a job has a place that can be cleared. Neither the path to
it nor the path of the project leads through it. -/
structure Renewable (pipeline : Pipeline) (job : Job) (dir : Location) (disk : Disk) : Prop where
  secluded : Secluded job.request.sourcePath pipeline.stagingRoot
    (stagingName job.request.projectName job.request.version) dir disk
  apart : Apart disk job.request.sourcePath (pipeline.stagingDirectory job.request)
  plain : PlainDefinition disk job.request.sourcePath
  way : disk.MakesWay (pipeline.stagingDirectory job.request)

namespace Renewable

theorem exists_of_place? {top : Location}
    (placed : disk.place? (pipeline.stagingDirectory job.request) = some top)
    (apart : Apart disk job.request.sourcePath (pipeline.stagingDirectory job.request))
    (plain : PlainDefinition disk job.request.sourcePath)
    (rooted : Rooted disk pipeline.stagingRoot (pipeline.stagingDirectory job.request))
    (way : disk.MakesWay (pipeline.stagingDirectory job.request)) :
    ∃ dir, top = stagingAt job dir ∧ Renewable pipeline job dir disk := by
  obtain ⟨proper, dir, rfl, sound, opens⟩ := opens_of_place?_stagingPath placed
  have fromBase := rooted _ placed
  have site : Site (fun _ => False) pipeline.stagingRoot
      (stagingName job.request.projectName job.request.version) dir disk := by
    refine ⟨proper, sound, fun _ _ => id, id, opens.avoid fun loc member => ?_⟩
    rintro (inside | ⟨⟨⟩⟩)
    exact fromBase loc member inside
  exact ⟨dir, rfl, ⟨site, apart.aside _ placed, fromBase⟩, apart, plain, way⟩

variable (renewable : Renewable pipeline job dir disk)

include renewable

theorem place? :
    disk.place? (pipeline.stagingDirectory job.request) = some (stagingAt job dir) :=
  renewable.secluded.site.place?

/-- Another thing that can be cleared away may stand in the place. -/
theorem of_agreeOff (agree : AgreeOff (Within (stagingAt job dir)) disk other)
    (way : other.MakesWay (pipeline.stagingDirectory job.request)) :
    Renewable pipeline job dir other := by
  have secluded := renewable.secluded.of_agreeOff agree
  have found := @find_of_agreeOff (Within (stagingAt job dir)) disk _ other agree
    renewable.secluded.fromSource .through
  have placed : ∀ top, other.place? (pipeline.stagingDirectory job.request) = some top →
      stagingAt job dir = top := fun top placed =>
    Option.some.inj (secluded.site.place?.symm.trans placed)
  refine ⟨secluded, ⟨fun project top found' placed' => ?_, fun top placed' => ?_⟩,
    fun project found' target => ?_, way⟩
  · obtain rfl := placed top placed'
    exact renewable.apart.outside project _ (found.symm.trans found') renewable.place?
  · obtain rfl := placed top placed'
    exact secluded.fromSource
  · have there := found.symm.trans found'
    rw [← agree.get? _ (renewable.apart.not_within renewable.place? there (List.prefix_append ..))]
    exact renewable.plain project there target

/-- A run keeps to its staging directory. -/
theorem keeps : Keeps (Within (stagingAt job dir)) (fun _ => False) pipeline job disk .admitted :=
  keeps_of_site rfl (clearPaths_nothing _ _ _) renewable.apart renewable.plain renewable.place?
    renewable.secluded.site (fun _ _ _ _ => id) fun _ => id

end Renewable

/-- A run that is alone and settles is what the job runs to. -/
theorem run_eq_of_solo (solo : Solo pipeline job disk events (.settled outcome) left) :
    job.run pipeline disk = (events, .settled outcome, left) := by
  obtain ⟨events', outcome', final, settled, solo'⟩ := exists_run_eq pipeline job disk
  obtain ⟨rfl, rfl, rfl⟩ := solo.unique solo'
  exact settled

/-- What is left to a run depends on how far it has come and on the disk then, and on nothing else. -/
theorem exists_rest (pipeline : Pipeline) (job : Job) (phase : Phase) (left : Disk) :
    ∃ more outcome final, ∀ {disk events}, Solo pipeline job disk events phase left →
      job.run pipeline disk = (events ++ more, .settled outcome, final) := by
  have ended := @rank_runFor_le pipeline job phase.rank left phase
  rw [Nat.sub_self] at ended
  obtain ⟨outcome, settled⟩ := settled_of_rank_eq_zero (Nat.le_zero.1 ended)
  refine ⟨(runFor pipeline job phase.rank left phase).1, outcome,
    (runFor pipeline job phase.rank left phase).2.2, fun solo => ?_⟩
  have rest := solo.runFor phase.rank
  rw [settled] at rest
  exact run_eq_of_solo rest

/-- Runs that come to be the same stay the same. -/
theorem run_eq_run_of_solo {phase : Phase} (solo : Solo pipeline job disk events phase left)
    (solo' : Solo pipeline job other events phase left) :
    job.run pipeline disk = job.run pipeline other := by
  obtain ⟨_, _, _, rest⟩ := exists_rest pipeline job phase left
  rw [rest solo, rest solo']

/-- A run that has an image name starts with the copy. -/
theorem solo_copying (named : imageName job.request = .ok image) (disk : Disk) :
    Solo pipeline job disk [.state .pending, .state (.active .copying)]
      (.working .copying (.done ((copyWork pipeline job).run disk).1) (.templating image))
      ((copyWork pipeline job).run disk).2 := by
  have admitted : act pipeline job disk .admitted =
      { phase := .copying image, disk, events := [.state .pending] } := by rw [act, named]
  have started := @Solo.act pipeline job disk _ _ _ Trail.start
  rw [admitted] at started
  exact started.act.work

/-- Once a project has been copied, a run goes on from the copy alone. -/
theorem run_eq_of_copyWork (named : imageName job.request = .ok image)
    (same : (copyWork pipeline job).run disk = (copyWork pipeline job).run other) :
    job.run pipeline disk = job.run pipeline other := by
  have copied := @solo_copying pipeline job image named disk
  rw [same] at copied
  exact run_eq_run_of_solo copied (solo_copying named other)

/-- A copy that fails ends a run. -/
theorem run_eq_of_copyWork_error (named : imageName job.request = .ok image)
    (failed : (copyWork pipeline job).run disk = (.error error, left)) :
    job.run pipeline disk =
      ([.state .pending, .state (.active .copying), .state (.failed .copying error.message)],
        .settled (.error (job.failure .copying error)),
        release pipeline job left (.error (job.failure .copying error))) := by
  have copied := @solo_copying pipeline job image named disk
  rw [failed] at copied
  exact run_eq_of_solo copied.act.act

/-- The copy of a job is that of its project, without the count. -/
theorem run_copyWork (pipeline : Pipeline) (job : Job) (disk : Disk) :
    (copyWork pipeline job).run disk =
      ((copyProject job.request.sourcePath (pipeline.stagingDirectory job.request)
        pipeline.filter).run disk).map (Except.map fun _ => ()) id := by
  rw [copyWork, run_bind]
  split
  next ran => rw [ran]; rfl
  next ran => rw [ran]; rfl

/-- The checks before the copy of a job, and what they say of a disk. -/
def checked (pipeline : Pipeline) (job : Job) (disk : Disk) : Except StageError Unit :=
  ((copyChecks job.request.sourcePath (pipeline.stagingDirectory job.request)).run disk).1

/-- A run fails its checks with the disk as it was, or its copy comes to what it comes to where nothing
stands in the place. -/
theorem Renewable.copyWork_cases (renewable : Renewable pipeline job dir disk) :
    (∃ error, checked pipeline job disk = .error error ∧
      (copyWork pipeline job).run disk = (.error error, disk)) ∨
    checked pipeline job disk = .ok () ∧ ∃ cleared, Renewable pipeline job dir cleared ∧
      AgreeOff (Within (stagingAt job dir)) disk cleared ∧
      cleared.tree.get? (stagingAt job dir) = none ∧
      (copyWork pipeline job).run disk = (copyWork pipeline job).run cleared := by
  cases passes : checked pipeline job disk with
  | error error =>
      refine Or.inl ⟨error, rfl, ?_⟩
      rw [checked] at passes
      rw [run_copyWork, run_copyProject, passes]
      rfl
  | ok value =>
      obtain ⟨cleared, agree, absent, same⟩ :=
        @Secluded.exists_cleared disk _ _ _ dir pipeline.filter renewable.secluded renewable.way
      refine Or.inr ⟨rfl, cleared, renewable.of_agreeOff agree ?_, agree, absent, ?_⟩
      · exact (renewable.secluded.of_agreeOff agree).site.makesWay_of_onlyDirectory
          (onlyDirectory_of_absent absent)
      · rw [run_copyWork, run_copyWork]
        exact congrArg (Prod.map (Except.map fun _ => ()) id) (same passes)

/-- The runs of a job on two disks show the same and have the same outcome. If they have copied the
project, they also leave the same. -/
def Concur (pipeline : Pipeline) (job : Job) (disk other : Disk) : Prop :=
  ∃ events outcome final final', job.run pipeline disk = (events, .settled outcome, final) ∧
    job.run pipeline other = (events, .settled outcome, final') ∧
    (.state (.active .templating) ∈ events → AgreeOff (fun _ => False) final final')

namespace Renewable

/-- Whatever can be cleared away, a run comes to the same. -/
theorem concur (renewable : Renewable pipeline job dir disk)
    (renewable' : Renewable pipeline job dir other)
    (agree : AgreeOff (Within (stagingAt job dir)) disk other) : Concur pipeline job disk other := by
  cases named : imageName job.request with
  | error source =>
      exact ⟨_, _, disk, other, run_eq_of_solo (solo_of_imageName named disk),
        run_eq_of_solo (solo_of_imageName named other), fun member => by simp at member⟩
  | ok image =>
      have checks : checked pipeline job other = checked pipeline job disk :=
        renewable.secluded.run_copyChecks_eq agree
      rcases renewable.copyWork_cases, renewable'.copyWork_cases with
        ⟨⟨error, fails, failed⟩ | ⟨passes, cleared, fresh, near, absent, same⟩,
          ⟨error', fails', failed'⟩ | ⟨passes', cleared', fresh', near', absent', same'⟩⟩
      · obtain rfl : error' = error := Except.error.inj (fails'.symm.trans (checks.trans fails))
        exact ⟨_, _, _, _, run_eq_of_copyWork_error named failed,
          run_eq_of_copyWork_error named failed', fun member => by simp at member⟩
      · cases fails.symm.trans (checks.symm.trans passes')
      · cases fails'.symm.trans (checks.trans passes)
      · have alike : AgreeOff (fun _ => False) cleared cleared' :=
          agreeOff_of_absent ((near.symm.trans agree).trans near') absent absent'
        obtain ⟨events, outcome, final', settled', solo'⟩ := exists_run_eq pipeline job cleared'
        obtain ⟨final, solo, finals, -⟩ := Solo.mirror fresh.keeps alike solo'
        refine ⟨events, outcome, final, final', ?_, ?_, fun _ => finals⟩
        · rw [run_eq_of_copyWork named same, run_eq_of_solo solo]
        · rw [run_eq_of_copyWork named same', settled']

end Renewable

/-- A directory stays where it stands when the image definition is written. -/
theorem get?_of_writes {path : String} {copied after : Disk} {top : Location}
    (writes : Writes path copied after) (stands : copied.tree.get? top = some .directory) :
    after.tree.get? top = some .directory := by
  obtain rfl | ⟨loc, bytes, mode, -, noDirectory, -, rfl⟩ := writes
  · exact stands
  · rw [modifyTree, get?_put_of_ne, stands]
    rintro rfl
    exact noDirectory stands

namespace Renewable

variable (renewable : Renewable pipeline job dir disk)

include renewable

/-- The work of a run comes to a directory where nothing stood, or to nothing. -/
theorem ends_work (absent : disk.tree.get? (stagingAt job dir) = none) :
    (work pipeline job).Ends disk fun _ after => after.OnlyDirectory (stagingAt job dir) := by
  refine (resides_copyWork pipeline job disk).andThen ?_ ?_
  · rintro error after ⟨-, shrinks, -⟩
    exact (onlyDirectory_of_absent absent).of_shrinks (shrinks rfl)
  · rintro _ copied ⟨-, -, made⟩
    obtain ⟨cleared, base, name, dir', rows, shrinks, agree, lodged, -⟩ := made rfl
    have placed := (place?_of_lodged shrinks agree lodged).symm.trans renewable.place?
    have stands : copied.tree.get? (stagingAt job dir) = some .directory :=
      Option.some.inj placed ▸ lodged.found
    refine (ends_writeDockerfile _ _ _ copied).andThen ?_ ?_
    · exact fun error after writes => onlyDirectory_of_found (get?_of_writes writes stands)
    · exact fun path after writes => onlyDirectory_of_found (get?_of_writes writes stands)

/-- A run leaves its staging directory such that the next one can clear it away. -/
theorem of_run (ran : job.run pipeline disk = (events, .settled outcome, final)) :
    Renewable pipeline job dir final ∧ AgreeOff (Within (stagingAt job dir)) disk final := by
  obtain ⟨_, _, _, settled, solo⟩ := exists_run_eq pipeline job disk
  rw [ran] at settled
  obtain ⟨rfl, rest⟩ := Prod.mk.inj settled
  obtain ⟨same, rfl⟩ := Prod.mk.inj rest
  obtain rfl := Phase.settled.inj same
  obtain ⟨-, -, -, kept⟩ := Solo.mirror renewable.keeps (AgreeOff.refl _ disk) solo
  refine ⟨renewable.of_agreeOff kept ?_, kept⟩
  have left := solo.tends
  rw [Tends, work, run_bind] at left
  rcases left with rfl | left
  · exact renewable.way
  rcases renewable.copyWork_cases with ⟨error, -, failed⟩ | ⟨-, cleared, fresh, -, absent, same⟩
  · rw [failed, release] at left
    split at left
    · exact left ▸ renewable.way
    · exact left ▸ renewable.secluded.site.makesWay_removeTree renewable.way
  · rw [same, ← run_bind, ← work, release] at left
    refine (renewable.secluded.of_agreeOff kept).site.makesWay_of_onlyDirectory ?_
    have only := fresh.ends_work absent
    split at left
    · exact left ▸ only
    · exact left ▸ only.of_shrinks (shrinks_removeTree _ _).1

end Renewable

/-- Where the staging directory of a job has no place its runs leave the disk as it is. -/
theorem concur_of_unplaced
    (unplaced : disk.place? (pipeline.stagingDirectory job.request) = none)
    (alike : AgreeOff (fun _ => False) disk other) :
    Concur pipeline job disk other ∧ AgreeOff (fun _ => False) disk (job.run pipeline disk).2.2 := by
  have keeps : Keeps (fun _ => False) (fun _ => False) pipeline job disk .admitted :=
    keeps_of_unplaced (clearPaths_nothing _ _ _) unplaced
  obtain ⟨events, outcome, final', settled', solo'⟩ := exists_run_eq pipeline job other
  obtain ⟨final, solo, finals, kept⟩ := Solo.mirror keeps alike solo'
  refine ⟨⟨events, outcome, final, final', run_eq_of_solo solo, settled', fun _ => finals⟩, ?_⟩
  rw [run_eq_of_solo solo]
  exact (alike.trans kept).trans finals.symm

/-- Whatever stands in place of the staging directory, if it can be cleared away then a run shows the
same, calls included, and has the same outcome, and if it has copied the project then it also leaves the
same. So a run that is repeated repeats all this, whichever stage it comes to and whether it keeps its
staging directory or not. Neither the path of the project nor the path to the staging directory may lead
through that directory, since then they lead elsewhere once it has been cleared away. -/
theorem run_over_leftovers (pipeline : Pipeline) (job : Job) {disk other : Disk}
    (differ : AgreeOff (disk.Held (pipeline.stagingDirectory job.request)) disk other)
    (apart : Apart disk job.request.sourcePath (pipeline.stagingDirectory job.request))
    (plain : PlainDefinition disk job.request.sourcePath)
    (rooted : Rooted disk pipeline.stagingRoot (pipeline.stagingDirectory job.request))
    (way : disk.MakesWay (pipeline.stagingDirectory job.request))
    (way' : other.MakesWay (pipeline.stagingDirectory job.request)) :
    Concur pipeline job disk other ∧ Concur pipeline job disk (job.run pipeline disk).2.2 := by
  cases placed : disk.place? (pipeline.stagingDirectory job.request) with
  | none =>
      have alike : AgreeOff (fun _ => False) disk other := differ.mono fun loc held => by
        obtain ⟨top, placed', -⟩ := held
        rw [placed] at placed'
        cases placed'
      obtain ⟨same, left⟩ := concur_of_unplaced placed alike
      exact ⟨same, (concur_of_unplaced placed left).1⟩
  | some top =>
      obtain ⟨dir, rfl, renewable⟩ := Renewable.exists_of_place? placed apart plain rooted way
      have agree : AgreeOff (Within (stagingAt job dir)) disk other :=
        differ.mono fun loc => (held_iff placed).1
      have same := renewable.concur (renewable.of_agreeOff agree way') agree
      refine ⟨same, ?_⟩
      obtain ⟨events, outcome, final, -, settled, -⟩ := same
      obtain ⟨renewed, kept⟩ := renewable.of_run settled
      rw [settled]
      exact renewable.concur renewed kept

theorem Rooted.of_eq {root staging : String} {top : Location}
    (placed : disk.place? staging = some top) (clear : ∀ loc ∈ disk.route root, ¬ top <+: loc) :
    Rooted disk root staging := by
  intro top' placed'
  exact Option.some.inj (placed.symm.trans placed') ▸ clear

def emptiedDisk : Disk := (sampleDisk.removeTree "/s/autochecker_p1").2

/-- The disk with a link to the project in place of the staging directory. -/
def relinkedDisk : Disk :=
  emptiedDisk.modifyTree (·.put ["s", "autochecker_p1"] (.link "../proj"))

/-- A run over what an earlier one has left comes to what a run over a link to the project comes to. The
link is removed, and not what it leads to. -/
theorem run_over_link :
    let staging := samplePipeline.stagingDirectory (sampleJob "/proj").request
    AgreeOff (sampleDisk.Held staging) sampleDisk relinkedDisk ∧
      Apart sampleDisk (sampleJob "/proj").request.sourcePath staging ∧
      PlainDefinition sampleDisk (sampleJob "/proj").request.sourcePath ∧
      Rooted sampleDisk samplePipeline.stagingRoot staging ∧
      sampleDisk.MakesWay staging ∧ relinkedDisk.MakesWay staging ∧
      sampleDisk.tree.get? ["s", "autochecker_p1", "old"] = some (.file [] false) ∧
      .state (.active .templating) ∈ ((sampleJob "/proj").run samplePipeline sampleDisk).1 ∧
      Concur samplePipeline (sampleJob "/proj") sampleDisk relinkedDisk ∧
      Concur samplePipeline (sampleJob "/proj") sampleDisk
        ((sampleJob "/proj").run samplePipeline sampleDisk).2.2 := by
  have placed : sampleDisk.place? "/s/autochecker_p1" = some ["s", "autochecker_p1"] := by
    decide +kernel
  have placed' : relinkedDisk.place? "/s/autochecker_p1" = some ["s", "autochecker_p1"] := by
    decide +kernel
  have differ : AgreeOff (sampleDisk.Held "/s/autochecker_p1") sampleDisk relinkedDisk :=
    (shrinks_removeTree _ _).2.trans (agreeOff_put emptiedDisk ⟨_, placed, List.prefix_refl _⟩)
  have rooted : Rooted sampleDisk "/s" "/s/autochecker_p1" :=
    Rooted.of_eq placed (by decide +kernel)
  have way : sampleDisk.MakesWay "/s/autochecker_p1" :=
    (onlyDirectory_of_found (by decide +kernel)).makesWay placed
  have way' : relinkedDisk.MakesWay "/s/autochecker_p1" := fun top there => by
    obtain rfl := Option.some.inj (placed'.symm.trans there)
    exact Or.inr (Or.inr ⟨⟨"../proj", by decide +kernel⟩, by decide +kernel⟩)
  exact ⟨differ, apart_sample, plain_sample, rooted, way, way', by decide +kernel, by decide +kernel,
    run_over_leftovers samplePipeline (sampleJob "/proj") differ apart_sample plain_sample rooted
      way way'⟩

/-- The last state of a run of the sample job that keeps nothing. -/
def lastState (root source : String) (disk : Disk) : Option RunState :=
  ((sampleJob source).run { stagingRoot := root, retain := .discard } disk).2.1.outcome?.map
    RunState.ofOutcome

/-- The disk after such a run. -/
def diskAfter (root source : String) : Disk :=
  ((sampleJob source).run { stagingRoot := root, retain := .discard } sampleDisk).2.2

/-- A project whose path leads through the staging directory is there for the first run, and there is
none once the directory has been removed. And where the path to the staging directory leads through it,
the first run has removed the way to it when it is made anew, and the next one misses the way at
once. -/
theorem exists_run_repeats_not :
    (AgreeOff (sampleDisk.Held (stagingPath "/s" "p" "1")) sampleDisk emptiedDisk ∧
      sampleDisk.find .through "/s/autochecker_p1/../../proj" = .ok (["proj"], .directory) ∧
      sampleDisk.place? (stagingPath "/s" "p" "1") = some ["s", "autochecker_p1"] ∧
      sampleDisk.tree.get? ["s", "autochecker_p1"] = some .directory ∧
      emptiedDisk.tree.get? ["s", "autochecker_p1"] = none ∧
      sampleDisk.tree.get? ["proj", "Dockerfile"] = none ∧
      lastState "/s" "/s/autochecker_p1/../../proj" sampleDisk = some (.succeeded true) ∧
      lastState "/s" "/s/autochecker_p1/../../proj" emptiedDisk =
        some (.failed .copying ("IO error at '/s/autochecker_p1/../../proj': " ++
          "No such file or directory (os error 2)")) ∧
      lastState "/s" "/s/autochecker_p1/../../proj" (diskAfter "/s" "/s/autochecker_p1/../../proj") =
        some (.failed .copying ("IO error at '/s/autochecker_p1/../../proj': " ++
          "No such file or directory (os error 2)"))) ∧
    sampleDisk.find .through "/proj" = .ok (["proj"], .directory) ∧
      sampleDisk.place? (stagingPath "/s/autochecker_p1/.." "p" "1") = some ["s", "autochecker_p1"] ∧
      lastState "/s/autochecker_p1/.." "/proj" sampleDisk =
        some (.failed .copying ("IO error at '/s/autochecker_p1/../autochecker_p1': " ++
          "No such file or directory (os error 2)")) ∧
      lastState "/s/autochecker_p1/.." "/proj" (diskAfter "/s/autochecker_p1/.." "/proj") =
        some (.failed .copying
          "IO error at '/s/autochecker_p1/..': parent directory does not exist") := by
  have differ : AgreeOff (sampleDisk.Held (stagingPath "/s" "p" "1")) sampleDisk emptiedDisk :=
    (shrinks_removeTree _ _).2
  exact ⟨⟨differ, by decide +kernel⟩, by decide +kernel⟩

end VersionMatrix.Job
