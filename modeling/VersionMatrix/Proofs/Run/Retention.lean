import VersionMatrix.Proofs.Run.Repetition

/-! What a run leaves of its staging directory. The policy decides whether that is removed when the run
leaves, and nothing else: everything that a run shows, and its outcome, are settled by then. -/
namespace VersionMatrix.Job

open FileTree Disk DiskAction

variable {pipeline : Pipeline} {job : Job} {disk left copied final : Disk} {events : List RunEvent}
  {phase : Phase} {outcome : RunOutcome} {image : String} {error : StageError}

/-- The policy is asked for nothing before a run leaves. -/
theorem act_retain (policy : RetainPolicy) (stays : ∀ outcome, phase ≠ .leaving outcome) :
    act { pipeline with retain := policy } job disk phase = act pipeline job disk phase := by
  cases phase with
  | leaving outcome => exact absurd rfl (stays outcome)
  | working stage rest after => cases rest <;> rfl
  | _ => rfl

/-- Under another policy a run takes the same way, and has made the same of the disk until it has
settled. -/
theorem Solo.retain (solo : Solo pipeline job disk events phase left) (policy : RetainPolicy) :
    ∃ left', Solo { pipeline with retain := policy } job disk events phase left' ∧
      (phase.outcome? = none → left' = left) := by
  induction solo with
  | start => exact ⟨disk, Trail.start, fun _ => rfl⟩
  | act prior same ih =>
      obtain rfl := same
      obtain ⟨left', solo, alike⟩ := ih
      rename_i events phase found
      cases phase with
      | leaving outcome =>
          obtain rfl := alike rfl
          exact ⟨_, solo.act, fun going => by cases going⟩
      | settled outcome => exact ⟨_, solo.act, fun going => by cases going⟩
      | _ =>
          obtain rfl := alike rfl
          have step := solo.act
          rw [act_retain policy fun _ leaving => by cases leaving] at step
          exact ⟨_, step, fun _ => rfl⟩

/-- Another policy changes neither the events of a run nor its outcome. -/
theorem run_retain (ran : job.run pipeline disk = (events, .settled outcome, final))
    (policy : RetainPolicy) :
    ∃ final', job.run { pipeline with retain := policy } disk =
      (events, .settled outcome, final') := by
  obtain ⟨events', outcome', final', settled, solo⟩ := exists_run_eq pipeline job disk
  obtain ⟨rfl, rest⟩ := Prod.mk.inj (ran.symm.trans settled)
  obtain ⟨same, -⟩ := Prod.mk.inj rest
  obtain rfl := Phase.settled.inj same
  obtain ⟨left', solo', -⟩ := solo.retain policy
  exact ⟨left', run_eq_of_solo solo'⟩

/-- Half a stage does not settle a run. -/
theorem phase_proceed_ne {α : Type} {stage : Stage} {more : List RunEvent}
    {result : Except StageError α} {next : α → Phase}
    (going : ∀ value, next value ≠ .settled outcome) :
    (proceed job stage disk more result next).phase ≠ .settled outcome := by
  cases result with
  | ok value => exact going value
  | error source => exact fun settled => by cases settled

/-- A run whose request is valid settles by leaving, and in no other way. -/
theorem leaves_of_act (named : imageName job.request = .ok image)
    (shows : Shows job.request events phase)
    (settles : (act pipeline job disk phase).phase = .settled outcome) :
    phase = .leaving outcome ∨ phase = .settled outcome := by
  cases phase with
  | admitted =>
      rw [act, named] at settles
      cases settles
  | working stage rest after =>
      cases rest with
      | operate effect next => cases settles
      | done result =>
          obtain ⟨image, ⟨-, rfl, -⟩ | ⟨-, rfl, -⟩⟩ := shows
          · exact absurd settles (phase_proceed_ne fun _ => by simp)
          · exact absurd settles (phase_proceed_ne fun _ => by simp)
  | pulled image answer => exact absurd settles (phase_proceed_ne fun _ => by simp)
  | building image =>
      rw [act] at settles
      split at settles <;> cases settles
  | built image answer => exact absurd settles (phase_proceed_ne fun _ => by simp)
  | leaving outcome' => exact Or.inl (congrArg Phase.leaving (Phase.settled.inj settles))
  | settled outcome' => exact Or.inr settles
  | _ => cases settles

/-- What a run whose request is valid leaves is what its work has come to, with the staging directory
released. -/
theorem Solo.released (named : imageName job.request = .ok image)
    (solo : Solo pipeline job disk events (.settled outcome) left) :
    left = release pipeline job ((Job.work pipeline job).run disk).2 outcome := by
  generalize ended : Phase.settled outcome = phase at solo
  induction solo with
  | start => cases ended
  | act prior same ih =>
      obtain rfl := same
      rcases leaves_of_act named prior.shows ended.symm with rfl | rfl
      · have tends := Solo.tends prior
        rw [Job.act]
        exact congrArg (release pipeline job · outcome) tends
      · exact ih rfl

/-- After a copy that succeeds a run is at its definition. -/
theorem solo_templating (named : imageName job.request = .ok image)
    (copies : (copyWork pipeline job).run disk = (.ok (), copied)) :
    Solo pipeline job disk
      [.state .pending, .state (.active .copying), .state (.active .templating)]
      (.working .templating (.done ((templateWork pipeline job).run copied).1) (.pulling image))
      ((templateWork pipeline job).run copied).2 := by
  have started := @solo_copying pipeline job image named disk
  rw [copies] at started
  exact started.act.act.work

/-- A run has got past its copy exactly if that has succeeded. -/
theorem templating_mem_iff (named : imageName job.request = .ok image)
    (ran : job.run pipeline disk = (events, .settled outcome, final)) :
    .state (.active .templating) ∈ events ↔
      ∃ copied, (copyWork pipeline job).run disk = (.ok (), copied) := by
  cases copies : (copyWork pipeline job).run disk with
  | mk result copied =>
  cases result with
  | error error =>
      rw [run_eq_of_copyWork_error named copies] at ran
      obtain rfl := congrArg Prod.fst ran
      simp
  | ok _ =>
      obtain ⟨more, _, _, rest⟩ := exists_rest pipeline job _ _
      obtain rfl := congrArg Prod.fst ((rest (solo_templating named copies)).symm.trans ran)
      simp

/-- And past its image definition exactly if that has been written. -/
theorem pulling_mem_iff (named : imageName job.request = .ok image)
    (ran : job.run pipeline disk = (events, .settled outcome, final))
    (copies : (copyWork pipeline job).run disk = (.ok (), copied)) :
    .state (.active .pulling) ∈ events ↔
      ∃ left, (templateWork pipeline job).run copied = (.ok (), left) := by
  have templating := @solo_templating pipeline job disk copied image named copies
  cases writes : (templateWork pipeline job).run copied with
  | mk result left =>
  rw [writes] at templating
  cases result with
  | error error =>
      rw [run_eq_of_solo templating.act.act] at ran
      obtain rfl := congrArg Prod.fst ran
      simp [act, proceed, leave, RunState.ofOutcome]
  | ok _ =>
      obtain ⟨more, _, _, rest⟩ := exists_rest pipeline job _ _
      obtain rfl := congrArg Prod.fst ((rest templating.act.act).symm.trans ran)
      simp [act, proceed]

/-- An image definition that could not be written has left the copy as it was. -/
theorem eq_of_templateWork_error
    (failed : (templateWork pipeline job).run copied = (.error error, left)) : left = copied := by
  have writes : (writeDockerfile (pipeline.stagingDirectory job.request) job.request.version
      job.request.dockerfileTemplate).Ends copied fun result after =>
        result.isOk = false → after = copied := by
    unfold writeDockerfile
    cases substituteVersion job.request.dockerfileTemplate job.request.version
        "image definition" with
    | error error => exact fun _ => rfl
    | ok text =>
        refine ends_inspect ?_
        split
        · exact ends_change_bind (fun _ _ => rfl) fun _ _ => fun ended => by cases ended
        · exact fun _ => rfl
        · exact fun _ => rfl
        · exact fun _ => rfl
  have ends : (templateWork pipeline job).Ends copied fun result after =>
      result.isOk = false → after = copied :=
    writes.andThen (fun _ _ kept _ => kept rfl) fun _ _ _ ended => by cases ended
  rw [Ends, failed] at ends
  exact ends rfl

/-- A staging directory that holds of a project what the filter includes. At its top stands the image
definition, once that is written. -/
structure Retained (pipeline : Pipeline) (request : RunRequest) (disk final : Disk)
    (written : Prop) (project top : Location) : Prop where
  source : disk.find .through request.sourcePath = .ok (project, .directory)
  stands : final.find .itself (pipeline.stagingDirectory request) = .ok (top, .directory)
  holds : ∀ rel, rel ≠ [] → rel ≠ [dockerfileName] ∨ ¬written →
    final.tree.get? (top ++ rel) = VersionMatrix.copied pipeline.filter disk.tree project rel
  definition : written → ∃ text executable,
    substituteVersion? request.dockerfileTemplate request.version = some text ∧
    final.tree.get? (top ++ [dockerfileName]) = some (.file (Text.utf8 text) executable) ∧
    (executable = true ↔ pipeline.filter.includes dockerfileName = true ∧
      ∃ bytes, disk.tree.get? (project ++ [dockerfileName]) = some (.file bytes true))

/-- The work of a run, once its project has been copied, leaves the staging directory as it is to be. -/
theorem exists_retained {written : Prop}
    (apart : Apart disk job.request.sourcePath (pipeline.stagingDirectory job.request))
    (plain : PlainDefinition disk job.request.sourcePath)
    (copies : (copyWork pipeline job).run disk = (.ok (), copied))
    (wrote : written ↔ ∃ left, (templateWork pipeline job).run copied = (.ok (), left)) :
    ∃ project top, Retained pipeline job.request disk ((work pipeline job).run disk).2 written
      project top := by
  obtain ⟨count, staged, copies', same⟩ := run_bind_eq_ok copies
  obtain rfl : staged = copied := (Prod.mk.inj same).2
  obtain ⟨dir, project, -, found, site, mirrors⟩ := exists_mirrors_of_copyProject apart copies'
  have ready := mirrors.ready site (plain project found)
  refine ⟨project, dir ++ [stagingName job.request.projectName job.request.version], ?_⟩
  rw [work, run_bind, copies]
  cases writes : (templateWork pipeline job).run staged with
  | mk result left =>
  cases result with
  | error error =>
      obtain rfl := eq_of_templateWork_error writes
      have unwritten : ¬written := fun isWritten => by
        obtain ⟨left', succeeds⟩ := wrote.1 isWritten
        cases writes.symm.trans succeeds
      simp only [writes]
      exact ⟨found, ready.find_itself, fun rel proper _ => mirrors.holds rel proper,
        fun isWritten => absurd isWritten unwritten⟩
  | ok _ =>
      obtain ⟨path, written', writes', same⟩ := run_bind_eq_ok writes
      obtain rfl : written' = left := (Prod.mk.inj same).2
      have done := (@confined_writeDockerfile _ staged _ _ job.request.version
        job.request.dockerfileTemplate dir ready).ends
      rw [Pipeline.stagingDirectory, stagingPath] at writes'
      rw [Ends, writes'] at done
      obtain ⟨text, substituted, after⟩ := (done.2 rfl).text
      simp only [writes]
      refine ⟨found, ((done.2 rfl).ready ready).find_itself, fun rel proper either => ?_, fun _ => ?_⟩
      · rw [after, if_neg, mirrors.holds rel proper]
        intro atTop
        exact either.elim (fun other => other (List.append_cancel_left atTop))
          fun unwritten => unwritten (wrote.2 ⟨_, writes⟩)
      · exact ⟨text, _, substituted, (after _).trans (if_pos rfl), mirrors.executable_iff⟩

/-- What a run leaves of its staging directory. Whichever stage it ends in, whatever stood there before
and whatever the engine does: unless the policy retains what the run came to, the path of the staging
directory leads to no directory and to no link afterwards. If it does, and the run has got past its copy,
then the staging directory holds of the project what the filter includes, and the image definition once
the run has got past that too. The policy changes nothing of what the run shows, and not its outcome. -/
theorem run_retention (pipeline : Pipeline) (job : Job) (disk : Disk)
    (valid : job.request.validate = .ok ()) :
    ∃ events outcome final, job.run pipeline disk = (events, .settled outcome, final) ∧
      (∀ policy, ∃ final',
        job.run { pipeline with retain := policy } disk = (events, .settled outcome, final')) ∧
      (pipeline.retain.retains outcome.isOk = false → ∀ loc entry,
        final.find .itself (pipeline.stagingDirectory job.request) = .ok (loc, entry) →
          entry ≠ .directory ∧ ∀ target, entry ≠ .link target) ∧
      (pipeline.retain.retains outcome.isOk = true →
        Apart disk job.request.sourcePath (pipeline.stagingDirectory job.request) →
        PlainDefinition disk job.request.sourcePath →
        .state (.active .templating) ∈ events →
        ∃ project top, Retained pipeline job.request disk final
          (.state (.active .pulling) ∈ events) project top) := by
  obtain ⟨image, named⟩ := exists_imageName_iff.2 valid
  obtain ⟨events, outcome, final, ran, solo⟩ := exists_run_eq pipeline job disk
  have released := solo.released named
  refine ⟨events, outcome, final, ran, run_retain ran, fun discards loc entry found => ?_,
    fun retains apart plain past => ?_⟩
  · rw [released, release, if_neg (by simp [discards])] at found
    exact find_removeTree_stagingPath found
  · rw [released, release, if_pos retains]
    obtain ⟨copied, copies⟩ := (templating_mem_iff named ran).1 past
    exact exists_retained apart plain copies (pulling_mem_iff named ran copies)

/-- The sample job retains its staging directory and has written its image definition. Told to discard,
it shows the same, and neither a directory nor a link is left in place of its staging directory. -/
theorem run_retention_sample :
    let disk := ((sampleJob "/proj").run samplePipeline sampleDisk).2.2
    (sampleJob "/proj").request.validate = .ok () ∧
      Apart sampleDisk (sampleJob "/proj").request.sourcePath
        (samplePipeline.stagingDirectory (sampleJob "/proj").request) ∧
      PlainDefinition sampleDisk (sampleJob "/proj").request.sourcePath ∧
      (∃ project top, Retained samplePipeline (sampleJob "/proj").request sampleDisk disk
        (.state (.active .pulling) ∈ ((sampleJob "/proj").run samplePipeline sampleDisk).1)
        project top) ∧
      .state (.active .pulling) ∈ ((sampleJob "/proj").run samplePipeline sampleDisk).1 ∧
      ∀ loc entry, ((sampleJob "/proj").run { samplePipeline with retain := .discard }
          sampleDisk).2.2.find .itself "/s/autochecker_p1" = .ok (loc, entry) →
        entry ≠ .directory ∧ ∀ target, entry ≠ .link target := by
  have valid : (sampleJob "/proj").request.validate = .ok () := by decide +kernel
  obtain ⟨events, outcome, final, ran, -, -, keeps⟩ :=
    run_retention samplePipeline (sampleJob "/proj") sampleDisk valid
  obtain ⟨_, outcome', final', ran', -, clears, -⟩ :=
    run_retention { samplePipeline with retain := .discard } (sampleJob "/proj") sampleDisk valid
  have retains : samplePipeline.retain.retains outcome.isOk = true := by cases outcome.isOk <;> rfl
  have discards : RetainPolicy.discard.retains outcome'.isOk = false := by
    cases outcome'.isOk <;> rfl
  have pulling : .state (.active .pulling) ∈
      ((sampleJob "/proj").run samplePipeline sampleDisk).1 := by decide +kernel
  have templating : .state (.active .templating) ∈
      ((sampleJob "/proj").run samplePipeline sampleDisk).1 := by decide +kernel
  rw [ran] at templating pulling ⊢
  rw [ran']
  exact ⟨valid, apart_sample, plain_sample, keeps retains apart_sample plain_sample templating,
    pulling, clears discards⟩

/-- Next to the staging directory is a project of the same name, with a link in place of its image
definition. -/
def sharedDisk : Disk :=
  (linkedDisk.modifyTree (·.put ["shared"] .directory)).modifyTree fun tree =>
    (tree.put ["shared", "Dockerfile"] (.file [] false)).put ["s", "proj", "Dockerfile"]
      (.link "/shared/Dockerfile")

/-- A project whose path leads through its staging directory is another one by the time it is copied.
What is retained then holds nothing of the first, and the image definition has been written through a
link of the other. -/
theorem exists_retained_other :
    let job := sampleJob throughStaging
    let final := (job.run samplePipeline sharedDisk).2.2
    job.request.validate = .ok () ∧
      sharedDisk.find .through throughStaging = .ok (["q", "proj"], .directory) ∧
      sharedDisk.place? "/s/autochecker_p1" = some ["s", "autochecker_p1"] ∧
      sharedDisk.tree.get? ["q", "proj", "Dockerfile"] = none ∧
      samplePipeline.filter.includes "a" = true ∧
      sharedDisk.tree.get? ["q", "proj", "a"] = some (.file [] false) ∧
      (∀ completed, samplePipeline.retain.retains completed = true) ∧
      (job.run samplePipeline sharedDisk).2.1.outcome?.map RunState.ofOutcome =
        some (.succeeded true) ∧
      .state (.active .pulling) ∈ (job.run samplePipeline sharedDisk).1 ∧
      final.tree.get? ["s", "autochecker_p1"] = some .directory ∧
      final.tree.get? ["s", "autochecker_p1", "a"] = none ∧
      final.tree.get? ["s", "autochecker_p1", "Dockerfile"] =
        some (.link "/shared/Dockerfile") := by
  decide +kernel

end VersionMatrix.Job
