import VersionMatrix.Proofs.Run.Trail
import VersionMatrix.Proofs.Staging.Context

/-! Runs that keep to their own part of the disk. What others do in foreign parts changes nothing of what
such a run shows, and nothing of its own part. -/
namespace VersionMatrix.Job

open FileTree Disk DiskAction

variable {pipeline : Pipeline} {job : Job} {own foreign : Location → Prop}
  {initial left found other : Disk} {events : List RunEvent} {phase : Phase}

/-- A staging directory that is ready in the own part of the disk. -/
def Staged (own foreign : Location → Prop) (pipeline : Pipeline) (job : Job) (disk : Disk) : Prop :=
  ∃ dir, (∀ loc, dir ++ [stagingName job.request.projectName job.request.version] <+: loc → own loc) ∧
    Ready foreign pipeline.stagingRoot (stagingName job.request.projectName job.request.version) dir
      disk

/-- What is asked of the work of a run: the staging directory can be removed, and it is ready if the
work succeeded. -/
def Delivers (own foreign : Location → Prop) (pipeline : Pipeline) (job : Job) : Outlook Unit :=
  fun result disk => Removes own foreign disk (pipeline.stagingDirectory job.request) ∧
    (result.isOk = true → Staged own foreign pipeline job disk)

/-- How a run stands that keeps to its own part of the disk in all that it is still to do. -/
def Keeps (own foreign : Location → Prop) (pipeline : Pipeline) (job : Job) (left : Disk) :
    Phase → Prop
  | .admitted | .copying _ =>
    Confined own foreign (copyWork pipeline job) left (Delivers own foreign pipeline job)
  | .working _ rest after =>
    (∃ image, after = .templating image ∨ after = .pulling image) ∧
      Confined own foreign rest left (Delivers own foreign pipeline job)
  | .templating _ | .pulling _ | .pulled .. | .building _ => Staged own foreign pipeline job left
  | .built .. | .running _ | .ran _ | .leaving _ =>
    Removes own foreign left (pipeline.stagingDirectory job.request)
  | .settled _ => True

/-- A step is taken on another disk as it would be taken here: it shows the same, and leaves its mark in
the own part only. -/
structure Mirrored (own foreign : Location → Prop) (found : Disk) (step step' : RunStep) : Prop where
  phase : step'.phase = step.phase
  events : step'.events = step.events
  agree : AgreeOff foreign step.disk step'.disk
  kept : AgreeOff own found step'.disk

/-- What a job has staged can be removed without a trace elsewhere. -/
theorem Staged.removes (staged : Staged own foreign pipeline job left) :
    Removes own foreign left (pipeline.stagingDirectory job.request) := by
  obtain ⟨dir, owned, ready⟩ := staged
  exact ready.site.removes.widen owned

/-- What others do to the disk does not show in the context that a job packs. -/
theorem Staged.contextOf_of_agreeOff (staged : Staged own foreign pipeline job left)
    (agree : AgreeOff foreign left found) :
    contextOf found (pipeline.stagingDirectory job.request) =
      contextOf left (pipeline.stagingDirectory job.request) := by
  obtain ⟨dir, -, ready⟩ := staged
  exact ready.contextOf_of_agreeOff agree

/-- The image definition is written in the own part of the disk. -/
theorem Staged.confined_templateWork (staged : Staged own foreign pipeline job left) :
    Confined own foreign (templateWork pipeline job) left (Delivers own foreign pipeline job) := by
  obtain ⟨dir, owned, ready⟩ := staged
  refine Confined.widen (Confined.andThen (confined_writeDockerfile ready) ?_ ?_) owned
  · rintro error after ⟨agree, -⟩
    exact ⟨(ready.site.of_agreeOff_within agree).removes.widen owned, (absurd · Bool.false_ne_true)⟩
  · rintro path after ⟨-, written⟩
    have staged : Staged own foreign pipeline job after := ⟨dir, owned, (written rfl).ready ready⟩
    exact ⟨staged.removes, fun _ => staged⟩

/-- The release has the same effect on two disks that differ only in what belongs to others. -/
theorem mirrored_release (removes : Removes own foreign left (pipeline.stagingDirectory job.request))
    (agree : AgreeOff foreign left found) (outcome : RunOutcome) :
    AgreeOff foreign (release pipeline job left outcome) (release pipeline job found outcome) ∧
      AgreeOff own found (release pipeline job found outcome) := by
  rw [release, release]
  split
  · exact ⟨agree, AgreeOff.refl own found⟩
  · exact (removes found agree).2

/-- A step that looks at nothing on the disk and leaves it as it is. -/
theorem mirrored_idle (agree : AgreeOff foreign left found)
    (idle : ∀ disk, act pipeline job disk phase = { act pipeline job left phase with disk }) :
    Mirrored own foreign found (act pipeline job left phase) (act pipeline job found phase) := by
  have here := congrArg RunStep.disk (idle left)
  rw [idle found]
  refine ⟨rfl, rfl, ?_, AgreeOff.refl own found⟩
  rw [here]
  exact agree

/-- How a run goes on does not depend on the disk. -/
theorem proceed_idle {α : Type} (stage : Stage) (more : List RunEvent) (result : Except StageError α)
    (next : α → Phase) (disk : Disk) :
    proceed job stage disk more result next =
      { proceed job stage left more result next with disk } := by
  cases result <;> rfl

/-- What a run shows is the same on every disk that differs in foreign parts only, and so is what it
makes of its own part. -/
theorem mirrored_act (keeps : Keeps own foreign pipeline job left phase)
    (agree : AgreeOff foreign left found) :
    Mirrored own foreign found (act pipeline job left phase) (act pipeline job found phase) := by
  cases phase with
  | working stage rest after =>
      cases rest with
      | done result => exact mirrored_idle agree (proceed_idle stage [] result fun _ => after)
      | operate effect next =>
          obtain ⟨same, effects, kept⟩ := keeps.2.1 found agree
          refine ⟨?_, rfl, effects, kept⟩
          simp only [act, same]
  | building image =>
      rw [act, act, keeps.contextOf_of_agreeOff agree]
      split
      · exact ⟨rfl, rfl, agree, AgreeOff.refl own found⟩
      · exact ⟨rfl, rfl, agree, AgreeOff.refl own found⟩
  | leaving outcome =>
      obtain ⟨effects, kept⟩ := mirrored_release keeps agree outcome
      exact ⟨rfl, rfl, effects, kept⟩
  | admitted =>
      refine mirrored_idle agree fun disk => ?_
      rw [act, act]
      split <;> rfl
  | pulled image answer => exact mirrored_idle agree (proceed_idle _ _ _ _)
  | built image answer => exact mirrored_idle agree (proceed_idle _ _ _ _)
  | _ => exact mirrored_idle agree fun disk => rfl

theorem keeps_proceed {α : Type} {stage : Stage} {more : List RunEvent}
    {result : Except StageError α} {next : α → Phase}
    (going : ∀ value, result = .ok value → Keeps own foreign pipeline job left (next value))
    (removes : Removes own foreign left (pipeline.stagingDirectory job.request)) :
    Keeps own foreign pipeline job (proceed job stage left more result next).disk
      (proceed job stage left more result next).phase := by
  cases result with
  | ok value => exact going value rfl
  | error source => exact removes

/-- A run goes on as it stands: what it is still to do keeps to its own part of the disk. -/
theorem keeps_act (keeps : Keeps own foreign pipeline job left phase) :
    Keeps own foreign pipeline job (act pipeline job left phase).disk
      (act pipeline job left phase).phase := by
  cases phase with
  | admitted =>
      rw [act]
      split
      · exact trivial
      · exact keeps
  | copying image => exact ⟨⟨image, Or.inl rfl⟩, keeps⟩
  | templating image => exact ⟨⟨image, Or.inr rfl⟩, Staged.confined_templateWork keeps⟩
  | working stage rest after =>
      obtain ⟨later, confined⟩ := keeps
      cases rest with
      | operate effect next => exact ⟨later, confined.2⟩
      | done result =>
          refine keeps_proceed (fun value isOk => ?_) confined.1
          have staged := confined.2 (by rw [isOk]; rfl)
          obtain ⟨image, rfl | rfl⟩ := later
          · exact staged
          · exact staged
  | pulling image => exact keeps
  | pulled image answer => exact keeps_proceed (fun _ _ => keeps) (Staged.removes keeps)
  | building image =>
      rw [act]
      split
      · exact Staged.removes keeps
      · exact Staged.removes keeps
  | built image answer => exact keeps_proceed (fun _ _ => keeps) keeps
  | running image => exact keeps
  | ran answer => exact keeps
  | leaving outcome => exact trivial
  | settled outcome => exact trivial

/-- A run that is alone keeps to its own part of the disk throughout. -/
theorem Solo.keeps (solo : Solo pipeline job initial events phase left)
    (start : Keeps own foreign pipeline job initial .admitted) :
    Keeps own foreign pipeline job left phase := by
  induction solo with
  | start => exact start
  | act prior same ih => exact same ▸ keeps_act ih

/-- A run on a disk that differs in foreign parts only is the same run, and changes only its own part. -/
theorem Solo.mirror (start : Keeps own foreign pipeline job initial .admitted)
    (agree : AgreeOff foreign initial other) (solo : Solo pipeline job other events phase left) :
    ∃ mirror, Solo pipeline job initial events phase mirror ∧ AgreeOff foreign mirror left ∧
      AgreeOff own other left := by
  induction solo with
  | start => exact ⟨initial, .start, agree, AgreeOff.refl own other⟩
  | @act events phase _ found prior same ih =>
      obtain rfl := same
      obtain ⟨mirror, before, agree, kept⟩ := ih
      have step := mirrored_act (Solo.keeps before start) agree
      refine ⟨(Job.act pipeline job mirror phase).disk, ?_, step.agree, kept.trans step.kept⟩
      have after := Solo.act before
      rw [← step.events, ← step.phase] at after
      exact after

/-- A run whose staging directory has a place in the own part, apart from the project and from what is
foreign. -/
theorem keeps_of_site {dir : Location} {name : String}
    (named : name = stagingName job.request.projectName job.request.version)
    (clear : ClearPaths foreign job.request.sourcePath (pipeline.stagingDirectory job.request) initial)
    (apart : Apart initial job.request.sourcePath (pipeline.stagingDirectory job.request))
    (plain : PlainDefinition initial job.request.sourcePath)
    (placed : initial.place? (pipeline.stagingDirectory job.request) = some (dir ++ [name]))
    (site : Site foreign pipeline.stagingRoot name dir initial)
    (readable : ∀ project,
      initial.find .through job.request.sourcePath = .ok (project, .directory) →
        ∀ loc, project <+: loc → ¬ foreign loc)
    (owned : ∀ loc, dir ++ [name] <+: loc → own loc) :
    Keeps own foreign pipeline job initial .admitted := by
  subst named
  have copies := @ClearPaths.confined_copyProject foreign initial _ _ _ dir pipeline.filter clear site
    fun project found => ⟨apart.readable clear.fromSource placed found, fun loc inside =>
      ⟨apart.not_within placed found inside, readable project found loc inside⟩⟩
  refine Confined.widen (Confined.andThen copies ?_ ?_) owned
  · rintro error after ⟨agree, -⟩
    exact ⟨(site.of_agreeOff_within agree).removes.widen owned, (absurd · Bool.false_ne_true)⟩
  · rintro count after ⟨agree, copied⟩
    obtain ⟨project, found, mirrors⟩ := copied rfl
    have staged : Staged own foreign pipeline job after :=
      ⟨dir, owned, mirrors.ready (site.of_agreeOff_within agree) (plain project found)⟩
    exact ⟨staged.removes, fun _ => staged⟩

/-- A run whose staging directory has no place at all. -/
theorem keeps_of_unplaced
    (clear : ClearPaths foreign job.request.sourcePath (pipeline.stagingDirectory job.request) initial)
    (unplaced : initial.place? (pipeline.stagingDirectory job.request) = none) :
    Keeps own foreign pipeline job initial .admitted := by
  obtain ⟨fault, refused⟩ := place?_eq_none unplaced
  have refuses : ∀ found, AgreeOff foreign initial found →
      found.resolve .itself (pipeline.stagingDirectory job.request) = .error fault :=
    fun found agree => (resolve_of_agreeOff agree clear.toPlace).symm.trans refused
  have copies := @ClearPaths.confined_copyProject_of_refused foreign initial _ _ pipeline.filter fault
    clear refuses (dropSlashes_stagingPath _ _ _)
  refine Confined.widen (Confined.andThen copies ?_ ?_) fun _ => False.elim
  · rintro error after ⟨-, same⟩
    refine ⟨(@removes_of_error own foreign after _ fault fun found agree => ?_).1,
      (absurd · Bool.false_ne_true)⟩
    rw [Disk.find, refuses found ((same.mono fun _ => False.elim).trans agree)]
    rfl
  · rintro count after ⟨isOk, -⟩
    cases isOk

end VersionMatrix.Job
