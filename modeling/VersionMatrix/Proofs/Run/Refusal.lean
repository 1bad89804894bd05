import VersionMatrix.Proofs.Request
import VersionMatrix.Proofs.Run.History
import VersionMatrix.Proofs.Staging.Faults

/-! Requests that are refused. A run ends with a configuration error exactly if its request is refused,
and then it has touched neither the disk nor the engine. -/
namespace VersionMatrix

open DiskAction

/-- An error that is not one of the configuration. -/
abbrev Operational (error : StageError) : Prop := error.isConfiguration = false

namespace Job

variable {pipeline : Pipeline} {job : Job} {request : RunRequest} {events : List RunEvent}
  {phase : Phase} {image : String} {error : StageError} {disk : Disk}

/-- A request is refused with an error of configuration. -/
theorem isConfiguration_of_validate (refused : request.validate = .error error) :
    error.isConfiguration = true := by
  unfold RunRequest.validate at refused
  split at refused
  · cases refused
    rfl
  · split at refused
    · cases refused
      rfl
    · split at refused
      · cases refused
        rfl
      · cases refused

/-- An image name is refused with an error of configuration. -/
theorem isConfiguration_of_imageName (refused : imageName request = .error error) :
    error.isConfiguration = true := by
  rw [imageName] at refused
  cases valid : request.validate with
  | error error' =>
      rw [valid] at refused
      obtain rfl : error' = error := Except.error.inj refused
      exact isConfiguration_of_validate valid
  | ok _ =>
      rw [valid] at refused
      obtain ⟨-, rfl⟩ := substituteVersion_eq_error_iff.1 refused
      rfl

/-- A valid request has an image name, and no other request has one. -/
theorem exists_imageName_iff :
    (∃ image, imageName request = .ok image) ↔ request.validate = .ok () := by
  rw [imageName]
  cases valid : request.validate with
  | error error =>
      refine iff_of_false ?_ fun fine => by cases fine
      rintro ⟨_, named⟩
      cases named
  | ok _ =>
      obtain ⟨-, placeholder, -⟩ := RunRequest.validate_eq_ok_iff.1 valid
      exact iff_of_true (exists_substituteVersion_iff.2 placeholder) rfl

/-- The template of the image definition has been checked before anything else is done. -/
theorem hasPlaceholder_of_imageName (named : imageName request = .ok image) :
    hasPlaceholder request.dockerfileTemplate = true :=
  (RunRequest.validate_eq_ok_iff.1 (exists_imageName_iff.1 ⟨image, named⟩)).2.2

/-- The copy fails with operational errors only. -/
theorem raises_copyWork (pipeline : Pipeline) (job : Job) :
    (copyWork pipeline job).Raises Operational :=
  Raises.andThen (raises_copyProject (fun _ _ => rfl) _ _ _) fun _ => trivial

/-- Once there is an image name, the definition is written or fails with an operational error. -/
theorem raises_templateWork (named : imageName job.request = .ok image) :
    (templateWork pipeline job).Raises Operational :=
  Raises.andThen (raises_writeDockerfile (fun _ _ => rfl) (fun _ => rfl) _ _
    (hasPlaceholder_of_imageName named)) fun _ => trivial

theorem operational_of_readPull {stream : EventStream} (failed : (readPull stream).2 = .error error) :
    Operational error := by
  induction stream with
  | nil => cases failed
  | cons item rest ih =>
      cases item with
      | error engineError =>
          cases failed
          rfl
      | ok event => exact ih failed

theorem operational_of_readBuildFrom {lastError : Option String} {stream : EventStream}
    (failed : (readBuildFrom lastError stream).2 = .error error) : Operational error := by
  induction stream generalizing lastError with
  | nil =>
      cases lastError with
      | none => cases failed
      | some text =>
          cases failed
          rfl
  | cons item rest ih =>
      cases item with
      | error engineError =>
          cases failed
          rfl
      | ok event => exact ih failed

/-- A stream that ends in an error ends in an operational one, if its reading does. -/
theorem operational_of_takeStream {verbose : Bool} {read : EventStream → StreamReading}
    {answer : Except EngineError EventStream}
    (reads : ∀ stream, (read stream).2 = .error error → Operational error)
    (failed : (takeStream verbose read answer).result = .error error) : Operational error := by
  cases answer with
  | error engineError =>
      cases failed
      rfl
  | ok stream => exact reads stream failed

theorem operational_of_contextOf {staging : String}
    (failed : contextOf disk staging = .error error) : Operational error := by
  unfold contextOf at failed
  split at failed
  · exact kind_of_pack (fun _ _ => rfl) failed
  · cases failed
    rfl
  · cases failed
    rfl

/-- A configuration error is one of the validation, and the other way round. -/
def Blames (outcome : RunOutcome) : Prop :=
  ∀ error, outcome = .error error → (error.source.isConfiguration = true ↔ error.stage = .validating)

/-- A later stage that fails with an operational error blames no configuration. -/
theorem blames_failure {stage : Stage} (later : stage ≠ .validating) (operational : Operational error) :
    Blames (.error (job.failure stage error)) := by
  rintro _ ⟨⟩
  simp [failure, later, operational]

/-- What a run is still to do, or has ended with, does not blame the request for what came later. -/
def Fair : Phase → Prop
  | .working stage rest _ => stage ≠ .validating ∧ rest.Raises Operational
  | .leaving outcome | .settled outcome => Blames outcome
  | _ => True

theorem fair_proceed {α : Type} {stage : Stage} {more : List RunEvent} {result : Except StageError α}
    {next : α → Phase} (later : stage ≠ .validating) (going : ∀ value, Fair (next value))
    (fails : ∀ error, result = .error error → Operational error) :
    Fair (proceed job stage disk more result next).phase := by
  cases result with
  | ok value => exact going value
  | error source => exact blames_failure later (fails source rfl)

/-- The phase after the work on the disk is one in which nothing is settled. -/
theorem fair_after {stage : Stage} {rest : DiskAction Unit} {after : Phase}
    (shows : Shows request events (.working stage rest after)) : Fair after := by
  obtain ⟨image, ⟨-, rfl, -⟩ | ⟨-, rfl, -⟩⟩ := shows
  · exact trivial
  · exact trivial

/-- Each action of a run keeps it from blaming the request for what came later. -/
theorem fair_act (shows : Shows job.request events phase) (fair : Fair phase) (disk : Disk) :
    Fair (act pipeline job disk phase).phase := by
  cases phase with
  | admitted =>
      rw [act]
      split
      next source refused =>
          rintro _ ⟨⟩
          exact iff_of_true (isConfiguration_of_imageName refused) rfl
      next => exact trivial
  | copying image => exact ⟨by decide, raises_copyWork pipeline job⟩
  | templating image => exact ⟨by decide, raises_templateWork shows.named⟩
  | working stage rest after =>
      obtain ⟨later, raises⟩ := fair
      cases rest with
      | operate effect next => exact ⟨later, raises disk⟩
      | done result =>
          refine fair_proceed later (fun _ => fair_after shows) ?_
          rintro error rfl
          exact raises
  | pulled image answer =>
      exact fair_proceed (by decide) (fun _ => trivial)
        fun _ => operational_of_takeStream fun _ => operational_of_readPull
  | building image =>
      rw [act]
      split
      next source failed => exact blames_failure (by decide) (operational_of_contextOf failed)
      next => exact trivial
  | built image answer =>
      exact fair_proceed (by decide) (fun _ => trivial)
        fun _ => operational_of_takeStream fun _ => operational_of_readBuildFrom
  | ran answer =>
      unfold act
      cases ending : answer.outcome with
      | error engineError =>
          simp only [takeRun, ending]
          exact blames_failure (by decide) rfl
      | ok exit =>
          simp only [takeRun, ending]
          rintro _ ⟨⟩
  | leaving outcome => exact fair
  | settled outcome => exact fair
  | _ => exact trivial

/-- A run is fair at each point of its trail, since it is at the start and each action keeps it
so. -/
theorem Trail.fair {meanwhile : Disk → Disk → Prop} {initial left : Disk}
    (trail : Trail pipeline job meanwhile initial events phase left) : Fair phase := by
  induction trail with
  | start => exact trivial
  | act prior changed ih => exact fair_act prior.shows ih _

/-- A request that is refused is reported, and nothing else is done. -/
theorem solo_of_imageName (refused : imageName job.request = .error error) (disk : Disk) :
    Solo pipeline job disk [.state .pending, .state (.failed .validating error.message)]
      (.settled (.error (job.failure .validating error))) disk := by
  have step := @Solo.act pipeline job disk _ _ _ Trail.start
  rw [act, refused] at step
  exact step

/-- A run ends with a configuration error exactly if it fails in validation, as it does exactly if its
request is refused. Then the disk is as it was, whatever stood on it and whatever the policy, and no call
has been made to the engine. -/
theorem run_isConfiguration_iff (pipeline : Pipeline) (job : Job) (disk : Disk) :
    ∃ events outcome final, job.run pipeline disk = (events, .settled outcome, final) ∧
      ((∃ error, outcome = .error error ∧ error.stage = .validating) ↔
        ∃ source, imageName job.request = .error source) ∧
      ∀ error, outcome = .error error →
        (error.source.isConfiguration = true ↔ error.stage = .validating) ∧
          (error.source.isConfiguration = true → final = disk ∧ RunEvent.calls events = [] ∧
            imageName job.request = .error error.source) := by
  obtain ⟨events, outcome, final, settled, solo⟩ := exists_run_eq pipeline job disk
  obtain ⟨entered, history⟩ := solo.history
  have blames : Blames outcome := solo.fair
  have refusal : ∀ error, outcome = .error error → error.stage = .validating →
      ∃ source, imageName job.request = .error source := by
    intro error failed atValidation
    refine history.refused ?_
    have last := (history.failed error failed).1
    rw [atValidation] at last
    by_contra proper
    have member : entered.getLastD .validating ∈ entered := by
      rw [List.getLastD_eq_getLast?, List.getLast?_eq_some_getLast proper]
      exact List.getLast_mem proper
    rw [last] at member
    exact absurd (history.inOrder.subset member) (by decide)
  have refused : ∀ source, imageName job.request = .error source →
      events = [.state .pending, .state (.failed .validating source.message)] ∧
        outcome = .error (job.failure .validating source) ∧ final = disk :=
    fun source refused => solo.unique (solo_of_imageName refused disk)
  refine ⟨events, outcome, final, settled, ⟨?_, ?_⟩, fun error failed => ⟨blames error failed, ?_⟩⟩
  · rintro ⟨error, failed, atValidation⟩
    exact refusal error failed atValidation
  · rintro ⟨source, invalid⟩
    exact ⟨_, (refused source invalid).2.1, rfl⟩
  · intro isConfiguration
    obtain ⟨source, invalid⟩ := refusal error failed ((blames error failed).1 isConfiguration)
    obtain ⟨rfl, same, rfl⟩ := refused source invalid
    obtain rfl : error = job.failure .validating source := Except.error.inj (failed.symm.trans same)
    exact ⟨rfl, rfl, invalid⟩

end Job

end VersionMatrix
