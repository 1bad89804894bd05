import VersionMatrix.Proofs.Run.Trail

/-! What a run has shown when it ends: its states, its calls to the engine and its outcome agree,
whatever made it end and whatever the disk was at each of its operations. -/
namespace VersionMatrix

def Stage.workflow : List Stage := [.copying, .templating, .pulling, .building, .running]

def RunEvent.states (events : List RunEvent) : List RunState := events.filterMap RunEvent.state?

def RunEvent.calls (events : List RunEvent) : List RunEvent := events.filter RunEvent.isCall

namespace Job

variable {pipeline : Pipeline} {job : Job} {request : RunRequest} {events : List RunEvent}
  {image : String} {entered : List Stage} {count : Nat}

/-- The calls of a run that nothing stops, in their order. The build and the container get the same
image. -/
def callSequence (request : RunRequest) (image : String) (context : BuildContext)
    (container : String) : List RunEvent :=
  [.pull (baseReference request.baseImage request.version), .build image context,
    .run image request.testCommand, .remove container]

/-- How many calls a run may have made when it ends. A staging directory that cannot be packed ends
the run after the building stage was entered and before the build is asked for. -/
def callCounts : RunOutcome → List Nat
  | .ok _ => [4]
  | .error error =>
    match error.stage with
    | .validating | .copying | .templating => [0]
    | .pulling => [1]
    | .building => [1, 2]
    | .running => [3]

/-- A valid request has been run so far: it has entered some stages and made some calls. -/
structure Shown (request : RunRequest) (events : List RunEvent) (image : String)
    (entered : List Stage) (count : Nat) : Prop where
  named : imageName request = .ok image
  states : RunEvent.states events = .pending :: entered.map .active
  calls : ∃ context container,
    RunEvent.calls events = (callSequence request image context container).take count

/-- A run has ended after some stages. The last state tells its outcome, and a failure is that of
the last stage it entered. -/
structure History (request : RunRequest) (events : List RunEvent) (outcome : RunOutcome)
    (entered : List Stage) : Prop where
  inOrder : entered <+: Stage.workflow
  refused : entered = [] → ∃ source, imageName request = .error source
  states : RunEvent.states events = .pending :: entered.map .active ++ [.ofOutcome outcome]
  completed : ∀ result, outcome = .ok result →
    entered = Stage.workflow ∧ result.version = request.version
  failed : ∀ error, outcome = .error error →
    entered.getLastD .validating = error.stage ∧ error.version = request.version
  calls : ∃ image context container, (entered ≠ [] → imageName request = .ok image) ∧
    ∃ count ∈ callCounts outcome,
      RunEvent.calls events = (callSequence request image context container).take count

/-- What a run has shown when it is in a phase. -/
def Shows (request : RunRequest) (events : List RunEvent) : Phase → Prop
  | .admitted => events = []
  | .copying image => Shown request events image [] 0
  | .working stage _ after =>
    ∃ image, (stage = .copying ∧ after = .templating image ∧
        Shown request events image [.copying] 0) ∨
      (stage = .templating ∧ after = .pulling image ∧
        Shown request events image [.copying, .templating] 0)
  | .templating image => Shown request events image [.copying] 0
  | .pulling image => Shown request events image [.copying, .templating] 0
  | .pulled image _ | .building image =>
    Shown request events image [.copying, .templating, .pulling] 1
  | .built image _ | .running image =>
    Shown request events image [.copying, .templating, .pulling, .building] 2
  | .ran _ => ∃ image, Shown request events image Stage.workflow 3
  | .leaving outcome | .settled outcome => ∃ entered, History request events outcome entered

theorem states_append (first second : List RunEvent) :
    RunEvent.states (first ++ second) = RunEvent.states first ++ RunEvent.states second :=
  List.filterMap_append

theorem calls_append (first second : List RunEvent) :
    RunEvent.calls (first ++ second) = RunEvent.calls first ++ RunEvent.calls second :=
  List.filter_append ..

@[simp] theorem states_lines (lines : List String) :
    RunEvent.states (lines.map .line) = [] := by
  simp [RunEvent.states, RunEvent.state?]

@[simp] theorem calls_lines (lines : List String) :
    RunEvent.calls (lines.map .line) = [] := by
  simp [RunEvent.calls, RunEvent.isCall]

/-- Lines of output change neither the states nor the calls. -/
theorem Shown.quiet (shown : Shown request events image entered count) {more : List RunEvent}
    (states : RunEvent.states more = []) (calls : RunEvent.calls more = []) :
    Shown request (events ++ more) image entered count := by
  obtain ⟨context, container, made⟩ := shown.calls
  exact ⟨shown.named, by rw [states_append, shown.states, states, List.append_nil],
    context, container, by rw [calls_append, made, calls, List.append_nil]⟩

/-- A stage is entered before it makes a call. -/
theorem Shown.enter (shown : Shown request events image entered count) (stage : Stage) :
    Shown request (events ++ [.state (.active stage)]) image (entered ++ [stage]) count := by
  obtain ⟨context, container, made⟩ := shown.calls
  refine ⟨shown.named, ?_, context, container, ?_⟩
  · rw [states_append, shown.states]
    simp [RunEvent.states, RunEvent.state?]
  · rw [calls_append, made]
    simp [RunEvent.calls, RunEvent.isCall]

/-- The next call extends the sequence of calls. -/
theorem Shown.call (shown : Shown request events image entered count) (call : RunEvent)
    (silent : call.state? = none) (isCall : call.isCall = true)
    (next : ∀ context container, ∃ context' container',
      (callSequence request image context container).take count ++ [call] =
        (callSequence request image context' container').take (count + 1)) :
    Shown request (events ++ [call]) image entered (count + 1) := by
  obtain ⟨context, container, made⟩ := shown.calls
  obtain ⟨context', container', extended⟩ := next context container
  refine ⟨shown.named, ?_, context', container', ?_⟩
  · rw [states_append, shown.states]
    simp [RunEvent.states, silent]
  · rw [calls_append, made, ← extended]
    simp [RunEvent.calls, isCall]

/-- Reporting the last state ends the history of a run. -/
theorem Shown.leave (shown : Shown request events image entered count) {outcome : RunOutcome}
    (inOrder : entered <+: Stage.workflow) (proper : entered ≠ [])
    (completed : ∀ result, outcome = .ok result →
      entered = Stage.workflow ∧ result.version = request.version)
    (failed : ∀ error, outcome = .error error →
      entered.getLastD .validating = error.stage ∧ error.version = request.version)
    (counted : count ∈ callCounts outcome) :
    History request (events ++ [.state (.ofOutcome outcome)]) outcome entered := by
  obtain ⟨context, container, made⟩ := shown.calls
  refine ⟨inOrder, fun none => absurd none proper, ?_, completed, failed, image, context, container,
    fun _ => shown.named, count, counted, ?_⟩
  · rw [states_append, shown.states]
    simp [RunEvent.states, RunEvent.state?]
  · rw [calls_append, made]
    simp [RunEvent.calls, RunEvent.isCall]

/-- A stage that was entered last may fail. -/
theorem Shown.fail (shown : Shown job.request events image entered count) {stage : Stage}
    (inOrder : entered <+: Stage.workflow) (proper : entered ≠ [])
    (last : entered.getLastD .validating = stage) (source : StageError)
    (counted : count ∈ callCounts (.error (job.failure stage source))) :
    History job.request
      (events ++ [.state (.ofOutcome (.error (job.failure stage source)))])
      (.error (job.failure stage source)) entered := by
  refine shown.leave inOrder proper (fun _ isOk => by cases isOk) ?_ counted
  rintro _ ⟨⟩
  exact ⟨last, rfl⟩

/-- The events of a stream report no state. -/
theorem states_takeStream (verbose : Bool) (read : EventStream → StreamReading)
    (answer : Except EngineError EventStream) :
    RunEvent.states (takeStream verbose read answer).events = [] := by
  cases answer with
  | error error => rfl
  | ok stream => cases verbose <;> simp [takeStream, StageStep.ofReading, RunEvent.states,
      RunEvent.state?]

/-- The events of a stream are no calls. -/
theorem calls_takeStream (verbose : Bool) (read : EventStream → StreamReading)
    (answer : Except EngineError EventStream) :
    RunEvent.calls (takeStream verbose read answer).events = [] := by
  cases answer with
  | error error => rfl
  | ok stream => cases verbose <;> simp [takeStream, StageStep.ofReading, RunEvent.calls,
      RunEvent.isCall]

/-- Half a stage that only shows lines either goes on or fails the stage that was entered last. -/
theorem shows_proceed {α : Type} (shown : Shown job.request events image entered count)
    {stage : Stage} {disk : Disk} {more : List RunEvent} (states : RunEvent.states more = [])
    (calls : RunEvent.calls more = []) (inOrder : entered <+: Stage.workflow)
    (proper : entered ≠ []) (last : entered.getLastD .validating = stage)
    (counted : ∀ source, count ∈ callCounts (.error (job.failure stage source)))
    {result : Except StageError α} {next : α → Phase}
    (going : ∀ value, Shown job.request (events ++ more) image entered count →
      Shows job.request (events ++ more) (next value)) :
    Shows job.request (events ++ (proceed job stage disk more result next).events)
      (proceed job stage disk more result next).phase := by
  have quiet := shown.quiet states calls
  cases result with
  | ok value => exact going value quiet
  | error source =>
      refine ⟨entered, ?_⟩
      simp only [proceed, leave, ← List.append_assoc]
      exact quiet.fail inOrder proper last source (counted source)

/-- A container that ran to its end is removed, and the run is complete. -/
theorem shows_takeRun (shown : Shown job.request events image Stage.workflow 3) (disk : Disk)
    (answer : ContainerRun) :
    Shows job.request (events ++ (act pipeline job disk (.ran answer)).events)
      (act pipeline job disk (.ran answer)).phase := by
  refine ⟨Stage.workflow, ?_⟩
  have echoed := shown.quiet
    (states_lines (OutputCollector.writeAll { echo := job.request.verbose } answer.chunks).2)
    (calls_lines _)
  cases ending : answer.outcome with
  | error error =>
      simp only [act, takeRun, ending, leave, ← List.append_assoc]
      refine echoed.fail (List.prefix_refl _) (by decide) rfl _ ?_
      exact List.mem_singleton_self 3
  | ok exit =>
      have removed := echoed.call (.remove exit.container) rfl rfl
        fun context _ => ⟨context, exit.container, rfl⟩
      have flushed := removed.quiet
        (states_lines
          (OutputCollector.writeAll { echo := job.request.verbose } answer.chunks).1.finish)
        (calls_lines _)
      simp only [act, takeRun, ending, leave, ← List.append_assoc]
      refine Shown.leave (by simpa using flushed) (List.prefix_refl _) (by decide) ?_
        (fun _ isError => by cases isError) (List.mem_singleton_self 4)
      rintro _ ⟨⟩
      exact ⟨rfl, rfl⟩

/-- What a run has shown stays in step with its phase. -/
theorem shows_act {phase : Phase} (shows : Shows job.request events phase) (disk : Disk) :
    Shows job.request (events ++ (act pipeline job disk phase).events)
      (act pipeline job disk phase).phase := by
  cases phase with
  | admitted =>
      obtain rfl : events = [] := shows
      rw [act]
      split
      next source invalid =>
          refine ⟨[], List.nil_prefix, fun _ => ⟨source, invalid⟩, rfl,
            (fun _ isOk => by cases isOk), ?_, "", [], "", (fun proper => absurd rfl proper), 0,
            List.mem_singleton_self 0, rfl⟩
          rintro _ ⟨⟩
          exact ⟨rfl, rfl⟩
      next image named => exact ⟨named, rfl, [], "", rfl⟩
  | copying image => exact ⟨image, Or.inl ⟨rfl, rfl, Shown.enter shows .copying⟩⟩
  | templating image => exact ⟨image, Or.inr ⟨rfl, rfl, Shown.enter shows .templating⟩⟩
  | working stage rest after =>
      cases rest with
      | operate effect next => simpa [act, Shows] using shows
      | done result =>
          obtain ⟨image, ⟨rfl, rfl, shown⟩ | ⟨rfl, rfl, shown⟩⟩ := shows
          · exact shows_proceed shown rfl rfl (by decide) (by decide) rfl
              (by simp [callCounts, failure]) fun _ quiet => quiet
          · exact shows_proceed shown rfl rfl (by decide) (by decide) rfl
              (by simp [callCounts, failure]) fun _ quiet => quiet
  | pulling image =>
      have pulled := (Shown.enter shows .pulling).call
        (.pull (baseReference job.request.baseImage job.request.version)) rfl rfl
        fun context container => ⟨context, container, rfl⟩
      simpa [act, Shows] using pulled
  | pulled image answer =>
      exact shows_proceed shows (states_takeStream ..) (calls_takeStream ..) (by decide) (by decide)
        rfl (by simp [callCounts, failure]) fun _ quiet => quiet
  | building image =>
      have building := Shown.enter shows .building
      rw [act]
      split
      next source _ =>
          refine ⟨[.copying, .templating, .pulling, .building], ?_⟩
          simp only [leave, ← List.append_assoc]
          exact building.fail (by decide) (by decide) rfl source (by simp [callCounts, failure])
      next context _ =>
          have built := building.call (.build image context) rfl rfl
            fun _ container => ⟨context, container, rfl⟩
          simpa [Shows] using built
  | built image answer =>
      exact shows_proceed shows (states_takeStream ..) (calls_takeStream ..) (by decide) (by decide)
        rfl (by simp [callCounts, failure]) fun _ quiet => quiet
  | running image =>
      have ran := (Shown.enter shows .running).call (.run image job.request.testCommand) rfl rfl
        fun context container => ⟨context, container, rfl⟩
      exact ⟨image, by simpa [act, Stage.workflow] using ran⟩
  | ran answer =>
      obtain ⟨image, shown⟩ := shows
      exact shows_takeRun shown disk answer
  | leaving outcome => simpa [act, Shows] using shows
  | settled outcome => simpa [act, Shows] using shows

/-- A run shows at each point of its trail what its phase says. -/
theorem Trail.shows {meanwhile : Disk → Disk → Prop} {initial left : Disk} {phase : Phase}
    (trail : Trail pipeline job meanwhile initial events phase left) :
    Shows job.request events phase := by
  induction trail with
  | start => rfl
  | act prior changed ih => exact shows_act ih _

/-- A run that has settled has a history, whatever others did to the disk on its way. -/
theorem Trail.history {meanwhile : Disk → Disk → Prop} {initial left : Disk}
    {outcome : RunOutcome}
    (trail : Trail pipeline job meanwhile initial events (.settled outcome) left) :
    ∃ entered, History job.request events outcome entered :=
  trail.shows

/-- A run that has settled has a history, whatever went on beside it. -/
theorem Amid.history {outcome : RunOutcome} (amid : Amid pipeline job events (.settled outcome)) :
    ∃ entered, History job.request events outcome entered := by
  obtain ⟨initial, left, trail⟩ := amid
  exact trail.history

end Job

end VersionMatrix
