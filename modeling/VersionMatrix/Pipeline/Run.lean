import VersionMatrix.Config
import VersionMatrix.Pipeline.Stages
import VersionMatrix.Request
import VersionMatrix.Staging.Place

/-!
The run of one version, as a machine. Between two steps of a run other runs may take theirs, and
after a call to the engine time may pass.
-/

namespace VersionMatrix

/-- What all runs of an invocation share. -/
structure Pipeline where
  stagingRoot : String
  filter : CopyFilter := {}
  retain : RetainPolicy := {}
deriving DecidableEq, Repr

def Pipeline.stagingDirectory (pipeline : Pipeline) (request : RunRequest) : String :=
  stagingPath pipeline.stagingRoot request.projectName request.version

/-- A request, and the engine that its calls go to. -/
structure Job where
  request : RunRequest
  engine : Engine

/-- How far a run has come. From the copy on, a run knows the name of its image. While it is at work
on the disk it holds the rest of that work, and the phase to go on to. -/
inductive Phase where
  | admitted
  | copying (image : String)
  | working (stage : Stage) (rest : DiskAction Unit) (after : Phase)
  | templating (image : String)
  | pulling (image : String)
  | pulled (image : String) (answer : Except EngineError EventStream)
  | building (image : String)
  | built (image : String) (answer : Except EngineError EventStream)
  | running (image : String)
  | ran (answer : ContainerRun)
  | leaving (outcome : RunOutcome)
  | settled (outcome : RunOutcome)

namespace Phase

/-- The number of steps to the end at most, if the work on the disk is done in one step. -/
def rank : Phase → Nat
  | .admitted => 12
  | .copying _ => 11
  | .working _ _ after => after.rank + 1
  | .templating _ => 9
  | .pulling _ => 7
  | .pulled .. => 6
  | .building _ => 5
  | .built .. => 4
  | .running _ => 3
  | .ran _ => 2
  | .leaving _ => 1
  | .settled _ => 0

def outcome? : Phase → Option RunOutcome
  | .settled outcome => some outcome
  | _ => none

end Phase

/-- What a step of a run leads to: the next phase, the events of the step, the disk, and the
milliseconds until the next step. -/
structure RunStep where
  phase : Phase
  disk : Disk
  events : List RunEvent := []
  delay : Nat := 0

/-- The last state that a run reports. -/
def RunState.ofOutcome : RunOutcome → RunState
  | .ok result => .succeeded result.success
  | .error error => .failed error.stage error.source.message

namespace Job

def imageName (request : RunRequest) : Except StageError String := do
  request.validate
  substituteVersion request.imageNameTemplate request.version "image name"

/-- The run failed in a stage. -/
def failure (job : Job) (stage : Stage) (source : StageError) : RunError :=
  { version := job.request.version, stage, source }

/-- Reports the last state of a run. What is left then is its staging directory. -/
def leave (disk : Disk) (events : List RunEvent) (outcome : RunOutcome) : RunStep :=
  { phase := .leaving outcome, disk, events := events ++ [.state (.ofOutcome outcome)] }

/-- The disk after a run has left: its staging directory is removed unless the policy keeps it. -/
def release (pipeline : Pipeline) (job : Job) (disk : Disk) (outcome : RunOutcome) : Disk :=
  if pipeline.retain.retains outcome.isOk then disk
  else (disk.removeTree (pipeline.stagingDirectory job.request)).2

/-- Goes on to the next phase after half a stage, or leaves with its error. -/
def proceed {α : Type} (job : Job) (stage : Stage) (disk : Disk) (events : List RunEvent)
    (result : Except StageError α) (next : α → Phase) : RunStep :=
  match result with
  | .ok value => { phase := next value, disk, events }
  | .error source => leave disk events (.error (job.failure stage source))

def copyWork (pipeline : Pipeline) (job : Job) : DiskAction Unit := do
  let _ ← copyProject job.request.sourcePath (pipeline.stagingDirectory job.request)
    pipeline.filter
  return ()

def templateWork (pipeline : Pipeline) (job : Job) : DiskAction Unit := do
  let _ ← writeDockerfile (pipeline.stagingDirectory job.request) job.request.version
    job.request.dockerfileTemplate
  return ()

/-- The next operation of a run: at most one operation on the disk and one call to the engine. A
settled run stays as it is. -/
def act (pipeline : Pipeline) (job : Job) (disk : Disk) : Phase → RunStep
  | .admitted =>
    match imageName job.request with
    | .error source =>
      { phase := .settled (.error (job.failure .validating source)), disk
        events := [.state .pending, .state (.failed .validating source.message)] }
    | .ok image => { phase := .copying image, disk, events := [.state .pending] }
  | .copying image =>
    { phase := .working .copying (copyWork pipeline job) (.templating image), disk
      events := [.state (.active .copying)] }
  | .working stage (.operate effect next) after =>
    { phase := .working stage (next disk) after, disk := effect disk }
  | .working stage (.done result) after => proceed job stage disk [] result fun _ => after
  | .templating image =>
    { phase := .working .templating (templateWork pipeline job) (.pulling image), disk
      events := [.state (.active .templating)] }
  | .pulling image =>
    let reference := baseReference job.request.baseImage job.request.version
    let reply := job.engine.pull reference
    { phase := .pulled image reply.answer, disk, delay := reply.delay
      events := [.state (.active .pulling), .pull reference] }
  | .pulled image answer =>
    let step := takeStream job.request.verbose readPull answer
    proceed job .pulling disk step.events step.result fun _ => .building image
  | .building image =>
    match contextOf disk (pipeline.stagingDirectory job.request) with
    | .error source =>
      leave disk [.state (.active .building)] (.error (job.failure .building source))
    | .ok context =>
      let reply := job.engine.build context image
      { phase := .built image reply.answer, disk, delay := reply.delay
        events := [.state (.active .building), .build image context] }
  | .built image answer =>
    let step := takeStream job.request.verbose readBuild answer
    proceed job .building disk step.events step.result fun _ => .running image
  | .running image =>
    let reply := job.engine.run image job.request.testCommand
    { phase := .ran reply.answer, disk, delay := reply.delay
      events := [.state (.active .running), .run image job.request.testCommand] }
  | .ran answer =>
    let step := takeRun job.request.verbose answer
    leave disk step.events <|
      match step.result with
      | .ok verdict =>
        .ok
          { version := job.request.version, success := verdict.success, output := verdict.output }
      | .error source => .error (job.failure .running source)
  | .leaving outcome => { phase := .settled outcome, disk := release pipeline job disk outcome }
  | .settled outcome => { phase := .settled outcome, disk }

/-- Lets a step that ends with a last state settle at once. -/
def settle (pipeline : Pipeline) (job : Job) (step : RunStep) : RunStep :=
  match step.phase with
  | .leaving outcome =>
    { phase := .settled outcome, disk := release pipeline job step.disk outcome
      events := step.events }
  | _ => step

/-- Lets a step that ends amid work on the disk finish the work with nothing in between. -/
def complete (pipeline : Pipeline) (job : Job) (step : RunStep) : RunStep :=
  match step.phase with
  | .working stage rest after =>
    let (result, disk) := rest.run step.disk
    settle pipeline job (proceed job stage disk step.events result fun _ => after)
  | _ => settle pipeline job step

/-- One step of a run when nothing comes in between its operations on the disk. -/
def advance (pipeline : Pipeline) (job : Job) (disk : Disk) (phase : Phase) : RunStep :=
  complete pipeline job (act pipeline job disk phase)

/-- At most `steps` steps of a run, with nothing in between. -/
def runFor (pipeline : Pipeline) (job : Job) :
    (steps : Nat) → Disk → Phase → List RunEvent × Phase × Disk
  | 0, disk, phase => ([], phase, disk)
  | steps + 1, disk, phase =>
    let step := advance pipeline job disk phase
    let (events, last, disk) := runFor pipeline job steps step.disk step.phase
    (step.events ++ events, last, disk)

/-- A whole run, with nothing in between: its events, the phase that it ends in, and the disk. -/
def run (pipeline : Pipeline) (job : Job) (disk : Disk) : List RunEvent × Phase × Disk :=
  runFor pipeline job Phase.admitted.rank disk .admitted

end Job

end VersionMatrix
