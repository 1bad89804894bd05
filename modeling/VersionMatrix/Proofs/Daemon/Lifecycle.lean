import VersionMatrix.Daemon.Client
import VersionMatrix.Pipeline.Run
import VersionMatrix.Proofs.Pipeline.Output

/-! The life of a test container, over every daemon. The engine removes a container that it could
not see to its end, the stage removes one that it could, and together they remove each one once. -/
namespace VersionMatrix.Daemon

variable (daemon : Daemon) (verbose : Bool) (image container : String) (command : List String)

/-- The testing stage as a whole: what is sent in both of its halves, and its verdict. -/
def test : Exchange (Except StageError TestVerdict) :=
  let step := takeRun verbose (daemon.engine.run image command).answer
  { requests := (RunEvent.run image command :: step.events).flatMap daemon.requestsOf
    result := step.result }

def created : Except ClientError String :=
  (daemon.send (.create image command)).bind containerId?

variable {daemon verbose image container command}

/-- A run in its testing stage sends what the stage sends, and leaves with its verdict. -/
theorem act_test (pipeline : Pipeline) (request : RunRequest) (asked answered : Disk) :
    let job : Job := { request, engine := daemon.engine }
    let first := job.act pipeline asked (.running image)
    let second := job.act pipeline answered first.phase
    let test := daemon.test request.verbose image request.testCommand
    (first.events ++ second.events).flatMap daemon.requestsOf = test.requests ∧
      second.phase = .leaving (match test.result with
        | .ok verdict =>
          .ok { version := request.version, success := verdict.success, output := verdict.output }
        | .error source => .error (job.failure .running source)) := by
  refine ⟨?_, rfl⟩
  simp [Job.act, Job.leave, test, requestsOf]

@[simp] theorem requestsOf_lines (lines : List String) :
    (lines.map RunEvent.line).flatMap daemon.requestsOf = [] := by
  simp [requestsOf, List.flatMap_map]

/-- A container that ran to its end is the one that was attended to. -/
theorem container_attend {exit : ContainerExit}
    (ended : (daemon.attend image container).result.outcome = .ok exit) :
    exit.container = container := by
  unfold attend at ended
  split at ended
  next => cases ended
  next =>
      split at ended
      next => cases ended
      next =>
          cases waited : daemon.wait container with
          | error error => simp [waited, Except.map] at ended
          | ok code =>
              rw [waited] at ended
              obtain rfl := Except.ok.inj ended
              rfl

/-- Without a container there is one request only, and nothing to remove. -/
theorem run_of_created_error {error : ClientError}
    (refused : daemon.created image command = .error error) :
    daemon.run image command =
      { requests := [.create image command]
        result :=
          { outcome := .error (.run image ("Failed to create container: " ++ error.message)) } } := by
  rw [created] at refused
  simp only [run, refused]

/-- A container that was created is attended to, and removed after a failure. -/
theorem run_of_created_ok (made : daemon.created image command = .ok container) :
    daemon.run image command =
      { requests := .create image command :: (daemon.attend image container).requests ++
          if (daemon.attend image container).result.outcome.isOk then [] else [.remove container]
        result := (daemon.attend image container).result } := by
  rw [created] at made
  simp only [run, made]

/-- What came of a container is what came of the first step with it that failed, or its end. -/
theorem outcome_attend :
    (daemon.attend image container).result.outcome = do
      let _ ← (daemon.send (.start container)).mapError fun error =>
        EngineError.run image ("Failed to start container: " ++ error.message)
      (daemon.output container).2.mapError fun error =>
        EngineError.run image ("Error reading output: " ++ error.message)
      let exitCode ← daemon.wait container
      return { exitCode, container } := by
  unfold attend
  cases daemon.send (.start container) with
  | error error => rfl
  | ok body =>
      obtain ⟨chunks, ended⟩ := daemon.output container
      cases ended <;> rfl

end VersionMatrix.Daemon
