import VersionMatrix.Proofs.Pipeline.Output
import VersionMatrix.Proofs.Run.History

/-! What it changes for a run that its request asks for the lines of output: the lines are shown,
and nothing else. The two runs are compared operation by operation, since a step of the one is the
step of the other without its lines. -/
namespace VersionMatrix

def RunEvent.muted (events : List RunEvent) : List RunEvent :=
  events.filter fun event => event.line? = none

namespace RunEvent

theorem muted_append (first second : List RunEvent) :
    muted (first ++ second) = muted first ++ muted second :=
  List.filter_append ..

theorem muted_cons (event : RunEvent) (events : List RunEvent) (heard : event.line? = none) :
    muted (event :: events) = event :: muted events :=
  List.filter_cons_of_pos (by simpa using heard)

theorem muted_singleton {event : RunEvent} (heard : event.line? = none) : muted [event] = [event] :=
  muted_cons event [] heard

@[simp] theorem muted_lines (lines : List String) : muted (lines.map .line) = [] := by
  simp [muted, line?]

/-- No line is left among muted events. -/
theorem line_notMem_muted (events : List RunEvent) (text : String) : .line text ∉ muted events := by
  simp [muted, line?]

/-- Muted events report the same states. -/
theorem states_muted (events : List RunEvent) : states (muted events) = states events := by
  rw [states, muted, List.filterMap_filter]
  refine List.filterMap_congr fun event _ => ?_
  cases event <;> rfl

/-- Muted events are the same calls. -/
theorem calls_muted (events : List RunEvent) : calls (muted events) = calls events := by
  rw [calls, muted, List.filter_filter]
  refine List.filter_congr fun event _ => ?_
  cases event <;> rfl

end RunEvent

def StageStep.muted {α : Type} (step : StageStep α) : StageStep α :=
  { step with events := RunEvent.muted step.events }

/-- A quiet run reads a stream as a loud one does, without its lines. -/
theorem takeStream_muted (read : EventStream → StreamReading)
    (answer : Except EngineError EventStream) :
    takeStream false read answer = (takeStream true read answer).muted := by
  cases answer with
  | error error => rfl
  | ok stream => simp [takeStream, StageStep.ofReading, StageStep.muted]

/-- The verdict does not depend on what is shown: the collector that shows lines holds the beginning
of a line back, but captures each chunk as a whole. -/
theorem takeRun_muted (answer : ContainerRun) :
    takeRun false answer = (takeRun true answer).muted := by
  have silent := OutputCollector.echo_writeAll { echo := false } answer.chunks
  unfold takeRun
  cases answer.outcome with
  | error error =>
      simp [StageStep.muted, OutputCollector.writeAll_of_not_echo]
  | ok exit =>
      have removal (after : List RunEvent) :
          RunEvent.muted (.remove exit.container :: after) =
            .remove exit.container :: RunEvent.muted after :=
        RunEvent.muted_cons _ after rfl
      simp [StageStep.muted, OutputCollector.writeAll_of_not_echo, RunEvent.muted_append, removal,
        OutputCollector.captured_writeAll, OutputCollector.finish_of_not_echo silent]

def RunStep.muted (step : RunStep) : RunStep :=
  { step with events := RunEvent.muted step.events }

namespace Job

def echoing (job : Job) (verbose : Bool) : Job :=
  { job with request := { job.request with verbose } }

variable (pipeline : Pipeline) (job : Job)

/-- A run leaves in the same way without its lines. -/
theorem muted_leave (disk : Disk) (events : List RunEvent) (outcome : RunOutcome) :
    leave disk (RunEvent.muted events) outcome = (leave disk events outcome).muted := by
  rw [leave, leave, RunStep.muted, RunEvent.muted_append, RunEvent.muted_singleton rfl]

/-- A run goes on in the same way without its lines. -/
theorem muted_proceed {α : Type} (stage : Stage) (disk : Disk) (events : List RunEvent)
    (result : Except StageError α) (next : α → Phase) :
    proceed job stage disk (RunEvent.muted events) result next =
      (proceed job stage disk events result next).muted := by
  cases result with
  | ok value => rfl
  | error source => exact muted_leave disk events _

/-- An operation of a run that shows no lines is that of one that shows them, without its lines. -/
theorem act_echoing (disk : Disk) (phase : Phase) :
    act pipeline (job.echoing false) disk phase =
      (act pipeline (job.echoing true) disk phase).muted := by
  cases phase with
  | admitted =>
      have same : imageName (job.echoing false).request = imageName (job.echoing true).request := rfl
      simp only [act, same]
      split <;> rfl
  | working stage rest after =>
      cases rest with
      | operate effect next => rfl
      | done result => exact muted_proceed job stage disk [] result fun _ => after
  | pulled image answer =>
      simp only [act, echoing, takeStream_muted, StageStep.muted]
      exact muted_proceed job .pulling disk _ _ fun _ => .building image
  | building image =>
      have same : contextOf disk (pipeline.stagingDirectory (job.echoing false).request) =
          contextOf disk (pipeline.stagingDirectory (job.echoing true).request) := rfl
      simp only [act, same]
      split <;> rfl
  | built image answer =>
      simp only [act, echoing, takeStream_muted, StageStep.muted]
      exact muted_proceed job .building disk _ _ fun _ => .running image
  | ran answer =>
      simp only [act, echoing, takeRun_muted, StageStep.muted, muted_leave]
      rfl
  | _ => rfl

/-- A quiet run settles in the same way without its lines. -/
theorem settle_echoing (step : RunStep) :
    settle pipeline (job.echoing false) step.muted =
      (settle pipeline (job.echoing true) step).muted := by
  obtain ⟨phase, disk, events, delay⟩ := step
  cases phase <;> rfl

/-- A quiet run completes a step in the same way without its lines. -/
theorem complete_echoing (step : RunStep) :
    complete pipeline (job.echoing false) step.muted =
      (complete pipeline (job.echoing true) step).muted := by
  obtain ⟨phase, disk, events, delay⟩ := step
  cases phase with
  | working stage rest after =>
      have proceeded := muted_proceed (job.echoing false) stage (rest.run disk).2 events
        (rest.run disk).1 fun _ => after
      simp only [complete, RunStep.muted, proceeded]
      exact settle_echoing pipeline job _
  | _ => rfl

/-- A quiet run is the loud one without its lines, over any number of steps. -/
theorem runFor_echoing (steps : Nat) (disk : Disk) (phase : Phase) :
    runFor pipeline (job.echoing false) steps disk phase =
      (RunEvent.muted (runFor pipeline (job.echoing true) steps disk phase).1,
        (runFor pipeline (job.echoing true) steps disk phase).2) := by
  induction steps generalizing disk phase with
  | zero => rfl
  | succ steps ih =>
      have step : advance pipeline (job.echoing false) disk phase =
          (advance pipeline (job.echoing true) disk phase).muted := by
        rw [advance, act_echoing, complete_echoing, advance]
      simp only [runFor, step, RunStep.muted, ih, RunEvent.muted_append]

/-- Whether a run shows lines is a side channel. With and without them it settles with the same
outcome and leaves the same disk, reports the same states and makes the same calls with the same
arguments, in the same order among each other; what the run without lines shows is what the other
one shows but for the lines, of which it shows none. -/
theorem run_echoing (disk : Disk) :
    ∃ loud quiet outcome final,
      (job.echoing true).run pipeline disk = (loud, .settled outcome, final) ∧
      (job.echoing false).run pipeline disk = (quiet, .settled outcome, final) ∧
      quiet = loud.filter (fun event => event.line? = none) ∧
      RunEvent.states quiet = RunEvent.states loud ∧
      RunEvent.calls quiet = RunEvent.calls loud ∧
      ∀ text, .line text ∉ quiet := by
  obtain ⟨loud, outcome, final, settled, -⟩ := exists_run_eq pipeline (job.echoing true) disk
  refine ⟨loud, RunEvent.muted loud, outcome, final, settled, ?_, rfl, RunEvent.states_muted loud,
    RunEvent.calls_muted loud, RunEvent.line_notMem_muted loud⟩
  rw [run] at settled ⊢
  rw [runFor_echoing, settled]

end Job

end VersionMatrix
