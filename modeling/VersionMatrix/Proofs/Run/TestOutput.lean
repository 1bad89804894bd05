import VersionMatrix.Proofs.Pipeline.Output
import VersionMatrix.Proofs.Run.History

/-! What a run shows of the output of its tests while they run. A run that asks for lines shows all of
them, whatever the disk and the engine did on the way, and any other run shows none. -/
namespace VersionMatrix

namespace RunEvent

/-- Whether the tests are started by an event. -/
def startsTests : RunEvent → Bool
  | .run _ _ => true
  | _ => false

/-- The lines that are shown from the start of the tests on. -/
def testLines (events : List RunEvent) : List String :=
  (events.dropWhile fun event => !event.startsTests).filterMap line?

/-- The lines of the tests are those that follow their start. -/
theorem testLines_start {before : List RunEvent}
    (idle : ∀ event ∈ before, event.startsTests = false) (image : String) (command : List String)
    (after : List RunEvent) :
    testLines (before ++ .run image command :: after) = after.filterMap line? := by
  have dropped : before.dropWhile (fun event => !event.startsTests) = [] := by
    simpa using idle
  rw [testLines, List.dropWhile_append, dropped]
  rfl

@[simp] theorem filterMap_line?_lines (lines : List String) :
    (lines.map RunEvent.line).filterMap line? = lines := by
  simp [line?, Function.comp_def]

/-- The lines are shown in their order among the other events. -/
theorem testLines_sublist (events : List RunEvent) :
    ((testLines events).map RunEvent.line).Sublist events := by
  refine List.Sublist.trans ?_ (List.dropWhile_sublist fun event => !event.startsTests)
  rw [testLines]
  generalize events.dropWhile _ = rest
  induction rest with
  | nil => exact List.Sublist.slnil
  | cons event rest ih =>
      cases event with
      | line text => exact ih.cons_cons _
      | _ => exact ih.cons _

theorem startsTests_of_calls {events : List RunEvent} {reference tag : String}
    {context : BuildContext}
    (calls : RunEvent.calls events = [.pull reference, .build tag context]) :
    ∀ event ∈ events, event.startsTests = false := by
  intro event member
  cases event with
  | run image command =>
      have called : .run image command ∈ RunEvent.calls events := List.mem_filter.2 ⟨member, rfl⟩
      rw [calls] at called
      simp at called
  | _ => rfl

end RunEvent

/-- The tests of a container that ran to its end are shown as far as they are captured. -/
theorem lines_takeRun {verbose : Bool} {run : ContainerRun} {verdict : TestVerdict}
    (ended : (takeRun verbose run).result = .ok verdict) :
    (takeRun verbose run).events.filterMap RunEvent.line? =
      if verbose then OutputCollector.shownLines verdict.output else [] := by
  unfold takeRun at ended ⊢
  cases outcome : run.outcome with
  | error error => simp [outcome] at ended
  | ok exit =>
      simp only [outcome, Except.ok.injEq] at ended ⊢
      subst ended
      have lines (first second : List String) :
          (first.map RunEvent.line ++
            .remove exit.container :: second.map RunEvent.line).filterMap RunEvent.line? =
              first ++ second := by
        rw [List.filterMap_append, RunEvent.filterMap_line?_lines]
        exact congrArg (first ++ ·) (RunEvent.filterMap_line?_lines second)
      rw [lines]
      cases verbose with
      | true =>
          rw [OutputCollector.lines_writeAll rfl List.not_mem_nil]
          simp [OutputCollector.captured_writeAll, OutputCollector.shownLines]
      | false =>
          have silent := OutputCollector.echo_writeAll { echo := false } run.chunks
          simp [OutputCollector.writeAll_of_not_echo, OutputCollector.finish_of_not_echo silent]

namespace Job

variable {pipeline : Pipeline} {job : Job} {events : List RunEvent}

/-- What a run in a phase has shown of its tests. A run that has ended has shown all of their output if
its request asks for lines, and nothing of it otherwise. -/
def Echoes (request : RunRequest) (events : List RunEvent) : Phase → Prop
  | .ran _ => ∃ before image command,
    (∀ event ∈ before, event.startsTests = false) ∧ events = before ++ [.run image command]
  | .leaving outcome | .settled outcome => ∀ result, outcome = .ok result →
    RunEvent.testLines events =
      if request.verbose then OutputCollector.shownLines result.output else []
  | _ => True

theorem echoes_proceed {α : Type} {stage : Stage} {disk : Disk} {more : List RunEvent}
    {result : Except StageError α} {next : α → Phase}
    (going : ∀ value, Echoes job.request events (next value)) :
    Echoes job.request events (proceed job stage disk more result next).phase := by
  cases result with
  | ok value => exact going value
  | error source => exact fun _ completed => by cases completed

/-- Each action of a run shows what it should of the tests. -/
theorem echoes_act {phase : Phase} (shows : Shows job.request events phase)
    (echoes : Echoes job.request events phase) (disk : Disk) :
    Echoes job.request (events ++ (act pipeline job disk phase).events)
      (act pipeline job disk phase).phase := by
  cases phase with
  | admitted =>
      rw [act]
      split
      next => exact fun _ completed => by cases completed
      next => trivial
  | working stage rest after =>
      cases rest with
      | operate effect next => trivial
      | done result =>
          obtain ⟨image, ⟨-, rfl, -⟩ | ⟨-, rfl, -⟩⟩ := shows
          · exact echoes_proceed fun _ => trivial
          · exact echoes_proceed fun _ => trivial
  | pulled image answer => exact echoes_proceed fun _ => trivial
  | building image =>
      rw [act]
      split
      next => exact fun _ completed => by cases completed
      next => trivial
  | built image answer => exact echoes_proceed fun _ => trivial
  | running image =>
      obtain ⟨context, container, calls⟩ := shows.calls
      refine ⟨events ++ [.state (.active .running)], image, job.request.testCommand, ?_, ?_⟩
      · intro event member
        rcases List.mem_append.1 member with earlier | fresh
        · exact RunEvent.startsTests_of_calls calls event earlier
        · rw [List.mem_singleton.1 fresh]
          rfl
      · simp [act]
  | ran answer =>
      obtain ⟨before, image, command, idle, rfl⟩ := echoes
      rintro result completed
      cases verdict : (takeRun job.request.verbose answer).result with
      | error source => simp [verdict] at completed
      | ok verdict' =>
          simp only [verdict, Except.ok.injEq] at completed
          subst completed
          simp only [act, leave, List.append_assoc, List.singleton_append]
          rw [RunEvent.testLines_start idle, List.filterMap_append, lines_takeRun verdict]
          simp [RunEvent.line?]
  | leaving outcome => simpa [act, Echoes] using echoes
  | settled outcome => simpa [act, Echoes] using echoes
  | _ => trivial

/-- At each point of its trail a run has shown what it should of its tests. -/
theorem Trail.echoes {meanwhile : Disk → Disk → Prop} {initial left : Disk} {phase : Phase}
    (trail : Trail pipeline job meanwhile initial events phase left) :
    Echoes job.request events phase := by
  induction trail with
  | start => trivial
  | act prior changed ih => exact echoes_act prior.shows ih _

/-- Of a run that came to its end all test output has been shown, or none, as its request asked for. -/
theorem Amid.testLines {result : RunResult} (amid : Amid pipeline job events (.settled (.ok result))) :
    RunEvent.testLines events =
      if job.request.verbose then OutputCollector.shownLines result.output else [] := by
  obtain ⟨initial, left, trail⟩ := amid
  exact trail.echoes result rfl

end Job

end VersionMatrix
