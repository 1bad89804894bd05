import VersionMatrix.Proofs.CommandLine.Preflight
import VersionMatrix.Proofs.Display.Summary
import VersionMatrix.Proofs.Run.TestOutput

/-! What an invocation prints of the output of its tests. Whether a run shows lines is decided with its
request, and whether the final results repeat them is decided with the view; that nothing is lost and
nothing is printed twice hangs on these two going together. -/
namespace VersionMatrix

namespace View

variable (view : View) (colors : Bool) (log : List LogRow)

/-- The texts that show a log, one after the other. -/
def pieces : List String :=
  match view with
  | .lines _ => log.map fun row => line colors row.version row.event
  | .board => [clear, frames { colors } log]
  | .quiet => []

/-- A log is shown by its pieces, one after the other. -/
theorem render_eq : view.render colors log = String.join (view.pieces colors log) := by
  cases view <;> simp [render, pieces, String.join]

/-- The lines of the output of its tests that are shown of a run while it runs. -/
def live (events : List RunEvent) : List String :=
  match view with
  | .lines _ => RunEvent.testLines events
  | _ => []

end View

/-- The failed versions whose output is repeated in the final results. -/
def Report.repeated (report : Report) (streamed : Bool) : List FailedVersion :=
  if streamed then [] else report.failed.filter fun failed => !Text.isBlank failed.output

/-- The results end in the outputs that are repeated, and are the same without them. -/
theorem Summary.render_eq (report : Report) (colors streamed : Bool) :
    Summary.render report colors streamed =
      Summary.render report colors true ++
        String.join ((report.repeated streamed).map (Summary.outputBlock colors)) := by
  cases streamed <;> simp [Summary.render, Report.repeated, String.append_assoc]

namespace Report

variable {outcomes : List RunOutcome} {startedAt finishedAt : Instant} {version output : String}

theorem filter_eq_singleton {α β : Type} [DecidableEq β] (key : α → β) {list : List α} {element : α}
    (distinct : (list.map key).Nodup) (member : element ∈ list) :
    list.filter (fun other => key other = key element) = [element] := by
  induction list with
  | nil => cases member
  | cons first rest ih =>
      obtain ⟨fresh, others⟩ := List.nodup_cons.1 distinct
      rcases List.mem_cons.1 member with rfl | later
      · have none : rest.filter (fun other => key other = key element) = [] := by
          refine List.filter_eq_nil_iff.2 fun other there same => fresh ?_
          exact of_decide_eq_true same ▸ List.mem_map_of_mem there
        rw [List.filter_cons_of_pos (by simp), none]
      · have different : key first ≠ key element := fun same =>
          fresh (same ▸ List.mem_map_of_mem later)
        rw [List.filter_cons_of_neg (by simpa using different), ih others later]

/-- The output of a version whose tests failed is repeated once, unless it is blank or was streamed. -/
theorem repeated_version (distinct : (outcomes.map RunOutcome.version).Nodup)
    (listed : .ok ⟨version, false, output⟩ ∈ outcomes) (streamed : Bool) :
    ((ofOutcomes outcomes startedAt finishedAt).repeated streamed).filter (·.version = version) =
      if streamed || Text.isBlank output then [] else [⟨version, output, none⟩] := by
  cases streamed with
  | true => rfl
  | false =>
      have failed : ⟨version, output, none⟩ ∈ (ofOutcomes outcomes startedAt finishedAt).failed :=
        List.mem_filterMap.2 ⟨_, listed, rfl⟩
      have once := filter_eq_singleton (·.version)
        (distinct.sublist (failed_sublist outcomes startedAt finishedAt)) failed
      simp only [repeated, Bool.false_eq_true, if_false, Bool.false_or]
      rw [List.filter_comm, once]
      cases blank : Text.isBlank output <;> simp [blank]

end Report

/-- Whether the runs of an invocation show lines: on request, or if there is a single one. -/
def RunArguments.loud (arguments : RunArguments) : Bool :=
  arguments.verbose || arguments.tested.length == 1

/-- There is always a version to test. -/
theorem RunArguments.tested_ne_nil (arguments : RunArguments) : arguments.tested ≠ [] := by
  have named : arguments.named ≠ [] := by
    rw [named]
    split
    next => decide
    next given => simpa using given
  obtain ⟨version, rest, listed⟩ := List.exists_cons_of_ne_nil named
  have member : version ∈ arguments.tested := by
    rw [tested, ← RunArguments.named, listed]
    exact List.mem_eraseDups.2 List.mem_cons_self
  exact List.ne_nil_of_mem member

namespace Session

variable {host : Host} {arguments : RunArguments} {plan : Plan} {jobs : List Job}
  {schedule : Schedule}

section

variable (made : Plan.make host arguments = .ok plan)

include made

/-- All requests of a plan are as loud as the arguments ask for. -/
theorem verbose_of_make {request : RunRequest} (asked : request ∈ plan.requests) :
    request.verbose = arguments.loud := by
  obtain ⟨⟨project, template, settled⟩, -⟩ := Plan.settled_of_make made
  obtain ⟨model, listed, loud, -⟩ := exists_model_of_requestsFor settled.requested
  rw [listed] at asked
  obtain ⟨version, -, rfl⟩ := List.mem_map.1 asked
  exact loud

/-- Which view is chosen, as long as no JSON is asked for: loud runs are shown line by line, and
quiet ones on a board if there is a terminal. -/
theorem viewOf_eq (plainly : arguments.json = false) :
    viewOf host arguments plan =
      if arguments.loud then .lines true else if host.terminal then .board else .lines false := by
  have length := congrArg List.length (Plan.versions_of_make made)
  rw [List.length_map] at length
  simp [viewOf, View.select, plainly, length, RunArguments.loud, or_comm]

/-- The view streams output exactly if the runs are loud. -/
theorem streamsOutput_viewOf (plainly : arguments.json = false) :
    (viewOf host arguments plan).streamsOutput = arguments.loud := by
  rw [viewOf_eq made plainly]
  cases arguments.loud <;> cases host.terminal <;> rfl

/-- The view and the requests agree on whether output is shown live. -/
theorem streamsOutput_iff (plainly : arguments.json = false) :
    (viewOf host arguments plan).streamsOutput = true ↔
      ∀ request ∈ plan.requests, request.verbose = true := by
  rw [streamsOutput_viewOf made plainly]
  constructor
  · intro loud request asked
    rw [verbose_of_make made asked, loud]
  · intro verbose
    have some : plan.requests ≠ [] := by
      intro none
      have versions := Plan.versions_of_make made
      rw [none] at versions
      exact arguments.tested_ne_nil versions.symm
    obtain ⟨request, asked⟩ := List.exists_mem_of_ne_nil _ some
    rw [← verbose_of_make made asked, verbose request asked]

end

/-- What an invocation prints that is not asked for JSON: its progress, one line for each version, and the
outputs that are repeated. -/
theorem output_conclude (plainly : arguments.json = false) :
    let view := viewOf host arguments plan
    let report := Report.ofOutcomes schedule.outcomes host.startedAt host.finishedAt
    ∃ passed failed, List.Forall₂ (Summary.PassedLine host.terminal) report.passed passed ∧
      List.Forall₂ (Summary.FailedLine host.terminal) report.failed failed ∧
      (conclude host arguments plan schedule).output =
        String.join (view.pieces host.terminal schedule.log ++
          ("\n" ++ Summary.heading report) :: (passed ++ failed).map (· ++ "\n") ++
          (report.repeated view.streamsOutput).map fun failed =>
            Tone.blue.paint ("\n--- Output for version " ++ failed.version ++ " ---") host.terminal ++
              "\n" ++ Text.trimEnd failed.output ++ "\n") := by
  intro view report
  obtain ⟨passed, failed, passes, fails, lines⟩ := Summary.exists_resultLines report host.terminal
  refine ⟨passed, failed, passes, fails, ?_⟩
  show _ = String.join (view.pieces host.terminal schedule.log ++
    ("\n" ++ Summary.heading report) :: (passed ++ failed).map (· ++ "\n") ++
    (report.repeated view.streamsOutput).map (Summary.outputBlock host.terminal))
  simp only [conclude, reportText, plainly, Bool.false_eq_true, if_false]
  rw [View.render_eq, Summary.render_eq, lines, String.join_append, String.join_append,
    String.join_cons, ← String.append_assoc]

/-- The lines that are shown of a run are among what is printed, in their order. -/
theorem live_sublist {slots : Nat} {disk : Disk} {place : Nat} {job : Job}
    (reached : Schedule.Reaches plan.pipeline (Schedule.start slots disk jobs) schedule)
    (there : jobs[place]? = some job) (view : View) (colors : Bool) :
    ((view.live (schedule.eventsAt place)).map fun line =>
      job.request.version ++ "\t| " ++ line ++ "\n").Sublist (view.pieces colors schedule.log) := by
  cases view with
  | lines verbose =>
      have shown := (RunEvent.testLines_sublist (schedule.eventsAt place)).map
        (View.line colors job.request.version)
      have same : (schedule.eventsAt place).map (View.line colors job.request.version) =
          (schedule.log.filter (·.place == place)).map
            fun row => View.line colors row.version row.event := by
        rw [Schedule.eventsAt, List.map_map]
        refine List.map_congr_left fun row picked => ?_
        obtain ⟨logged, here⟩ := List.mem_filter.1 picked
        obtain ⟨job', there', version⟩ := Schedule.version_of_mem_log reached logged
        rw [eq_of_beq here, there] at there'
        rw [← version, ← Option.some.inj there']
        rfl
      rw [same, List.map_map] at shown
      exact shown.trans (List.filter_sublist.map _)
  | board => exact List.nil_sublist _
  | quiet => exact List.nil_sublist _

/-- The output of tests that failed is shown live or repeated in the final results, as the run was loud
or not, and either way nothing of it is lost. -/
theorem shown_once {view : View} {loud : Bool} {events : List RunEvent} {output : String}
    (streams : view = if loud then .lines true else if host.terminal then .board else .lines false)
    (shown : RunEvent.testLines events =
      if loud then OutputCollector.shownLines output else []) :
    let later := if loud || Text.isBlank output then [] else [Text.trimEnd output]
    (view.live events = [] ∨ later = []) ∧
      (view.live events ++ later).flatMap Text.filledLines = Text.filledLines output := by
  cases loud with
  | true =>
      have live : view.live events = OutputCollector.shownLines output := by
        rw [streams, if_pos rfl, View.live, shown, if_pos rfl]
      simp [live, OutputCollector.flatMap_filledLines_shownLines]
  | false =>
      have live : view.live events = [] := by
        rw [streams]
        cases host.terminal with
        | true => rfl
        | false => exact shown
      cases blank : Text.isBlank output with
      | true => simp [live, Text.filledLines_of_isBlank blank]
      | false => simp [live, Text.filledLines_trimEnd]

/-- What an invocation prints of its test output. Unless it is asked for JSON, its view streams output
exactly if all of its requests are verbose, and what it prints is the pieces of its progress, a line of
results for each version, and the outputs that are repeated, each under a header. Whenever the tests of a
version have failed, in any order in which the runs take their steps and whatever the daemon answers, each
line of their output that is not blank is printed once: all of them are shown live, each behind the version
on a line of its own, or else all of them are repeated behind the results, in their order and up to white
space at their ends. -/
theorem run_shows (host : Host) (arguments : RunArguments) (plainly : arguments.json = false) :
    (∀ success, (run host (.test arguments)).ending = .finished success →
      ∃ plan schedule, Plan.make host arguments = .ok plan ∧
        plan.Ran host.disk (plan.jobs host.daemon.engine) schedule ∧
        run host (.test arguments) = conclude host arguments plan schedule) ∧
    ∀ plan jobs schedule, Plan.make host arguments = .ok plan → plan.Ran host.disk jobs schedule →
      let view := viewOf host arguments plan
      let pieces := view.pieces host.terminal schedule.log
      let report := Report.ofOutcomes schedule.outcomes host.startedAt host.finishedAt
      let repeated := report.repeated view.streamsOutput
      (view.streamsOutput = true ↔ ∀ request ∈ plan.requests, request.verbose = true) ∧
      (∃ passed failed, List.Forall₂ (Summary.PassedLine host.terminal) report.passed passed ∧
        List.Forall₂ (Summary.FailedLine host.terminal) report.failed failed ∧
        (conclude host arguments plan schedule).output =
          String.join (pieces ++
            ("\n" ++ Summary.heading report) :: (passed ++ failed).map (· ++ "\n") ++
            repeated.map fun failed =>
              Tone.blue.paint ("\n--- Output for version " ++ failed.version ++ " ---")
                host.terminal ++ "\n" ++ Text.trimEnd failed.output ++ "\n")) ∧
      ∀ place version output,
        schedule.outcomes[place]? = some (.ok ⟨version, false, output⟩) →
        let live := view.live (schedule.eventsAt place)
        let later := (repeated.filter (·.version = version)).map fun failed =>
          Text.trimEnd failed.output
        (live.map fun line => version ++ "\t| " ++ line ++ "\n").Sublist pieces ∧
        (live = [] ∨ later = []) ∧
        (live ++ later).flatMap Text.filledLines = Text.filledLines output := by
  refine ⟨fun _ => exists_ran_of_finished, fun plan jobs schedule made ran => ?_⟩
  intro view pieces report repeated
  refine ⟨streamsOutput_iff made plainly, output_conclude plainly, ?_⟩
  intro place version output listed live later
  obtain ⟨slots, reached⟩ := ran.reached
  have accounts := (Schedule.accounts_start_amid slots host.disk jobs).reaches
    Schedule.kept_amid reached
  -- The outcome is that of the run at its place, which carries the version.
  have inRange : place < jobs.length :=
    accounts.length_outcomes ran.ended ▸ (List.getElem?_eq_some_iff.1 listed).1
  have there : jobs[place]? = some jobs[place] := List.getElem?_eq_getElem inRange
  obtain ⟨outcome, found, amid⟩ := accounts.outcome ran.ended there
  obtain rfl := Option.some.inj (found.symm.trans listed)
  have named : version = jobs[place].request.version := Schedule.version_of_amid amid
  -- Its request is one of the plan, and so is as loud as the view.
  have asked : jobs[place].request ∈ plan.requests :=
    ran.requests ▸ List.mem_map_of_mem (List.getElem_mem inRange)
  have shown := amid.testLines
  rw [verbose_of_make made asked] at shown
  obtain ⟨once, kept⟩ := shown_once (viewOf_eq made plainly) shown
  have distinct : (schedule.outcomes.map RunOutcome.version).Nodup := by
    rw [Schedule.version_outcomes reached ran.ended, ran.versions made]
    exact nodup_eraseDups _
  have apart : later = if arguments.loud || Text.isBlank output then []
      else [Text.trimEnd output] := by
    simp only [later, repeated, report, view]
    rw [Report.repeated_version distinct (List.mem_of_getElem? listed),
      streamsOutput_viewOf made plainly]
    split <;> rfl
  refine ⟨?_, apart ▸ once, apart ▸ kept⟩
  rw [named]
  exact live_sublist reached there view host.terminal

/-- A host whose tests fail and have something to say. -/
def talkingHost : Host :=
  { bareHost with
    daemon := (daemonOfStatus 3).map fun answer request =>
      match request with
      | .logs _ => { status := 200, body := Text.utf8 "one\r\n\n two \n\n" }
      | _ => answer request }

/-- Of two versions that are tested on a terminal, the lines of the second are printed once: behind the
results, or while its tests run if that is asked for. -/
theorem exists_shown_talkingHost :
    let host : Host := { talkingHost with terminal := true }
    let arguments (verbose : Bool) : RunArguments :=
      { versions := ["1", "2"], path := "/proj", verbose }
    (∃ plan schedule, Plan.make host (arguments false) = .ok plan ∧
      plan.Ran host.disk (plan.jobs host.daemon.engine) schedule ∧
      let view := viewOf host (arguments false) plan
      let report := Report.ofOutcomes schedule.outcomes host.startedAt host.finishedAt
      let live := view.live (schedule.eventsAt 1)
      let later := ((report.repeated view.streamsOutput).filter (·.version = "2")).map
        fun failed => Text.trimEnd failed.output
      (live = [] ∨ later = []) ∧
        (live ++ later).flatMap Text.filledLines = ["one", " two"]) ∧
    ∃ plan schedule, Plan.make host (arguments true) = .ok plan ∧
      plan.Ran host.disk (plan.jobs host.daemon.engine) schedule ∧
      ["2\t| one\n", "2\t|  two \n"].Sublist
        ((viewOf host (arguments true) plan).pieces true schedule.log) := by
  intro host arguments
  have outcome : ∀ verbose, (run host (.test (arguments verbose))).ending = .finished false ∧
      (run host (.test (arguments verbose))).schedule.map (fun schedule =>
          (schedule.outcomes[1]?, RunEvent.testLines (schedule.eventsAt 1))) =
        some (some (.ok ⟨"2", false, "one\r\n\n two \n\n"⟩),
          if verbose then ["one", " two "] else []) := by decide +kernel
  constructor
  · obtain ⟨finished, second⟩ := outcome false
    obtain ⟨finishes, shows⟩ := run_shows host (arguments false) rfl
    obtain ⟨plan, schedule, made, ran, concludes⟩ := finishes false finished
    rw [concludes] at second
    obtain ⟨settled, -⟩ := Prod.mk.inj (Option.some.inj second)
    obtain ⟨-, -, printed⟩ := shows plan _ schedule made ran
    obtain ⟨-, once, kept⟩ := printed 1 "2" _ settled
    refine ⟨plan, schedule, made, ran, once, kept.trans ?_⟩
    decide
  · obtain ⟨finished, second⟩ := outcome true
    obtain ⟨finishes, shows⟩ := run_shows host (arguments true) rfl
    obtain ⟨plan, schedule, made, ran, concludes⟩ := finishes false finished
    rw [concludes] at second
    obtain ⟨settled, lines⟩ := Prod.mk.inj (Option.some.inj second)
    obtain ⟨-, -, printed⟩ := shows plan _ schedule made ran
    obtain ⟨pieces, -, -⟩ := printed 1 "2" _ settled
    have view : viewOf host (arguments true) plan = .lines true := viewOf_eq made rfl
    have live : (viewOf host (arguments true) plan).live (schedule.eventsAt 1) = ["one", " two "] := by
      rw [view]
      exact lines
    rw [live] at pieces
    exact ⟨plan, schedule, made, ran, pieces⟩

end Session

end VersionMatrix
