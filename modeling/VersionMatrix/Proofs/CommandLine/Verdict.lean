import VersionMatrix.CommandLine.Session
import VersionMatrix.Proofs.CommandLine.Requests
import VersionMatrix.Proofs.Report
import VersionMatrix.Proofs.Schedule.Log

/-! The verdict of an invocation: it is over all versions that were asked for and over nothing else,
in every order in which their runs may take their steps. -/
namespace VersionMatrix

/-- The versions that an invocation is to test: those it names or else the default ones, each once
and in the order of their first mention. -/
def RunArguments.tested (arguments : RunArguments) : List String :=
  (if arguments.versions.isEmpty then defaultVersions else arguments.versions).eraseDups

/-- All runs of a plan have settled, in some order of their steps. Every run has an engine of its
own here, so that a daemon may answer each of them as it likes. -/
structure Plan.Ran (plan : Plan) (disk : Disk) (jobs : List Job) (schedule : Schedule) : Prop where
  requests : jobs.map (·.request) = plan.requests
  reached : ∃ slots, Schedule.Reaches plan.pipeline (Schedule.start slots disk jobs) schedule
  ended : schedule.AllSettled

theorem exists_of_bind_eq_ok {ε α β : Type} {first : Except ε α} {next : α → Except ε β}
    {value : β} (ended : first >>= next = .ok value) :
    ∃ middle, first = .ok middle ∧ next middle = .ok value := by
  cases first with
  | error error => cases ended
  | ok middle => exact ⟨middle, rfl, ended⟩

theorem eq_ok_of_mapError {ε ε' α : Type} {f : ε → ε'} {first : Except ε α} {value : α}
    (ended : first.mapError f = .ok value) : first = .ok value := by
  cases first with
  | error error => cases ended
  | ok found => exact congrArg Except.ok (Except.ok.inj ended)

namespace Plan

variable {host : Host} {arguments : RunArguments} {plan : Plan} {disk : Disk} {jobs : List Job}
  {schedule : Schedule}

/-- A plan has one request for each version that is to be tested, in their order. -/
theorem versions_of_make (made : make host arguments = .ok plan) :
    plan.requests.map (·.version) = arguments.tested := by
  obtain ⟨config, -, made⟩ := exists_of_bind_eq_ok made
  obtain ⟨project, -, made⟩ := exists_of_bind_eq_ok made
  obtain ⟨template, -, made⟩ := exists_of_bind_eq_ok made
  obtain ⟨requests, asked, made⟩ := exists_of_bind_eq_ok made
  obtain ⟨_, -, made⟩ := exists_of_bind_eq_ok made
  obtain ⟨model, rfl⟩ := exists_eq_map_forVersion (eq_ok_of_mapError asked)
  obtain rfl := Except.ok.inj made
  simp [Function.comp_def, RunRequest.forVersion, RunArguments.tested]

/-- The runs of a plan are one for each version that is to be tested, in their order. -/
theorem Ran.versions (ran : plan.Ran disk jobs schedule) (made : make host arguments = .ok plan) :
    jobs.map (·.request.version) = arguments.tested := by
  rw [← versions_of_make made, ← ran.requests, List.map_map]
  rfl

end Plan

namespace Session

/-- An invocation that ends with a verdict has run its plan, and the runs have settled. -/
theorem exists_ran_of_finished {host : Host} {arguments : RunArguments} {success : Bool}
    (finished : (run host (.test arguments)).ending = .finished success) :
    ∃ plan schedule, Plan.make host arguments = .ok plan ∧
      plan.Ran host.disk (plan.jobs host.daemon.engine) schedule ∧
      run host (.test arguments) = conclude host arguments plan schedule := by
  simp only [run, test] at finished ⊢
  cases made : Plan.make host arguments with
  | error refusal => simp [made] at finished
  | ok plan =>
      cases answered : Plan.checkDaemon host with
      | error refusal => simp [made, answered] at finished
      | ok _ =>
          simp only [made, answered, execute] at finished ⊢
          by_cases askable : plan.config.concurrency ≤ Schedule.slotLimit
          · obtain ⟨final, ran, reached, ended⟩ := Schedule.exists_runAll? plan.pipeline host.disk
              (plan.jobs host.daemon.engine) askable
            refine ⟨plan, final, rfl, ⟨?_, ⟨_, reached⟩, ended⟩, by rw [ran]⟩
            simp [Plan.jobs, Function.comp_def]
          · simp [Schedule.runAll?, Schedule.slots?, askable] at finished

/-- The verdict of an invocation. If an invocation ends with one, the runs of its plan have all
settled. Whenever they have, in any order of their steps and whatever the daemon answers, each version
that was asked for was run once and nothing else was; the report counts each of them once, among those
that passed or among those that failed and in the order they were asked for in, by the outcome of its
own run; and the verdict is success exactly if every run came to its end and its tests succeeded. -/
theorem run_verdict (host : Host) (arguments : RunArguments) :
    (∀ success, (run host (.test arguments)).ending = .finished success →
      ∃ plan schedule, Plan.make host arguments = .ok plan ∧
        plan.Ran host.disk (plan.jobs host.daemon.engine) schedule ∧
        run host (.test arguments) = conclude host arguments plan schedule) ∧
    ∀ plan jobs schedule, Plan.make host arguments = .ok plan → plan.Ran host.disk jobs schedule →
      let versions := arguments.tested
      let report := Report.ofOutcomes schedule.outcomes host.startedAt host.finishedAt
      versions.Nodup ∧
      (∀ version, version ∈ versions ↔
        version ∈ if arguments.versions.isEmpty then defaultVersions else arguments.versions) ∧
      schedule.started.Perm versions ∧
      (∀ place version, versions[place]? = some version → ∃ job outcome,
        jobs[place]? = some job ∧ job.request.version = version ∧
        schedule.outcomes[place]? = some outcome ∧ outcome.version = version ∧
        Job.Amid plan.pipeline job (schedule.eventsAt place) (.settled outcome)) ∧
      report.total = versions.length ∧
      report.passed.Sublist versions ∧
      (report.failed.map (·.version)).Sublist versions ∧
      (report.passed ++ report.failed.map (·.version)).Perm versions ∧
      (∀ version, version ∈ report.passed ↔
        ∃ output, .ok ⟨version, true, output⟩ ∈ schedule.outcomes) ∧
      (conclude host arguments plan schedule).ending = .finished report.allPassed ∧
      (report.allPassed = true ↔
        ∀ outcome ∈ schedule.outcomes, ∃ result, outcome = .ok result ∧ result.success = true) := by
  refine ⟨fun _ => exists_ran_of_finished, fun plan jobs schedule made ran => ?_⟩
  obtain ⟨slots, reached⟩ := ran.reached
  have versions := ran.versions made
  have outcomes := Schedule.version_outcomes reached ran.ended
  rw [versions] at outcomes
  refine ⟨nodup_eraseDups _, fun version => List.mem_eraseDups,
    versions ▸ Schedule.started_perm reached ran.ended, ?_, ?_, ?_, ?_, ?_, ?_, rfl, ?_⟩
  · intro place version asked
    rw [← versions, List.getElem?_map] at asked
    obtain ⟨job, there, rfl⟩ := Option.map_eq_some_iff.1 asked
    have accounts := (Schedule.accounts_start_amid slots host.disk jobs).reaches
      Schedule.kept_amid reached
    obtain ⟨outcome, listed, amid⟩ := accounts.outcome ran.ended there
    exact ⟨job, outcome, there, rfl, listed, Schedule.version_of_amid amid, amid⟩
  · exact (List.length_map ..).symm.trans (congrArg List.length outcomes)
  · exact outcomes ▸ Report.passed_sublist _ _ _
  · exact outcomes ▸ Report.failed_sublist _ _ _
  · exact outcomes ▸ Report.perm_ofOutcomes _ _ _
  · exact fun version => Report.mem_passed_iff _ _ _ version
  · simp only [Report.allPassed_iff, RunOutcome.passes_iff]

/-- A daemon that answers every request, and whose containers end with a status. -/
def daemonOfStatus (status : Nat) : Daemon := some fun request =>
  match request with
  | .create _ _ => { status := 201, body := Text.utf8 "\x7b\"Id\":\"c\"\x7d" }
  | .wait _ =>
    { status := 200
      body := Text.utf8 ("\x7b\"StatusCode\":" ++ Nat.repr status ++ "\x7d") }
  | _ => { status := 204 }

/-- A project that holds its image definition and nothing else, where the version control program is
missing. -/
def bareHost : Host where
  configuration := { concurrency := 2, stagingRoot := "/s" }
  environment := []
  disk :=
    { tree :=
        { entries :=
            [(["proj"], .directory), (["s"], .directory),
              (["proj", "DockerTemplate"], .file (Text.utf8 "FROM b:$VERSION") false)] } }
  git := fun _ _ => none
  daemon := daemonOfStatus 3
  terminal := false
  startedAt := { seconds := 0 }
  finishedAt := { seconds := 0 }

/-- A version that is named twice is run once, and a status other than zero makes the verdict a
failure. -/
theorem exists_verdict_of_bareHost :
    ∃ plan schedule, Plan.make bareHost { versions := ["1", "1"], path := "/proj" } = .ok plan ∧
      plan.Ran bareHost.disk (plan.jobs bareHost.daemon.engine) schedule ∧
      schedule.started.Perm ["1"] ∧
      (conclude bareHost { versions := ["1", "1"], path := "/proj" } plan schedule).ending =
        .finished false := by
  have finished : (run bareHost (.test { versions := ["1", "1"], path := "/proj" })).ending =
      .finished false := by decide +kernel
  obtain ⟨finishes, verdict⟩ := run_verdict bareHost { versions := ["1", "1"], path := "/proj" }
  obtain ⟨plan, schedule, made, ran, concludes⟩ := finishes false finished
  obtain ⟨-, -, started, -⟩ := verdict plan _ schedule made ran
  exact ⟨plan, schedule, made, ran, started, concludes ▸ finished⟩

end Session

end VersionMatrix
