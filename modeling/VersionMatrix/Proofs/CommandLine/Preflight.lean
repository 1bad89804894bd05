import VersionMatrix.Proofs.CommandLine.Verdict
import VersionMatrix.Proofs.Request

/-! What an invocation settles before anything is run. As long as one of these things is open nothing
is shown, nothing is changed, and the daemon is asked for a sign of life at most. -/
namespace VersionMatrix

def RunArguments.named (arguments : RunArguments) : List String :=
  if arguments.versions.isEmpty then defaultVersions else arguments.versions

def Host.settings (host : Host) : DaemonSettings := .ofEnvironment host.environment

/-- The configuration, the project, its template and the requests for all versions are settled. -/
structure Plan.Settled (plan : Plan) (host : Host) (arguments : RunArguments) (project : Project)
    (template : String) : Prop where
  configured : host.configuration.resolve host.environment arguments = .ok plan.config
  discovered : Project.discover host.git host.disk arguments.path = .ok project
  loaded :
    Project.loadTemplate host.disk (plan.config.templateFile project.root) = .ok template
  requested : requestsFor project plan.config template arguments.named arguments.verbose =
    .ok plan.requests

/-- Every step before the runs has succeeded. -/
structure Plan.Cleared (plan : Plan) (host : Host) (arguments : RunArguments) : Prop where
  settled : ∃ project template, plan.Settled host arguments project template
  prepared : host.settings.prepare host.disk = .ok ()
  answered : host.daemon.ping = .ok ()

/-- A step before the runs has failed, and all steps before it have succeeded. -/
inductive Host.Refuses (host : Host) (arguments : RunArguments) : Refusal → Prop where
  | configuration {error : ConfigError}
      (failed : host.configuration.resolve host.environment arguments = .error error) :
      Refuses host arguments (.configuration error)
  | project {config : RunConfig} {error : ProjectError}
      (configured : host.configuration.resolve host.environment arguments = .ok config)
      (failed : Project.discover host.git host.disk arguments.path = .error error) :
      Refuses host arguments (.project arguments.path error)
  | template {config : RunConfig} {project : Project} {error : ProjectError}
      (configured : host.configuration.resolve host.environment arguments = .ok config)
      (discovered : Project.discover host.git host.disk arguments.path = .ok project)
      (failed : Project.loadTemplate host.disk (config.templateFile project.root) = .error error) :
      Refuses host arguments (.template error)
  | request {config : RunConfig} {project : Project} {template : String} {error : StageError}
      (configured : host.configuration.resolve host.environment arguments = .ok config)
      (discovered : Project.discover host.git host.disk arguments.path = .ok project)
      (loaded : Project.loadTemplate host.disk (config.templateFile project.root) = .ok template)
      (failed :
        requestsFor project config template arguments.named arguments.verbose = .error error) :
      Refuses host arguments (.request (config.templateSource project.root) error)
  | connection {plan : Plan} {project : Project} {template : String} {error : EngineError}
      (settled : plan.Settled host arguments project template)
      (failed : host.settings.prepare host.disk = .error error) :
      Refuses host arguments (.connection error)
  | unreachable {plan : Plan} {project : Project} {template : String} {error : EngineError}
      (settled : plan.Settled host arguments project template)
      (prepared : host.settings.prepare host.disk = .ok ())
      (failed : host.daemon.ping = .error error) :
      Refuses host arguments (.unreachable host.settings error)

/-- What fails has failed first or has gone on. -/
theorem error_or_exists_of_bind_eq_error {ε α β : Type} {first : Except ε α}
    {next : α → Except ε β} {error : ε} (ended : first >>= next = .error error) :
    first = .error error ∨ ∃ middle, first = .ok middle ∧ next middle = .error error := by
  cases first with
  | error _ => exact Or.inl (congrArg Except.error (Except.error.inj ended))
  | ok middle => exact Or.inr ⟨middle, rfl, ended⟩

theorem exists_of_mapError_eq_error {ε ε' α : Type} {f : ε → ε'} {first : Except ε α} {error : ε'}
    (ended : first.mapError f = .error error) : ∃ cause, first = .error cause ∧ f cause = error := by
  cases first with
  | error cause => exact ⟨cause, rfl, Except.error.inj ended⟩
  | ok _ => cases ended

namespace Plan

variable {host : Host} {arguments : RunArguments} {plan : Plan} {refusal : Refusal}

/-- Where there is a plan, all that it rests on has been settled. -/
theorem settled_of_make (made : make host arguments = .ok plan) :
    (∃ project template, plan.Settled host arguments project template) ∧
      host.settings.prepare host.disk = .ok () := by
  obtain ⟨config, configured, made⟩ := exists_of_bind_eq_ok made
  obtain ⟨project, discovered, made⟩ := exists_of_bind_eq_ok made
  obtain ⟨template, loaded, made⟩ := exists_of_bind_eq_ok made
  obtain ⟨requests, requested, made⟩ := exists_of_bind_eq_ok made
  obtain ⟨_, prepared, made⟩ := exists_of_bind_eq_ok made
  obtain rfl := Except.ok.inj made
  exact ⟨⟨project, template, eq_ok_of_mapError configured, eq_ok_of_mapError discovered,
    eq_ok_of_mapError loaded, eq_ok_of_mapError requested⟩, eq_ok_of_mapError prepared⟩

/-- Where there is no plan a step has failed. -/
theorem refuses_of_make (made : make host arguments = .error refusal) :
    host.Refuses arguments refusal := by
  obtain failed | ⟨config, configured, made⟩ := error_or_exists_of_bind_eq_error made
  · obtain ⟨_, cause, rfl⟩ := exists_of_mapError_eq_error failed
    exact .configuration cause
  replace configured := eq_ok_of_mapError configured
  obtain failed | ⟨project, discovered, made⟩ := error_or_exists_of_bind_eq_error made
  · obtain ⟨_, cause, rfl⟩ := exists_of_mapError_eq_error failed
    exact .project configured cause
  replace discovered := eq_ok_of_mapError discovered
  obtain failed | ⟨template, loaded, made⟩ := error_or_exists_of_bind_eq_error made
  · obtain ⟨_, cause, rfl⟩ := exists_of_mapError_eq_error failed
    exact .template configured discovered cause
  replace loaded := eq_ok_of_mapError loaded
  obtain failed | ⟨requests, requested, made⟩ := error_or_exists_of_bind_eq_error made
  · obtain ⟨_, cause, rfl⟩ := exists_of_mapError_eq_error failed
    exact .request configured discovered loaded cause
  have settled : Settled ⟨config, requests⟩ host arguments project template :=
    ⟨configured, discovered, loaded, eq_ok_of_mapError requested⟩
  obtain failed | ⟨_, _, made⟩ := error_or_exists_of_bind_eq_error made
  · obtain ⟨_, cause, rfl⟩ := exists_of_mapError_eq_error failed
    exact .connection settled cause
  · cases made

/-- An invocation that is cleared is not refused. -/
theorem Cleared.not_refuses (cleared : plan.Cleared host arguments) :
    ¬host.Refuses arguments refusal := by
  obtain ⟨⟨project, template, settled⟩, prepared, answered⟩ := cleared
  intro refuses
  cases refuses with
  | configuration failed => cases settled.configured.symm.trans failed
  | project _ failed => cases settled.discovered.symm.trans failed
  | template configured discovered failed =>
      obtain rfl := Except.ok.inj (configured.symm.trans settled.configured)
      obtain rfl := Except.ok.inj (discovered.symm.trans settled.discovered)
      cases settled.loaded.symm.trans failed
  | request configured discovered loaded failed =>
      obtain rfl := Except.ok.inj (configured.symm.trans settled.configured)
      obtain rfl := Except.ok.inj (discovered.symm.trans settled.discovered)
      obtain rfl := Except.ok.inj (loaded.symm.trans settled.loaded)
      cases settled.requested.symm.trans failed
  | connection _ failed => cases prepared.symm.trans failed
  | unreachable _ _ failed => cases answered.symm.trans failed

/-- A plan that is settled has one request for each version, in their order, and each of them is valid
unless its version is blank. -/
theorem Settled.requests {project : Project} {template : String}
    (settled : plan.Settled host arguments project template) :
    plan.requests.map (·.version) = arguments.tested ∧
      ∀ request ∈ plan.requests, Text.isBlank request.version = false →
        request.validate = .ok () := by
  obtain ⟨model, listed, -, valid⟩ := exists_model_of_requestsFor settled.requested
  refine ⟨?_, fun request member proper => ?_⟩
  · rw [listed]
    simp [Function.comp_def, RunRequest.forVersion, RunArguments.tested, RunArguments.named]
  · have validated := valid (List.ne_nil_of_mem member)
    rw [listed] at member
    obtain ⟨version, -, rfl⟩ := List.mem_map.1 member
    exact RunRequest.validate_forVersion validated proper

end Plan

namespace Session

/-- A test of versions is refused by a step that failed, and then nothing has come of it but a request
for a sign of life, or it is cleared and its plan is run. -/
theorem test_cases (host : Host) (arguments : RunArguments) :
    (∃ refusal sent, host.Refuses arguments refusal ∧ sent <+: [.ping] ∧
      test host arguments = { ending := .refused refusal, disk := host.disk, sent }) ∨
      ∃ plan : Plan, plan.Cleared host arguments ∧
        test host arguments = execute host arguments plan := by
  rw [test]
  cases made : Plan.make host arguments with
  | error refusal =>
      exact Or.inl ⟨refusal, [], Plan.refuses_of_make made, List.nil_prefix, rfl⟩
  | ok plan =>
      obtain ⟨⟨project, template, settled⟩, prepared⟩ := Plan.settled_of_make made
      cases answered : host.daemon.ping with
      | error error =>
          refine Or.inl ⟨.unreachable host.settings error, host.daemon.received [.ping],
            .unreachable settled prepared answered, ?_, ?_⟩
          · unfold Daemon.received
            split <;> simp
          · simp only [Plan.checkDaemon, answered, Except.mapError]
            rfl
      | ok _ =>
          refine Or.inr ⟨plan, ⟨⟨project, template, settled⟩, prepared, answered⟩, ?_⟩
          simp only [Plan.checkDaemon, answered, Except.mapError]

/-- A plan that is run is not refused. -/
theorem ending_execute_ne (host : Host) (arguments : RunArguments) (plan : Plan)
    (refusal : Refusal) : (execute host arguments plan).ending ≠ .refused refusal := by
  simp only [execute]
  split <;> exact fun refused => by cases refused

/-- What is settled before anything is run. A command that is refused has left the disk as it was, has
printed nothing, has run nothing, and has sent the daemon a request for a sign of life at most; a step
of its own has failed, and all steps before that one have succeeded. So whenever a command has changed
the disk, has started runs, or has sent any other request, or a test of versions has printed something,
every step for all of its versions has succeeded. -/
theorem run_preflight (host : Host) (command : Command) :
    let session := run host command
    (∀ refusal, session.ending = .refused refusal →
      session.disk = host.disk ∧ session.output = "" ∧ session.schedule = none ∧
        session.sent <+: [.ping] ∧
        ∃ arguments, command = .test arguments ∧ host.Refuses arguments refusal ∧
          ∀ plan : Plan, ¬plan.Cleared host arguments) ∧
      (session.disk ≠ host.disk ∨ session.schedule.isSome ∨
          (∃ request ∈ session.sent, request ≠ .ping) ∨ (command ≠ .list ∧ session.output ≠ "") →
        ∃ arguments, ∃ plan : Plan, command = .test arguments ∧ plan.Cleared host arguments ∧
          (∀ refusal, ¬host.Refuses arguments refusal) ∧
          plan.requests.map (·.version) = arguments.tested ∧
          ∀ request ∈ plan.requests, Text.isBlank request.version = false →
            request.validate = .ok ()) := by
  cases command with
  | list =>
      refine ⟨fun _ => nofun, ?_⟩
      rintro (changed | ran | ⟨request, sent, -⟩ | ⟨printed, -⟩)
      · exact absurd rfl changed
      · cases ran
      · cases sent
      · exact absurd rfl printed
  | test arguments =>
      obtain ⟨refusal, sent, refuses, pinged, ended⟩ | ⟨plan, cleared, ended⟩ :=
        test_cases host arguments
      · rw [run, ended]
        refine ⟨?_, ?_⟩
        · rintro _ ⟨⟩
          exact ⟨rfl, rfl, rfl, pinged, arguments, rfl, refuses,
            fun plan cleared => cleared.not_refuses refuses⟩
        · rintro (changed | ran | ⟨request, member, other⟩ | ⟨-, printed⟩)
          · exact absurd rfl changed
          · cases ran
          · exact absurd (List.mem_singleton.1 (pinged.subset member)) other
          · exact absurd rfl printed
      · obtain ⟨project, template, settled⟩ := cleared.settled
        obtain ⟨versions, valid⟩ := settled.requests
        refine ⟨fun refusal refused => ?_, fun _ => ?_⟩
        · rw [run, ended] at refused
          exact absurd refused (ending_execute_ne host arguments plan refusal)
        · exact ⟨arguments, plan, rfl, cleared, fun _ => cleared.not_refuses, versions, valid⟩

/-- A path that leads to no project is why an invocation is refused, and one that was run was
cleared. -/
theorem exists_cleared_bareHost :
    bareHost.Refuses { versions := ["1"], path := "/none" }
        (.project "/none" (.missingDirectory "/none")) ∧
      (run bareHost (.test { versions := ["1"], path := "/none" })).sent = [] ∧
      ∃ plan : Plan, plan.Cleared bareHost { versions := ["1", "2"], path := "/proj" } ∧
        plan.requests.map (·.version) = ["1", "2"] := by
  obtain ⟨refused, -⟩ := run_preflight bareHost (.test { versions := ["1"], path := "/none" })
  obtain ⟨-, effects⟩ :=
    run_preflight bareHost (.test { versions := ["1", "2"], path := "/proj" })
  refine ⟨?_, by decide +kernel, ?_⟩
  · obtain ⟨-, -, -, -, arguments, same, refuses, -⟩ :=
      refused (.project "/none" (.missingDirectory "/none")) (by decide +kernel)
    obtain rfl := Command.test.inj same
    exact refuses
  · obtain ⟨arguments, plan, same, cleared, -, versions, -⟩ :=
      effects (Or.inr (Or.inl (by decide +kernel)))
    obtain rfl := Command.test.inj same
    exact ⟨plan, cleared, versions⟩

end Session

end VersionMatrix
