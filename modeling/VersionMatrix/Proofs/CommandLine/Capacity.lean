import VersionMatrix.Proofs.CommandLine.Override
import VersionMatrix.Proofs.CommandLine.Preflight

/-! How many runs at a time can be asked for. A configuration is checked for a number that is too small
only, and one that is too large stops an invocation that nothing has refused. -/
namespace VersionMatrix

namespace Schedule

variable {pipeline : Pipeline} {slots concurrency : Nat} {disk : Disk} {jobs : List Job}
  {final : Schedule}

/-- All runs have settled, and each request has one outcome, at its own place. -/
structure Answered (jobs : List Job) (final : Schedule) : Prop where
  settled : final.AllSettled
  count : final.outcomes.length = jobs.length
  own : ∀ (place : Nat) (job : Job), jobs[place]? = some job → ∃ outcome : RunOutcome,
    final.outcomes[place]? = some outcome ∧ outcome.version = job.request.version

/-- In whatever order the runs have taken their steps, once all have settled all have been answered. -/
theorem answered_of_reaches (positive : 0 < slots)
    (reached : Reaches pipeline (start slots disk jobs) final) (ended : final.AllSettled) :
    final.Answered jobs := by
  have accounts := (accounts_start_amid slots disk jobs).reaches kept_amid reached
  obtain ⟨count, own⟩ := (accounts.orderly positive).complete ended
  refine ⟨ended, count, fun place job there => ?_⟩
  obtain ⟨outcome, listed, -, same⟩ := own place job there
  exact ⟨outcome, listed, same⟩

/-- That many runs at a time cannot be asked for exactly if they are more than the limit. -/
theorem runAll?_eq_none_iff :
    runAll? pipeline concurrency disk jobs = none ↔ slotLimit < concurrency := by
  rw [runAll?, slots?]
  split
  next askable => simp [askable]
  next beyond => simp [Nat.lt_of_not_le beyond]

end Schedule

open Schedule

/-- Whether the requests of an accepted configuration are run. There is room for at least one run at a time,
and in whatever order the runs take their steps, each request has one outcome in the end. The requests are
run at all exactly if the number of runs at a time keeps to a limit, which no check looks at. -/
theorem RunConfig.runAll?_iff_of_validate (config : RunConfig) (accepted : config.validate = .ok ())
    (pipeline : Pipeline) (disk : Disk) (jobs : List Job) :
    0 < config.concurrency ∧
      (∀ final, Reaches pipeline (start config.concurrency disk jobs) final → final.AllSettled →
        final.Answered jobs) ∧
      ((∃ final, runAll? pipeline config.concurrency disk jobs = some final ∧
          Reaches pipeline (start config.concurrency disk jobs) final ∧ final.Answered jobs) ↔
        config.concurrency ≤ slotLimit) := by
  have positive : 0 < config.concurrency := Nat.pos_of_ne_zero (validate_eq_ok_iff.1 accepted).1
  refine ⟨positive, fun final => answered_of_reaches positive, ?_, fun askable => ?_⟩
  · rintro ⟨final, ran, -⟩
    by_contra beyond
    rw [runAll?_eq_none_iff.2 (Nat.lt_of_not_le beyond)] at ran
    cases ran
  · obtain ⟨final, ran, reached, ended⟩ := exists_runAll? pipeline disk jobs askable
    rw [Nat.max_eq_left positive] at reached
    exact ⟨final, ran, reached, answered_of_reaches positive reached ended⟩

/-- Two at a time are an accepted number, and both of two jobs are answered. -/
theorem RunConfig.answered_twoJobs :
    let config : RunConfig := { concurrency := 2, stagingRoot := "/s" }
    config.validate = .ok () ∧ config.concurrency ≤ slotLimit ∧
      ∃ final, runAll? discarding config.concurrency leftDisk (twoJobs "/none") = some final ∧
        final.outcomes.length = 2 := by
  intro config
  have accepted : config.validate = .ok () := by decide
  have askable : config.concurrency ≤ slotLimit := by decide
  obtain ⟨-, -, runs⟩ :=
    RunConfig.runAll?_iff_of_validate config accepted discarding leftDisk (twoJobs "/none")
  obtain ⟨final, ran, -, answered⟩ := runs.2 askable
  exact ⟨accepted, askable, final, ran, answered.count⟩

/-- The first number beyond the limit is an accepted one, whether a variable asks for it or an argument
does, and nothing is run. -/
theorem RunConfig.exists_runAll?_eq_none :
    let host : RunConfig := { concurrency := 2, stagingRoot := "/s" }
    let config : RunConfig := { host with concurrency := 2305843009213693952 }
    config.validate = .ok () ∧
      host.resolve [("TEST_LIMIT", "2305843009213693952")] {} = .ok config ∧
      host.resolve [] { concurrency := some 2305843009213693952 } = .ok config ∧
      ∀ pipeline disk jobs, runAll? pipeline config.concurrency disk jobs = none :=
  ⟨by decide, by decide +kernel, by decide +kernel,
    fun _ _ _ => runAll?_eq_none_iff.2 (by decide +kernel)⟩

namespace Session

/-- A plan is stopped exactly if it asks for too many runs at a time, and then nothing has been run. -/
theorem ending_execute_eq_stopped_iff (host : Host) (arguments : RunArguments) (plan : Plan) :
    ((execute host arguments plan).ending = .stopped ↔ slotLimit < plan.config.concurrency) ∧
    ((execute host arguments plan).ending = .stopped →
      (execute host arguments plan).schedule = none ∧
        (execute host arguments plan).disk = host.disk) := by
  rw [← @runAll?_eq_none_iff plan.pipeline _ host.disk (plan.jobs host.daemon.engine)]
  simp only [execute]
  split
  next final ran =>
      have goesOn : (conclude host arguments plan final).ending ≠ .stopped := fun stopped => by
        cases stopped
      exact ⟨iff_of_false goesOn (by simp [ran]), fun stopped => absurd stopped goesOn⟩
  next unasked => exact ⟨iff_of_true rfl unasked, fun _ => ⟨rfl, rfl⟩⟩

/-- An invocation is stopped exactly if nothing refuses it and it asks for too many runs at a time. Then
the daemon has been reached, and nothing has been run. -/
theorem ending_eq_stopped_iff (host : Host) (arguments : RunArguments) :
    ((run host (.test arguments)).ending = .stopped ↔
      ∃ plan : Plan, plan.Cleared host arguments ∧ slotLimit < plan.config.concurrency) ∧
    ((run host (.test arguments)).ending = .stopped →
      (run host (.test arguments)).schedule = none ∧ (run host (.test arguments)).disk = host.disk) := by
  rw [run]
  obtain ⟨refusal, sent, refuses, -, ended⟩ | ⟨plan, cleared, ended⟩ := test_cases host arguments
  · have goesOn : (test host arguments).ending ≠ .stopped := by
      rw [ended]
      exact fun stopped => by cases stopped
    refine ⟨iff_of_false goesOn ?_, fun stopped => absurd stopped goesOn⟩
    rintro ⟨plan, cleared, -⟩
    exact cleared.not_refuses refuses
  · obtain ⟨project, template, settled⟩ := cleared.settled
    obtain ⟨stops, idle⟩ := ending_execute_eq_stopped_iff host arguments plan
    rw [ended]
    refine ⟨stops.trans ⟨fun beyond => ⟨plan, cleared, beyond⟩, ?_⟩, idle⟩
    rintro ⟨other, cleared', beyond⟩
    obtain ⟨_, _, settled'⟩ := cleared'.settled
    rwa [Except.ok.inj (settled'.configured.symm.trans settled.configured)] at beyond

end Session

end VersionMatrix
