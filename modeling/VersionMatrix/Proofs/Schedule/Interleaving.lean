import VersionMatrix.Pipeline.Schedule
import Mathlib.Data.List.Perm.Basic
import Mathlib.Logic.Relation

/-! The schedule in every order: any waiting run may take a free permit, and any run that has been
admitted may take its next operation. The schedule that is executed is one of these. -/
namespace VersionMatrix.Schedule

variable {pipeline : Pipeline} {schedule : Schedule} {run : ActiveRun} {step : RunStep}

/-- One operation of one run, or the admission of one. Nothing is said of who comes first. -/
inductive Step (pipeline : Pipeline) : Schedule → Schedule → Prop where
  | enter {schedule : Schedule} {before after : List (Nat × Job)} {place : Nat} {job : Job}
      (free : 0 < schedule.permits) (waits : schedule.waiting = before ++ (place, job) :: after) :
      Step pipeline schedule (schedule.activate place job (before ++ after))
  | act {schedule : Schedule} {run : ActiveRun} (admitted : run ∈ schedule.active) :
      Step pipeline schedule
        (schedule.takeStep run (run.job.act pipeline schedule.disk run.phase))

/-- Any number of operations in any order. -/
abbrev Reaches (pipeline : Pipeline) : Schedule → Schedule → Prop :=
  Relation.ReflTransGen (Step pipeline)

def eventsAt (schedule : Schedule) (place : Nat) : List RunEvent :=
  (schedule.log.filter (·.place == place)).map (·.event)

@[simp] theorem takeStep_disk : (schedule.takeStep run step).disk = step.disk := by
  unfold takeStep
  split <;> rfl

@[simp] theorem takeStep_waiting : (schedule.takeStep run step).waiting = schedule.waiting := by
  unfold takeStep
  split <;> rfl

@[simp] theorem takeStep_time :
    (schedule.takeStep run step).time = max schedule.time run.due := by
  unfold takeStep
  split <;> rfl

/-- A step adds its events to the log, at the time of the schedule. -/
theorem takeStep_log :
    (schedule.takeStep run step).log = schedule.log ++ step.events.map fun event =>
      { time := max schedule.time run.due, place := run.place
        version := run.job.request.version, event } := by
  unfold takeStep
  split <;> rfl

/-- A step adds its events to those of its own run. -/
theorem eventsAt_takeStep_self :
    (schedule.takeStep run step).eventsAt run.place = schedule.eventsAt run.place ++ step.events := by
  simp [eventsAt, takeStep_log, List.filter_map, Function.comp_def]

/-- A step adds nothing to the events of other runs. -/
theorem eventsAt_takeStep_of_ne {place : Nat} (other : place ≠ run.place) :
    (schedule.takeStep run step).eventsAt place = schedule.eventsAt place := by
  simp [eventsAt, takeStep_log, List.filter_map, Function.comp_def, other.symm]

/-- A run after a step that has not settled it. -/
def afterStep (schedule : Schedule) (run : ActiveRun) (step : RunStep) : ActiveRun :=
  { run with phase := step.phase, due := max schedule.time run.due + step.delay }

/-- A step after which a run goes on changes only that run. -/
theorem takeStep_of_unsettled (unsettled : step.phase.outcome? = none) :
    (schedule.takeStep run step).permits = schedule.permits ∧
      (schedule.takeStep run step).settled = schedule.settled ∧
      (schedule.takeStep run step).active = schedule.active.map fun other =>
        if other.place = run.place then schedule.afterStep run step else other := by
  simp [takeStep, unsettled, afterStep]

/-- A step with which a run settles frees its slot and takes down its outcome. -/
theorem takeStep_of_settled {outcome : RunOutcome} (settled : step.phase.outcome? = some outcome) :
    (schedule.takeStep run step).permits = schedule.permits + 1 ∧
      (schedule.takeStep run step).settled = schedule.settled ++ [(run.place, outcome)] ∧
      (schedule.takeStep run step).active = schedule.active.filter (·.place != run.place) := by
  simp [takeStep, settled]

theorem afterStep_mem_takeStep (admitted : run ∈ schedule.active)
    (unsettled : step.phase.outcome? = none) :
    schedule.afterStep run step ∈ (schedule.takeStep run step).active := by
  rw [(takeStep_of_unsettled unsettled).2.2]
  exact List.mem_map.2 ⟨run, admitted, by simp⟩

/-- Two steps of a run without delay are one step with the events of both. -/
theorem takeStep_takeStep {next : RunStep} (unsettled : step.phase.outcome? = none)
    (prompt : step.delay = 0) :
    (schedule.takeStep run step).takeStep (schedule.afterStep run step) next =
      schedule.takeStep run { next with events := step.events ++ next.events } := by
  have others : (schedule.active.map fun other =>
      if other.place = run.place then schedule.afterStep run step else other).filter
        (·.place != run.place) = schedule.active.filter (·.place != run.place) := by
    rw [List.filter_map]
    have same : ((·.place != run.place) ∘ fun other : ActiveRun =>
        if other.place = run.place then schedule.afterStep run step else other) =
          (·.place != run.place) := by
      funext other
      by_cases atPlace : other.place = run.place <;> simp [atPlace, afterStep]
    rw [same]
    refine (List.map_congr_left fun other member => ?_).trans (List.map_id _)
    have apart : other.place ≠ run.place := by simpa using (List.mem_filter.1 member).2
    simp [apart]
  cases ending : next.phase.outcome? with
  | some outcome =>
      simp only [takeStep, unsettled, ending]
      simpa [afterStep, prompt] using others
  | none =>
      simp only [takeStep, unsettled, ending]
      simp only [afterStep, prompt, List.map_map, List.map_append, List.append_assoc, Nat.add_zero,
        Nat.max_self, Schedule.mk.injEq, true_and, and_true]
      apply List.map_congr_left
      intro other _
      by_cases atPlace : other.place = run.place <;> simp [atPlace]

/-- The operation that follows a step, taken together with it. -/
def chain (pipeline : Pipeline) (job : Job) (step : RunStep) : RunStep :=
  let next := job.act pipeline step.disk step.phase
  { next with events := step.events ++ next.events }

/-- What one run does without a pause can be reached action by action. -/
theorem Reaches.chain (admitted : run ∈ schedule.active)
    (reached : Reaches pipeline schedule (schedule.takeStep run step))
    (unsettled : step.phase.outcome? = none) (prompt : step.delay = 0) :
    Reaches pipeline schedule (schedule.takeStep run (chain pipeline run.job step)) := by
  have more := reached.tail (Step.act (afterStep_mem_takeStep admitted unsettled))
  rw [takeStep_takeStep unsettled prompt] at more
  simpa [Schedule.chain, afterStep] using more

/-- The disk actions of a stage can be reached one by one. -/
theorem Reaches.work (admitted : run ∈ schedule.active) {stage : Stage} {after : Phase}
    {events : List RunEvent} {rest : DiskAction Unit} {disk : Disk}
    (reached : Reaches pipeline schedule
      (schedule.takeStep run { phase := .working stage rest after, disk, events })) :
    Reaches pipeline schedule (schedule.takeStep run
      { phase := .working stage (.done (rest.run disk).1) after, disk := (rest.run disk).2
        events }) := by
  induction rest generalizing disk with
  | done result => exact reached
  | operate effect next ih =>
      have more := reached.chain admitted rfl rfl
      simp only [Schedule.chain, Job.act, List.append_nil] at more
      exact ih disk more

/-- What a run does until it has settled can be reached action by action. -/
theorem Reaches.settle (admitted : run ∈ schedule.active)
    (reached : Reaches pipeline schedule (schedule.takeStep run step)) (prompt : step.delay = 0) :
    Reaches pipeline schedule (schedule.takeStep run (run.job.settle pipeline step)) := by
  unfold Job.settle
  split
  next outcome leaving =>
      have more := reached.chain admitted (by rw [leaving]; rfl) prompt
      simpa [Schedule.chain, leaving, Job.act] using more
  next => exact reached

theorem proceed_delay {α : Type} {job : Job} {stage : Stage} {disk : Disk}
    {events : List RunEvent} {result : Except StageError α} {next : α → Phase} :
    (job.proceed stage disk events result next).delay = 0 := by
  cases result <;> rfl

/-- What a run does until its stage is complete can be reached action by action. -/
theorem Reaches.complete (admitted : run ∈ schedule.active)
    (reached : Reaches pipeline schedule (schedule.takeStep run step)) (prompt : step.delay = 0) :
    Reaches pipeline schedule (schedule.takeStep run (run.job.complete pipeline step)) := by
  unfold Job.complete
  split
  next stage rest after working =>
      refine Reaches.settle admitted ?_ proceed_delay
      obtain ⟨phase, disk, events, delay⟩ := step
      obtain rfl : delay = 0 := prompt
      obtain rfl : phase = .working stage rest after := working
      have finished := (reached.work admitted).chain admitted rfl rfl
      cases result : (rest.run disk).1 with
      | ok value => simpa [Schedule.chain, Job.act, Job.proceed, result] using finished
      | error source =>
          simpa [Schedule.chain, Job.act, Job.proceed, Job.leave, result] using finished
  next => exact Reaches.settle admitted reached prompt

/-- Only a call to the engine takes time, and what follows a call is no work on the disk. -/
theorem complete_act_of_delay (job : Job) (disk : Disk) (phase : Phase) :
    (job.act pipeline disk phase).delay = 0 ∨
      job.complete pipeline (job.act pipeline disk phase) = job.act pipeline disk phase := by
  cases phase with
  | pulling image => exact Or.inr rfl
  | running image => exact Or.inr rfl
  | building image =>
      rw [Job.act]
      split
      · exact Or.inl rfl
      · exact Or.inr rfl
  | admitted =>
      rw [Job.act]
      split <;> exact Or.inl rfl
  | working stage rest after =>
      cases rest with
      | operate effect next => exact Or.inl rfl
      | done result => exact Or.inl proceed_delay
  | pulled image answer => exact Or.inl proceed_delay
  | built image answer => exact Or.inl proceed_delay
  | _ => exact Or.inl rfl

/-- A step of the scheduler that runs is one of the interleavings. -/
theorem reaches_stepRun (admitted : run ∈ schedule.active) :
    Reaches pipeline schedule (schedule.stepRun pipeline run) := by
  have acted : Reaches pipeline schedule
      (schedule.takeStep run (run.job.act pipeline schedule.disk run.phase)) :=
    Relation.ReflTransGen.single (Step.act admitted)
  rcases @complete_act_of_delay pipeline run.job schedule.disk run.phase with
    prompt | same
  · exact acted.complete admitted prompt
  · rw [stepRun, Job.advance, same]
    exact acted

theorem next?_mem {active : List ActiveRun} (found : next? active = some run) : run ∈ active := by
  induction active generalizing run with
  | nil => cases found
  | cons first rest ih =>
      rw [next?] at found
      split at found
      next => exact List.mem_cons.2 (Or.inl (Option.some.inj found).symm)
      next other later =>
          split at found
          next => exact List.mem_cons_of_mem _ (ih (found ▸ later))
          next => exact List.mem_cons.2 (Or.inl (Option.some.inj found).symm)

/-- As long as runs are active one of them is next. -/
theorem exists_next? {active : List ActiveRun} (some : active ≠ []) :
    ∃ run, next? active = .some run := by
  cases active with
  | nil => exact absurd rfl some
  | cons first rest =>
      rw [next?]
      split
      · exact ⟨_, rfl⟩
      · split <;> exact ⟨_, rfl⟩

/-- The choice of the scheduler is one of the interleavings. -/
theorem reaches_stepNext (schedule : Schedule) :
    Reaches pipeline schedule (schedule.stepNext pipeline) := by
  unfold stepNext
  split
  next run due => exact reaches_stepRun (next?_mem due)
  next => exact Relation.ReflTransGen.refl

/-- The schedule that is executed takes its operations in one of the orders. -/
theorem reaches_step (schedule : Schedule) :
    Reaches pipeline schedule (schedule.step pipeline) := by
  unfold Schedule.step
  split
  next place job rest waits =>
      split
      next free =>
          exact Relation.ReflTransGen.single
            (Step.enter free (show schedule.waiting = [] ++ (place, job) :: rest from waits))
      next => exact reaches_stepNext schedule
  next => exact reaches_stepNext schedule

/-- What the scheduler reaches can be reached by interleaving. -/
theorem reaches_stepFor (steps : Nat) (schedule : Schedule) :
    Reaches pipeline schedule (schedule.stepFor pipeline steps) := by
  induction steps generalizing schedule with
  | zero => exact Relation.ReflTransGen.refl
  | succ steps ih => exact (reaches_step schedule).trans (ih _)

end VersionMatrix.Schedule
