import VersionMatrix.Proofs.Run.History
import VersionMatrix.Proofs.Schedule.Accounts

/-! How many runs are under way, when a run is admitted, and what the schedule has when all runs have
settled. -/
namespace VersionMatrix

def RunOutcome.version : RunOutcome → String
  | .ok result => result.version
  | .error error => error.version

namespace Schedule

variable {pipeline : Pipeline} {schedule : Schedule} {run : ActiveRun} {slots : Nat}
  {jobs : List Job} {known : Knowledge}

/-- Whether every run has settled. -/
def AllSettled (schedule : Schedule) : Prop := schedule.waiting = [] ∧ schedule.active = []

/-- The places whose runs have reported a state and have not settled. -/
def inFlight (schedule : Schedule) : List Nat :=
  schedule.places.filter fun place =>
    !(RunEvent.states (schedule.eventsAt place)).isEmpty && place ∉ schedule.settled.map (·.1)

/-- A run can be admitted at once. -/
def Admissible (pipeline : Pipeline) (schedule : Schedule) (place : Nat) (job : Job) : Prop :=
  ∃ rest, Step pipeline schedule (schedule.activate place job rest)

/-- Only a run that has been admitted can have reported a state. -/
theorem Accounts.inFlight_subset (accounts : Accounts slots jobs known schedule) :
    schedule.inFlight ⊆ schedule.active.map (·.place) := by
  intro place member
  obtain ⟨listed, underWay⟩ := List.mem_filter.1 member
  simp only [Bool.and_eq_true, Bool.not_eq_true', decide_eq_true_eq] at underWay
  obtain ⟨reported, unsettled⟩ := underWay
  rcases List.mem_append.1 listed with started | ended
  · rcases List.mem_append.1 started with waits | admitted
    · obtain ⟨⟨_, job⟩, waiting, rfl⟩ := List.mem_map.1 waits
      have silent := (accounts.waiting _ job waiting).2.1
      rw [silent] at reported
      exact absurd reported (by decide)
    · exact admitted
  · exact absurd ended unsettled

/-- There are never more runs in flight than slots. -/
theorem Accounts.length_inFlight_le (accounts : Accounts slots jobs known schedule) :
    schedule.inFlight.length ≤ slots := by
  have apart : schedule.inFlight.Nodup :=
    (accounts.places.nodup_iff.2 List.nodup_range).filter _
  have fewer := apart.length_le_of_subset accounts.inFlight_subset
  have count := accounts.permits
  rw [List.length_map] at fewer
  omega

/-- A job that waits can be admitted as long as a slot is free. -/
theorem Accounts.admissible (accounts : Accounts slots jobs known schedule)
    (room : schedule.active.length < slots) {place : Nat} {job : Job}
    (waits : (place, job) ∈ schedule.waiting) : schedule.Admissible pipeline place job := by
  have count := accounts.permits
  obtain ⟨before, after, split⟩ := List.append_of_mem waits
  exact ⟨before ++ after, Step.enter (by omega) split⟩

/-- A run that settles leaves room for another, however it ended. -/
theorem admissible_of_settles {step : RunStep} (settles : step.phase.outcome?.isSome = true)
    {place : Nat} {job : Job} (waits : (place, job) ∈ schedule.waiting) :
    (schedule.takeStep run step).Admissible pipeline place job := by
  obtain ⟨outcome, ending⟩ := Option.isSome_iff_exists.1 settles
  obtain ⟨permits, -, -⟩ := @takeStep_of_settled schedule run step outcome ending
  obtain ⟨before, after, split⟩ := List.append_of_mem waits
  exact ⟨before ++ after, Step.enter (by omega) (by rw [takeStep_waiting, split])⟩

theorem stepsLeft_append (first second : List ActiveRun) :
    stepsLeft (first ++ second) = stepsLeft first + stepsLeft second := by
  induction first with
  | nil => simp [stepsLeft]
  | cons run rest ih => simp only [List.cons_append, stepsLeft, ih, Nat.add_assoc]

theorem stepsLeft_perm {first second : List ActiveRun} (same : first.Perm second) :
    stepsLeft first = stepsLeft second := by
  induction same with
  | nil => rfl
  | cons run _ ih => simp only [stepsLeft, ih]
  | swap run other rest => simp only [stepsLeft, Nat.add_left_comm]
  | trans _ _ ih ih' => exact ih.trans ih'

/-- Each step of an active run leaves fewer steps to go. -/
theorem remaining_stepRun_lt (accounts : Accounts slots jobs known schedule)
    (admitted : run ∈ schedule.active) :
    (schedule.stepRun pipeline run).remaining < schedule.remaining := by
  have apart := active_perm accounts.activePlaces_nodup admitted
  have total := stepsLeft_perm apart
  rw [stepsLeft] at total
  have unsettled : run.phase.rank ≠ 0 := by
    intro ended
    obtain ⟨outcome, settled⟩ := Job.settled_of_rank_eq_zero ended
    have := accounts.unsettled run admitted
    rw [settled] at this
    cases this
  have closer := @Job.rank_advance_lt pipeline run.job schedule.disk run.phase unsettled
  rw [stepRun]
  generalize run.job.advance pipeline schedule.disk run.phase = step at closer
  unfold remaining
  rw [takeStep_waiting]
  cases ending : step.phase.outcome? with
  | some outcome =>
      rw [(takeStep_of_settled ending).2.2]
      omega
  | none =>
      rw [(takeStep_of_unsettled ending).2.2]
      have others : (schedule.active.filter (·.place != run.place)).map (fun other =>
          if other.place = run.place then schedule.afterStep run step else other) =
            schedule.active.filter (·.place != run.place) := by
        refine (List.map_congr_left fun other member => ?_).trans (List.map_id _)
        have different : other.place ≠ run.place := by simpa using (List.mem_filter.1 member).2
        rw [if_neg different, id]
      have after := stepsLeft_perm (apart.map fun other =>
        if other.place = run.place then schedule.afterStep run step else other)
      rw [List.map_cons, others, if_pos rfl, stepsLeft] at after
      have advanced : (schedule.afterStep run step).phase.rank = step.phase.rank := rfl
      omega

/-- As long as not all runs have settled, every step brings the schedule closer to its end. -/
theorem remaining_step_lt (accounts : Accounts slots jobs known schedule) (positive : 0 < slots)
    (going : ¬ schedule.AllSettled) :
    (schedule.step pipeline).remaining < schedule.remaining := by
  have stepNext : schedule.active ≠ [] →
      (schedule.stepNext pipeline).remaining < schedule.remaining := by
    intro some
    obtain ⟨run, due⟩ := exists_next? some
    rw [Schedule.stepNext, due]
    exact remaining_stepRun_lt accounts (next?_mem due)
  unfold Schedule.step
  split
  next place job rest waits =>
      split
      next free =>
          simp only [remaining, activate, waits, List.length_cons, stepsLeft_append, stepsLeft,
            Phase.rank]
          omega
      next full =>
          apply stepNext
          intro none
          have count := accounts.permits
          rw [none, List.length_nil] at count
          omega
  next waits => exact stepNext fun none => going ⟨waits, none⟩

/-- With no step to go, all runs have settled. -/
theorem allSettled_of_remaining_eq_zero (accounts : Accounts slots jobs known schedule)
    (ended : schedule.remaining = 0) : schedule.AllSettled := by
  obtain ⟨waiting, active⟩ := Nat.add_eq_zero_iff.1 ended
  constructor
  · rcases Nat.mul_eq_zero.1 waiting with none | impossible
    · exact List.length_eq_zero_iff.1 none
    · cases impossible
  · cases runs : schedule.active with
    | nil => rfl
    | cons run rest =>
        rw [runs, stepsLeft, Nat.add_eq_zero_iff] at active
        obtain ⟨outcome, settled⟩ := Job.settled_of_rank_eq_zero active.1
        have unsettled := accounts.unsettled run (runs ▸ List.mem_cons_self)
        rw [settled] at unsettled
        cases unsettled

/-- A schedule in which all runs have settled stays as it is. -/
theorem step_of_allSettled (ended : schedule.AllSettled) : schedule.step pipeline = schedule := by
  unfold Schedule.step
  rw [ended.1]
  simp only
  unfold Schedule.stepNext
  rw [ended.2]
  rfl

/-- All runs have settled after as many steps as there were to go. -/
theorem allSettled_stepFor (kept : Kept pipeline jobs known) (positive : 0 < slots) (steps : Nat)
    (accounts : Accounts slots jobs known schedule) (enough : schedule.remaining ≤ steps) :
    (schedule.stepFor pipeline steps).AllSettled := by
  induction steps generalizing schedule with
  | zero => exact allSettled_of_remaining_eq_zero accounts (Nat.le_zero.1 enough)
  | succ steps ih =>
      have next := accounts.reaches kept (reaches_step schedule)
      by_cases ended : schedule.AllSettled
      · rw [stepFor, step_of_allSettled ended]
        by_cases more : schedule.remaining ≤ steps
        · exact ih accounts more
        · simp [remaining, ended.1, ended.2, stepsLeft] at more
      · have closer := @remaining_step_lt pipeline schedule slots jobs known accounts positive ended
        exact ih next (by omega)

/-- The schedule that is executed comes to its end. -/
theorem allSettled_finish (kept : Kept pipeline jobs known) (positive : 0 < slots)
    (accounts : Accounts slots jobs known schedule) :
    (schedule.finish pipeline).AllSettled :=
  allSettled_stepFor kept positive schedule.remaining accounts (Nat.le_refl _)

/-- Once all runs have settled, the settled runs in the order of their places are all places. -/
theorem Accounts.sortedPlaces (accounts : Accounts slots jobs known schedule)
    (ended : schedule.AllSettled) :
    (sortInOrder (fun a b => a.1 ≤ b.1) schedule.settled).map (·.1) = List.range jobs.length := by
  have all : (schedule.settled.map (·.1)).Perm (List.range jobs.length) := by
    simpa [Schedule.places, ended.1, ended.2] using accounts.places
  refine @List.Perm.eq_of_pairwise Nat (· ≤ ·) _ _ (fun _ _ _ _ => Nat.le_antisymm) ?_ ?_
    ((perm_sortInOrder.map _).trans all)
  · rw [List.pairwise_map]
    refine (pairwise_sortInOrder ?_ ?_).imp (by simp)
    · intro first second third
      simpa using Nat.le_trans
    · intro first second
      simpa using Nat.le_total first.1 second.1
  · exact List.pairwise_le_range

/-- Every request has exactly one outcome, at its own place. -/
theorem Accounts.outcome (accounts : Accounts slots jobs known schedule)
    (ended : schedule.AllSettled) {place : Nat} {job : Job} (there : jobs[place]? = some job) :
    ∃ outcome, schedule.outcomes[place]? = some outcome ∧
      known place job schedule.disk (schedule.eventsAt place) (.settled outcome) := by
  have sorted := accounts.sortedPlaces ended
  have inRange : place < jobs.length := (List.getElem?_eq_some_iff.1 there).1
  have atPlace := congrArg (·[place]?) sorted
  simp only [List.getElem?_map, List.getElem?_range inRange] at atPlace
  obtain ⟨⟨_, outcome⟩, listed, rfl⟩ := Option.map_eq_some_iff.1 atPlace
  obtain ⟨job', there', known'⟩ := accounts.settled _ outcome
    (perm_sortInOrder.subset (List.mem_of_getElem? listed))
  obtain rfl : job' = job := Option.some.inj (there'.symm.trans there)
  exact ⟨outcome, by simp [outcomes, listed], known'⟩

/-- In the end there is one outcome for each job. -/
theorem Accounts.length_outcomes (accounts : Accounts slots jobs known schedule)
    (ended : schedule.AllSettled) : schedule.outcomes.length = jobs.length := by
  have sorted := congrArg List.length (accounts.sortedPlaces ended)
  simpa [outcomes] using sorted

/-- That a run is amid its trail is kept, whatever other runs do. -/
theorem kept_amid : Kept pipeline jobs fun _ job _ events phase =>
    Job.Amid pipeline job events phase where
  own _ _ disk _ _ _ amid := amid.act disk
  others _ _ _ _ _ _ _ _ _ _ _ _ _ amid := amid

/-- The outcome of a run is for the version that was requested. -/
theorem version_of_amid {job : Job} {events : List RunEvent} {outcome : RunOutcome}
    (amid : Job.Amid pipeline job events (.settled outcome)) :
    outcome.version = job.request.version := by
  obtain ⟨entered, history⟩ := amid.history
  cases outcome with
  | ok result => exact (history.completed result rfl).2
  | error error => exact (history.failed error rfl).2

/-- What holds of a schedule at any moment, whatever came first and whatever the engines answered:
how many runs are under way, that every request is in one place, that a run waits only while all
slots are taken, that the end is in reach, and what the outcomes are when it is reached. -/
structure Orderly (pipeline : Pipeline) (slots : Nat) (jobs : List Job) (schedule : Schedule) :
    Prop where
  bounded : schedule.inFlight.length ≤ slots
  accounted : schedule.places.Perm (List.range jobs.length)
  prompt : schedule.active.length < slots → ∀ place job, (place, job) ∈ schedule.waiting →
    schedule.Admissible pipeline place job
  released : ∀ run ∈ schedule.active,
    (run.job.act pipeline schedule.disk run.phase).phase.outcome?.isSome = true →
      ∀ place job, (place, job) ∈ schedule.waiting →
        (schedule.takeStep run (run.job.act pipeline schedule.disk run.phase)).Admissible
          pipeline place job
  live : ∃ final, Reaches pipeline schedule final ∧ final.AllSettled
  complete : schedule.AllSettled → schedule.outcomes.length = jobs.length ∧
    ∀ place job, jobs[place]? = some job → ∃ outcome, schedule.outcomes[place]? = some outcome ∧
      Job.Amid pipeline job (schedule.eventsAt place) (.settled outcome) ∧
      outcome.version = job.request.version

/-- A schedule with its accounts in order is orderly. -/
theorem Accounts.orderly (accounts : Accounts slots jobs
    (fun _ job _ events phase => Job.Amid pipeline job events phase) schedule)
    (positive : 0 < slots) : Orderly pipeline slots jobs schedule where
  bounded := accounts.length_inFlight_le
  accounted := accounts.places
  prompt room _ _ waits := accounts.admissible room waits
  released _ _ settles _ _ waits := admissible_of_settles settles waits
  live := ⟨_, reaches_stepFor _ _, allSettled_finish kept_amid positive accounts⟩
  complete ended := by
    refine ⟨accounts.length_outcomes ended, fun place job there => ?_⟩
    obtain ⟨outcome, listed, amid⟩ := accounts.outcome ended there
    exact ⟨outcome, listed, amid, version_of_amid amid⟩

theorem accounts_start_amid (slots : Nat) (disk : Disk) (jobs : List Job) :
    Accounts slots jobs (fun _ job _ events phase => Job.Amid pipeline job events phase)
      (start slots disk jobs) :=
  accounts_start disk fun _ _ _ => ⟨disk, disk, Job.Trail.start⟩

/-- The schedule that is executed is one of the schedules, and it comes to its end. -/
theorem exists_runAll? (pipeline : Pipeline) {concurrency : Nat} (disk : Disk) (jobs : List Job)
    (askable : concurrency ≤ slotLimit) :
    ∃ final, runAll? pipeline concurrency disk jobs = some final ∧
      Reaches pipeline (start (max concurrency 1) disk jobs) final ∧ final.AllSettled := by
  refine ⟨_, ?_, reaches_stepFor _ _,
    allSettled_finish kept_amid (Nat.le_max_right _ _) (accounts_start_amid _ disk jobs)⟩
  simp [runAll?, slots?, askable, finish]

/-- With any concurrency that can be asked for, every schedule of the jobs is orderly at every moment,
and the schedule that is executed comes to its end. Every job has an engine of its own here, so that
nothing links the answers of an engine to different runs. -/
theorem orderly_of_reaches (pipeline : Pipeline) (concurrency : Nat) (disk : Disk)
    (jobs : List Job) (askable : concurrency ≤ slotLimit) :
    (∀ schedule, Reaches pipeline (start (max concurrency 1) disk jobs) schedule →
      Orderly pipeline (max concurrency 1) jobs schedule) ∧
    ∃ final, runAll? pipeline concurrency disk jobs = some final ∧
      Reaches pipeline (start (max concurrency 1) disk jobs) final ∧ final.AllSettled := by
  refine ⟨fun schedule reached => ?_, exists_runAll? pipeline disk jobs askable⟩
  have accounts := (accounts_start_amid _ disk jobs).reaches kept_amid reached
  exact accounts.orderly (Nat.le_max_right _ _)

/-- An engine that does everything it is asked for, and takes its time over the first pull. -/
def slowEngine : Engine where
  pull reference := { delay := if reference = "b:1" then 5 else 0, answer := .ok [] }
  build _ _ := { answer := .ok [] }
  run _ _ := { answer := { outcome := .ok { exitCode := 0, container := "c" } } }
  remove _ := .ok ()

def versionJob (version source : String) : Job where
  request :=
    { version, projectName := "p", sourcePath := source, imageNameTemplate := "i:$VERSION"
      dockerfileTemplate := "FROM b:$VERSION", baseImage := "b", testCommand := ["t"] }
  engine := slowEngine

def twoJobs (source : String) : List Job := [versionJob "1" "/proj", versionJob "2" source]

/-- Staging directories are removed after runs that succeed. -/
def discarding : Pipeline := { stagingRoot := "/s", retain := { onSuccess := false } }

/-- A project, and the staging directory that an earlier run of the first version has left. -/
def leftDisk : Disk where
  tree :=
    { entries :=
        [(["proj"], .directory), (["proj", "a"], .file [] false), (["s"], .directory),
          (["s", "autochecker_p1"], .directory)] }

/-- One at a time, and the project of the second one is missing. -/
theorem orderly_twoJobs : 0 ≤ slotLimit ∧
    (runAll? discarding 0 leftDisk (twoJobs "/none")).map (·.outcomes.map Except.isOk) =
      some [true, false] ∧
    (∀ schedule, Reaches discarding (start 1 leftDisk (twoJobs "/none")) schedule →
      Orderly discarding 1 (twoJobs "/none") schedule) ∧
    ∃ final, runAll? discarding 0 leftDisk (twoJobs "/none") = some final ∧
      Reaches discarding (start 1 leftDisk (twoJobs "/none")) final ∧ final.AllSettled :=
  ⟨Nat.zero_le _, by decide +kernel,
    orderly_of_reaches discarding 0 leftDisk (twoJobs "/none") (Nat.zero_le _)⟩

end Schedule

end VersionMatrix
