import VersionMatrix.Proofs.Schedule.Interleaving
import Mathlib.Data.List.Nodup

/-! What the schedule keeps in every order: the permits add up, every request is in one place, and
each run is what its own operations have made of it. -/
namespace VersionMatrix.Schedule

variable {pipeline : Pipeline} {schedule : Schedule} {run : ActiveRun} {step : RunStep}

def places (schedule : Schedule) : List Nat :=
  schedule.waiting.map (·.1) ++ schedule.active.map (·.place) ++ schedule.settled.map (·.1)

/-- What is known of each run, given its place, its job, the disk, its events and its phase. -/
abbrev Knowledge := Nat → Job → Disk → List RunEvent → Phase → Prop

/-- What is known of a run survives its own operations and those of the others. -/
structure Kept (pipeline : Pipeline) (jobs : List Job) (known : Knowledge) : Prop where
  own : ∀ place job disk events phase, jobs[place]? = some job → known place job disk events phase →
    known place job (job.act pipeline disk phase).disk
      (events ++ (job.act pipeline disk phase).events) (job.act pipeline disk phase).phase
  others : ∀ place job disk events phase other job' events' phase', jobs[place]? = some job →
    jobs[other]? = some job' → other ≠ place → known place job disk events phase →
    known other job' disk events' phase' →
    known other job' (job.act pipeline disk phase).disk events' phase'

structure Accounts (slots : Nat) (jobs : List Job) (known : Knowledge) (schedule : Schedule) :
    Prop where
  permits : schedule.permits + schedule.active.length = slots
  places : schedule.places.Perm (List.range jobs.length)
  waiting : ∀ place job, (place, job) ∈ schedule.waiting → jobs[place]? = some job ∧
    schedule.eventsAt place = [] ∧ known place job schedule.disk [] .admitted
  active : ∀ run ∈ schedule.active, jobs[run.place]? = some run.job ∧
    known run.place run.job schedule.disk (schedule.eventsAt run.place) run.phase
  settled : ∀ place outcome, (place, outcome) ∈ schedule.settled → ∃ job, jobs[place]? = some job ∧
    known place job schedule.disk (schedule.eventsAt place) (.settled outcome)
  unsettled : ∀ run ∈ schedule.active, run.phase.outcome? = none

variable {slots : Nat} {jobs : List Job} {known : Knowledge}

/-- The accounts are in order before any run is admitted. -/
theorem accounts_start (disk : Disk)
    (initial : ∀ place job, jobs[place]? = some job → known place job disk [] .admitted) :
    Accounts slots jobs known (start slots disk jobs) where
  permits := rfl
  places := by
    have inOrder : (start slots disk jobs).places = List.range jobs.length := by
      simp [Schedule.places, start, Function.comp_def, List.range_eq_range']
    rw [inOrder]
  waiting place job member := by
    obtain ⟨⟨found, at'⟩, listed, same⟩ := List.mem_map.1 member
    simp only [Prod.mk.injEq] at same
    obtain ⟨rfl, rfl⟩ := same
    have there : jobs[at']? = some found := List.mk_mem_zipIdx_iff_getElem?.1 listed
    exact ⟨there, rfl, initial at' found there⟩
  active run member := absurd member List.not_mem_nil
  settled place outcome member := absurd member List.not_mem_nil
  unsettled run member := absurd member List.not_mem_nil

/-- A run is the only one at its place. -/
theorem active_perm {active : List ActiveRun} (apart : (active.map (·.place)).Nodup)
    (admitted : run ∈ active) : active.Perm (run :: active.filter (·.place != run.place)) := by
  induction active with
  | nil => exact absurd admitted List.not_mem_nil
  | cons first rest ih =>
      simp only [List.map_cons, List.nodup_cons] at apart
      rcases List.mem_cons.1 admitted with rfl | later
      · have unchanged : rest.filter (·.place != run.place) = rest := by
          apply List.filter_eq_self.2
          intro other member
          have : other.place ≠ run.place := fun same =>
            apart.1 (same ▸ List.mem_map_of_mem member)
          simpa using this
        simp [unchanged]
      · have kept : first.place ≠ run.place := fun same =>
          apart.1 (same ▸ List.mem_map_of_mem later)
        rw [List.filter_cons_of_pos (by simpa using kept)]
        exact ((ih apart.2 later).cons first).trans (List.Perm.swap ..)

/-- No place is occupied by two runs. -/
theorem Accounts.activePlaces_nodup (accounts : Accounts slots jobs known schedule) :
    (schedule.active.map (·.place)).Nodup := by
  have all := accounts.places.nodup_iff.2 List.nodup_range
  exact (List.nodup_append.1 (List.nodup_append.1 all).1).2.1

/-- A job that waits has no run yet. -/
theorem Accounts.waiting_ne (accounts : Accounts slots jobs known schedule) {place : Nat}
    {job : Job} (waits : (place, job) ∈ schedule.waiting) (admitted : run ∈ schedule.active) :
    place ≠ run.place := by
  have all := accounts.places.nodup_iff.2 List.nodup_range
  exact (List.nodup_append.1 (List.nodup_append.1 all).1).2.2 place
    (List.mem_map_of_mem waits) run.place (List.mem_map_of_mem admitted)

/-- A run that has settled is no longer active. -/
theorem Accounts.settled_ne (accounts : Accounts slots jobs known schedule) {place : Nat}
    {outcome : RunOutcome} (ended : (place, outcome) ∈ schedule.settled)
    (admitted : run ∈ schedule.active) : place ≠ run.place := by
  have all := accounts.places.nodup_iff.2 List.nodup_range
  exact ((List.nodup_append.1 all).2.2 run.place
    (List.mem_append_right _ (List.mem_map_of_mem admitted)) place (List.mem_map_of_mem ended)).symm

/-- The accounts stay in order when a job is admitted. -/
theorem Accounts.enter (accounts : Accounts slots jobs known schedule)
    {before after : List (Nat × Job)} {place : Nat} {job : Job} (free : 0 < schedule.permits)
    (waits : schedule.waiting = before ++ (place, job) :: after) :
    Accounts slots jobs known (schedule.activate place job (before ++ after)) where
  permits := by
    have := accounts.permits
    simp only [activate, List.length_append, List.length_singleton]
    omega
  places := by
    refine List.Perm.trans (List.perm_iff_count.2 fun other => ?_) accounts.places
    simp only [Schedule.places, activate, waits, List.map_append, List.map_cons, List.map_nil,
      List.count_append, List.count_cons, List.count_nil]
    omega
  waiting other job' member := by
    apply accounts.waiting other job'
    rw [waits]
    rcases List.mem_append.1 member with earlier | later
    · exact List.mem_append_left _ earlier
    · exact List.mem_append_right _ (List.mem_cons_of_mem _ later)
  active run member := by
    rcases List.mem_append.1 member with older | fresh
    · exact accounts.active run older
    · obtain rfl := List.mem_singleton.1 fresh
      obtain ⟨there, silent, initial⟩ := accounts.waiting place job
        (waits ▸ List.mem_append_right _ List.mem_cons_self)
      exact ⟨there, silent ▸ initial⟩
  settled other outcome member := accounts.settled other outcome member
  unsettled run member := by
    rcases List.mem_append.1 member with older | fresh
    · exact accounts.unsettled run older
    · exact List.mem_singleton.1 fresh ▸ rfl

theorem eq_settled_of_outcome? {phase : Phase} {outcome : RunOutcome}
    (ended : phase.outcome? = some outcome) : phase = .settled outcome := by
  cases phase with
  | settled other => rw [Option.some.inj ended]
  | _ => cases ended

/-- A step keeps what is known: of the run that takes it, and of every other run. -/
structure Carries (jobs : List Job) (known : Knowledge) (schedule : Schedule) (run : ActiveRun)
    (step : RunStep) : Prop where
  there : jobs[run.place]? = some run.job
  own : known run.place run.job step.disk (schedule.eventsAt run.place ++ step.events) step.phase
  others : ∀ other job phase, jobs[other]? = some job → other ≠ run.place →
    known other job schedule.disk (schedule.eventsAt other) phase →
    known other job step.disk (schedule.eventsAt other) phase

/-- What is known of a run carries over its next action. -/
theorem Accounts.carries (accounts : Accounts slots jobs known schedule)
    (kept : Kept pipeline jobs known) (admitted : run ∈ schedule.active) :
    Carries jobs known schedule run (run.job.act pipeline schedule.disk run.phase) := by
  obtain ⟨there, here⟩ := accounts.active run admitted
  refine ⟨there, kept.own _ _ _ _ _ there here, fun other job phase there' different known' => ?_⟩
  exact kept.others run.place run.job schedule.disk _ run.phase other job _ phase there there'
    different here known'

/-- What is known of a job that waits is still known after a step of some run. -/
theorem Accounts.waiting_takeStep (accounts : Accounts slots jobs known schedule)
    (carries : Carries jobs known schedule run step) (admitted : run ∈ schedule.active)
    (place : Nat) (job : Job) (waits : (place, job) ∈ (schedule.takeStep run step).waiting) :
    jobs[place]? = some job ∧ (schedule.takeStep run step).eventsAt place = [] ∧
      known place job (schedule.takeStep run step).disk [] .admitted := by
  rw [takeStep_waiting] at waits
  obtain ⟨there, silent, initial⟩ := accounts.waiting place job waits
  have different := accounts.waiting_ne waits admitted
  have after := carries.others place job .admitted there different (silent ▸ initial)
  rw [eventsAt_takeStep_of_ne different, takeStep_disk]
  rw [silent] at after ⊢
  exact ⟨there, rfl, after⟩

/-- What is known of a run that has settled is still known after a step of another one. -/
theorem Accounts.settled_takeStep (accounts : Accounts slots jobs known schedule)
    (carries : Carries jobs known schedule run step) (admitted : run ∈ schedule.active)
    {place : Nat} {outcome : RunOutcome} (ended : (place, outcome) ∈ schedule.settled) :
    ∃ job, jobs[place]? = some job ∧ known place job (schedule.takeStep run step).disk
      ((schedule.takeStep run step).eventsAt place) (.settled outcome) := by
  obtain ⟨job, there, known'⟩ := accounts.settled place outcome ended
  have different := accounts.settled_ne ended admitted
  rw [eventsAt_takeStep_of_ne different, takeStep_disk]
  exact ⟨job, there, carries.others place job _ there different known'⟩

/-- What is known of an active run is still known after a step of another one. -/
theorem Accounts.active_takeStep (accounts : Accounts slots jobs known schedule)
    (carries : Carries jobs known schedule run step) {other : ActiveRun}
    (admitted : other ∈ schedule.active) (different : other.place ≠ run.place) :
    jobs[other.place]? = some other.job ∧
      known other.place other.job (schedule.takeStep run step).disk
        ((schedule.takeStep run step).eventsAt other.place) other.phase := by
  obtain ⟨there, known'⟩ := accounts.active other admitted
  rw [eventsAt_takeStep_of_ne different, takeStep_disk]
  exact ⟨there, carries.others other.place other.job _ there different known'⟩

/-- A run that has not settled by its step stays where it was. -/
theorem Accounts.goesOn (accounts : Accounts slots jobs known schedule)
    (carries : Carries jobs known schedule run step) (admitted : run ∈ schedule.active)
    (ending : step.phase.outcome? = none) :
    Accounts slots jobs known (schedule.takeStep run step) := by
  obtain ⟨permits', settled', active'⟩ := @takeStep_of_unsettled schedule run step ending
  have same : (schedule.takeStep run step).places = schedule.places := by
    simp only [Schedule.places, takeStep_waiting, settled', active', List.map_map]
    congr 2
    apply List.map_congr_left
    intro other _
    by_cases atPlace : other.place = run.place <;> simp [atPlace, afterStep]
  -- Every active run is this one after its step, or another one as it was.
  have either : ∀ other ∈ (schedule.takeStep run step).active,
      other = schedule.afterStep run step ∨
        other ∈ schedule.active ∧ other.place ≠ run.place := by
    rw [active']
    intro other member
    obtain ⟨older, inActive, rfl⟩ := List.mem_map.1 member
    by_cases atPlace : older.place = run.place
    · exact Or.inl (if_pos atPlace)
    · rw [if_neg atPlace]
      exact Or.inr ⟨inActive, atPlace⟩
  refine ⟨?_, same ▸ accounts.places, accounts.waiting_takeStep carries admitted, ?_, ?_, ?_⟩
  · rw [permits', active', List.length_map]
    exact accounts.permits
  · intro other member
    rcases either other member with rfl | ⟨inActive, different⟩
    · simp only [afterStep, takeStep_disk, eventsAt_takeStep_self]
      exact ⟨carries.there, carries.own⟩
    · exact accounts.active_takeStep carries inActive different
  · rw [settled']
    exact fun place outcome ended => accounts.settled_takeStep carries admitted ended
  · intro other member
    rcases either other member with rfl | ⟨inActive, -⟩
    · exact ending
    · exact accounts.unsettled other inActive

/-- A run that has settled by its step gives its permit back. -/
theorem Accounts.settles (accounts : Accounts slots jobs known schedule)
    (carries : Carries jobs known schedule run step) (admitted : run ∈ schedule.active)
    {outcome : RunOutcome} (ending : step.phase.outcome? = some outcome) :
    Accounts slots jobs known (schedule.takeStep run step) := by
  obtain ⟨permits', settled', active'⟩ := @takeStep_of_settled schedule run step outcome ending
  have apart := active_perm accounts.activePlaces_nodup admitted
  refine ⟨?_, ?_, accounts.waiting_takeStep carries admitted, ?_, ?_, ?_⟩
  · have count := accounts.permits
    rw [apart.length_eq, List.length_cons] at count
    rw [permits', active']
    omega
  · refine List.Perm.trans (List.perm_iff_count.2 fun other => ?_) accounts.places
    have counted := (apart.map (·.place)).count_eq other
    simp only [Schedule.places, takeStep_waiting, settled', active', List.map_append,
      List.map_cons, List.map_nil, List.count_append, List.count_cons, List.count_nil] at *
    omega
  · rw [active']
    intro other member
    obtain ⟨inActive, different⟩ := List.mem_filter.1 member
    exact accounts.active_takeStep carries inActive (by simpa using different)
  · rw [settled']
    intro place outcome' member
    rcases List.mem_append.1 member with older | fresh
    · exact accounts.settled_takeStep carries admitted older
    · obtain ⟨rfl, rfl⟩ := Prod.mk.injEq .. ▸ List.mem_singleton.1 fresh
      refine ⟨run.job, carries.there, ?_⟩
      rw [takeStep_disk, eventsAt_takeStep_self, ← eq_settled_of_outcome? ending]
      exact carries.own
  · rw [active']
    intro other member
    exact accounts.unsettled other (List.mem_filter.1 member).1

/-- The accounts stay in order when an active run acts. -/
theorem Accounts.act (accounts : Accounts slots jobs known schedule)
    (kept : Kept pipeline jobs known) (admitted : run ∈ schedule.active) :
    Accounts slots jobs known
      (schedule.takeStep run (run.job.act pipeline schedule.disk run.phase)) := by
  have carries := accounts.carries kept admitted
  cases ending : (run.job.act pipeline schedule.disk run.phase).phase.outcome? with
  | none => exact accounts.goesOn carries admitted ending
  | some outcome => exact accounts.settles carries admitted ending

/-- The accounts hold after any number of operations in any order. -/
theorem Accounts.reaches (accounts : Accounts slots jobs known schedule)
    (kept : Kept pipeline jobs known) {later : Schedule}
    (reached : Reaches pipeline schedule later) : Accounts slots jobs known later := by
  induction reached with
  | refl => exact accounts
  | tail _ last ih =>
      cases last with
      | enter free waits => exact ih.enter free waits
      | act admitted => exact ih.act kept admitted

end VersionMatrix.Schedule
