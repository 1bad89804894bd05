import VersionMatrix.Pipeline.Run
import Mathlib.Data.List.Basic

/-! What a run lets others see on its way, whatever they do to the disk in between. A run that
nothing interrupts is one of these. -/
namespace VersionMatrix.Job

variable {pipeline : Pipeline} {job : Job}

/-- The events of a run up to a phase, and the disk that its last operation left. Between two
operations others may have changed the disk. -/
inductive Trail (pipeline : Pipeline) (job : Job) (meanwhile : Disk → Disk → Prop)
    (initial : Disk) : List RunEvent → Phase → Disk → Prop where
  | start : Trail pipeline job meanwhile initial [] .admitted initial
  | act {events : List RunEvent} {phase : Phase} {left found : Disk}
      (prior : Trail pipeline job meanwhile initial events phase left)
      (changed : meanwhile left found) :
      Trail pipeline job meanwhile initial (events ++ (act pipeline job found phase).events)
        (act pipeline job found phase).phase (act pipeline job found phase).disk

/-- A run that has the disk to itself. -/
abbrev Solo (pipeline : Pipeline) (job : Job) (initial : Disk) :
    List RunEvent → Phase → Disk → Prop :=
  Trail pipeline job Eq initial

/-- A run amid others that may do anything to the disk. -/
def Amid (pipeline : Pipeline) (job : Job) (events : List RunEvent) (phase : Phase) : Prop :=
  ∃ initial left, Trail pipeline job (fun _ _ => True) initial events phase left

theorem Amid.act {events : List RunEvent} {phase : Phase} (amid : Amid pipeline job events phase)
    (disk : Disk) :
    Amid pipeline job (events ++ (act pipeline job disk phase).events)
      (act pipeline job disk phase).phase := by
  obtain ⟨initial, left, trail⟩ := amid
  exact ⟨initial, _, trail.act trivial⟩

variable {initial : Disk}

/-- A run that is alone is still alone after its next action. -/
theorem Solo.act {events : List RunEvent} {phase : Phase} {disk : Disk}
    (solo : Solo pipeline job initial events phase disk) :
    Solo pipeline job initial (events ++ (act pipeline job disk phase).events)
      (act pipeline job disk phase).phase (act pipeline job disk phase).disk :=
  Trail.act solo rfl

/-- Work on the disk shows nothing until it is done. -/
theorem Solo.work {events : List RunEvent} {stage : Stage} {rest : DiskAction Unit}
    {after : Phase} {disk : Disk}
    (solo : Solo pipeline job initial events (.working stage rest after) disk) :
    Solo pipeline job initial events (.working stage (.done (rest.run disk).1) after)
      (rest.run disk).2 := by
  induction rest generalizing disk with
  | done result => exact solo
  | operate effect next ih =>
      have step := solo.act
      simp only [Job.act, List.append_nil] at step
      exact ih disk step

theorem Solo.settle {events : List RunEvent} {step : RunStep}
    (solo : Solo pipeline job initial (events ++ step.events) step.phase step.disk) :
    Solo pipeline job initial (events ++ (settle pipeline job step).events)
      (settle pipeline job step).phase (settle pipeline job step).disk := by
  unfold Job.settle
  split
  next outcome leaving =>
      rw [leaving] at solo
      simpa [Job.act] using solo.act
  next => exact solo

theorem Solo.complete {events : List RunEvent} {step : RunStep}
    (solo : Solo pipeline job initial (events ++ step.events) step.phase step.disk) :
    Solo pipeline job initial (events ++ (complete pipeline job step).events)
      (complete pipeline job step).phase (complete pipeline job step).disk := by
  unfold Job.complete
  split
  next stage rest after working =>
      rw [working] at solo
      apply Solo.settle
      have finished := solo.work.act
      cases hResult : (rest.run step.disk).1 with
      | ok value => simpa [Job.act, hResult, proceed] using finished
      | error source => simpa [Job.act, hResult, proceed, leave] using finished
  next => exact Solo.settle solo

/-- A step without interruption is some operations of the run in a row. -/
theorem Solo.advance {events : List RunEvent} {phase : Phase} {disk : Disk}
    (solo : Solo pipeline job initial events phase disk) :
    Solo pipeline job initial (events ++ (advance pipeline job disk phase).events)
      (advance pipeline job disk phase).phase (advance pipeline job disk phase).disk :=
  Solo.complete solo.act

/-- A run that is alone is so after any number of steps. -/
theorem Solo.runFor {events : List RunEvent} {phase : Phase} {disk : Disk}
    (solo : Solo pipeline job initial events phase disk) (steps : Nat) :
    Solo pipeline job initial (events ++ (runFor pipeline job steps disk phase).1)
      (runFor pipeline job steps disk phase).2.1 (runFor pipeline job steps disk phase).2.2 := by
  induction steps generalizing events phase disk with
  | zero => simpa [Job.runFor] using solo
  | succ steps ih => simpa [Job.runFor, List.append_assoc] using ih solo.advance

/-- The events of a run after so many operations, its phase, and the disk. -/
def soloAt (pipeline : Pipeline) (job : Job) (initial : Disk) :
    (count : Nat) → List RunEvent × Phase × Disk
  | 0 => ([], .admitted, initial)
  | count + 1 =>
    let (events, phase, left) := soloAt pipeline job initial count
    let step := act pipeline job left phase
    (events ++ step.events, step.phase, step.disk)

/-- A run that is alone has come as far as some number of actions takes it. -/
theorem Solo.exists_eq_soloAt {events : List RunEvent} {phase : Phase} {left : Disk}
    (solo : Solo pipeline job initial events phase left) :
    ∃ count, soloAt pipeline job initial count = (events, phase, left) := by
  induction solo with
  | start => exact ⟨0, rfl⟩
  | act prior same ih =>
      obtain ⟨count, reached⟩ := ih
      exact ⟨count + 1, by rw [soloAt, reached, same]⟩

/-- A settled run stays as it is. -/
theorem soloAt_add {events : List RunEvent} {outcome : RunOutcome} {left : Disk} {count : Nat}
    (ended : soloAt pipeline job initial count = (events, .settled outcome, left)) (more : Nat) :
    soloAt pipeline job initial (count + more) = (events, .settled outcome, left) := by
  induction more with
  | zero => exact ended
  | succ more ih =>
      rw [← Nat.add_assoc, soloAt, ih]
      simp [Job.act]

/-- A run that is alone settles in one way only. -/
theorem Solo.unique {events events' : List RunEvent} {outcome outcome' : RunOutcome}
    {left left' : Disk} (solo : Solo pipeline job initial events (.settled outcome) left)
    (solo' : Solo pipeline job initial events' (.settled outcome') left') :
    events = events' ∧ outcome = outcome' ∧ left = left' := by
  obtain ⟨count, ended⟩ := solo.exists_eq_soloAt
  obtain ⟨count', ended'⟩ := solo'.exists_eq_soloAt
  have same := soloAt_add ended count'
  rw [Nat.add_comm, soloAt_add ended' count] at same
  obtain ⟨rfl, rest⟩ := Prod.mk.inj same
  obtain ⟨settled, rfl⟩ := Prod.mk.inj rest
  exact ⟨rfl, (Phase.settled.inj settled).symm, rfl⟩

theorem rank_settle_le (step : RunStep) :
    (settle pipeline job step).phase.rank ≤ step.phase.rank := by
  unfold settle
  split <;> simp [Phase.rank]

theorem rank_settle_proceed_le {α : Type} {stage : Stage} {disk : Disk} {events : List RunEvent}
    {result : Except StageError α} {next : α → Phase} {bound : Nat}
    (closer : ∀ value, (next value).rank ≤ bound) :
    (settle pipeline job (proceed job stage disk events result next)).phase.rank ≤ bound := by
  cases result with
  | ok value => exact Nat.le_trans (rank_settle_le _) (closer value)
  | error source => exact Nat.zero_le bound

theorem rank_complete_le (step : RunStep) :
    (complete pipeline job step).phase.rank ≤ step.phase.rank := by
  unfold complete
  split
  next stage rest after working =>
      rw [working]
      exact rank_settle_proceed_le fun _ => Nat.le_succ after.rank
  next => exact rank_settle_le step

theorem rank_proceed_lt {α : Type} {stage : Stage} {disk : Disk} {events : List RunEvent}
    {result : Except StageError α} {next : α → Phase} {bound : Nat} (positive : 1 < bound)
    (closer : ∀ value, (next value).rank < bound) :
    (proceed job stage disk events result next).phase.rank < bound := by
  cases result with
  | ok value => exact closer value
  | error source => exact positive

theorem rank_advance_working_le (disk : Disk) (stage : Stage) (rest : DiskAction Unit)
    (after : Phase) :
    (advance pipeline job disk (.working stage rest after)).phase.rank ≤ after.rank := by
  cases rest with
  | operate effect next => exact rank_settle_proceed_le fun _ => Nat.le_refl _
  | done result =>
      cases result with
      | ok value => exact rank_complete_le _
      | error source => exact Nat.zero_le after.rank

/-- Every step of a run that has not settled brings it closer to its end. -/
theorem rank_advance_lt (disk : Disk) {phase : Phase} (unsettled : phase.rank ≠ 0) :
    (advance pipeline job disk phase).phase.rank < phase.rank := by
  cases phase with
  | settled outcome => exact absurd rfl unsettled
  | leaving outcome => exact Nat.zero_lt_one
  | working stage rest after =>
      exact Nat.lt_succ_of_le (rank_advance_working_le disk stage rest after)
  | admitted =>
      refine Nat.lt_of_le_of_lt (rank_complete_le _) ?_
      rw [act]
      split <;> simp [Phase.rank]
  | building image =>
      refine Nat.lt_of_le_of_lt (rank_complete_le _) ?_
      rw [act]
      split <;> simp [Phase.rank, leave]
  | pulled image answer =>
      refine Nat.lt_of_le_of_lt (rank_complete_le _) (rank_proceed_lt ?_ ?_) <;> simp [Phase.rank]
  | built image answer =>
      refine Nat.lt_of_le_of_lt (rank_complete_le _) (rank_proceed_lt ?_ ?_) <;> simp [Phase.rank]
  | _ => exact Nat.lt_of_le_of_lt (rank_complete_le _) (by simp [act, leave, Phase.rank])

theorem settled_of_rank_eq_zero {phase : Phase} (ended : phase.rank = 0) :
    ∃ outcome, phase = .settled outcome := by
  cases phase with
  | settled outcome => exact ⟨outcome, rfl⟩
  | _ => simp [Phase.rank] at ended

/-- Each step takes a run nearer to its end by at least one. -/
theorem rank_runFor_le (steps : Nat) (disk : Disk) (phase : Phase) :
    (runFor pipeline job steps disk phase).2.1.rank ≤ phase.rank - steps := by
  induction steps generalizing disk phase with
  | zero => exact Nat.le_refl _
  | succ steps ih =>
      have rest := ih (advance pipeline job disk phase).disk (advance pipeline job disk phase).phase
      by_cases ended : phase.rank = 0
      · obtain ⟨outcome, rfl⟩ := settled_of_rank_eq_zero ended
        exact Nat.le_trans rest (by simp [advance, act, complete, settle, Phase.rank])
      · have closer := @rank_advance_lt pipeline job disk phase ended
        exact Nat.le_trans rest (by omega)

/-- A run settles within as many steps as it has stages ahead. -/
theorem exists_runFor_eq (steps : Nat) (enough : Phase.admitted.rank ≤ steps) (disk : Disk) :
    ∃ events outcome final,
      runFor pipeline job steps disk .admitted = (events, .settled outcome, final) ∧
        Solo pipeline job disk events (.settled outcome) final := by
  have solo := @Solo.runFor pipeline job disk _ _ disk Trail.start steps
  have ended := @rank_runFor_le pipeline job steps disk .admitted
  rw [Nat.sub_eq_zero_of_le enough] at ended
  obtain ⟨outcome, settled⟩ := settled_of_rank_eq_zero (Nat.le_zero.1 ended)
  rw [settled, List.nil_append] at solo
  exact ⟨_, outcome, _, Prod.ext rfl (Prod.ext settled rfl), solo⟩

/-- A whole run settles. -/
theorem exists_run_eq (pipeline : Pipeline) (job : Job) (disk : Disk) :
    ∃ events outcome final, job.run pipeline disk = (events, .settled outcome, final) ∧
      Solo pipeline job disk events (.settled outcome) final :=
  exists_runFor_eq Phase.admitted.rank (Nat.le_refl _) disk

end VersionMatrix.Job
