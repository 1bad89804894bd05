import VersionMatrix.Proofs.Schedule.Admission

/-! What a schedule tells of its runs when they have settled: whose events are in its log, that each
run was started once, and whose outcomes it has. -/
namespace VersionMatrix.Schedule

variable {pipeline : Pipeline} {schedule : Schedule} {slots : Nat} {disk : Disk} {jobs : List Job}

/-- The versions whose runs have been started, once for every time. -/
def started (schedule : Schedule) : List String :=
  (schedule.log.filter (·.event = .state .pending)).map (·.version)

/-- Every event is one of the run at its place, and carries the version of that run. -/
theorem version_of_mem_log (reached : Reaches pipeline (start slots disk jobs) schedule)
    {row : LogRow} (logged : row ∈ schedule.log) :
    ∃ job, jobs[row.place]? = some job ∧ job.request.version = row.version := by
  induction reached with
  | refl => exact absurd logged List.not_mem_nil
  | tail prior last ih =>
      cases last with
      | enter free waits => exact ih logged
      | act admitted =>
          rw [takeStep_log] at logged
          rcases List.mem_append.1 logged with earlier | fresh
          · exact ih earlier
          · obtain ⟨event, -, rfl⟩ := List.mem_map.1 fresh
            have accounts := (accounts_start_amid slots disk jobs).reaches kept_amid prior
            exact ⟨_, (accounts.active _ admitted).1, rfl⟩

/-- A state is logged as often as it is reported. -/
theorem count_state (events : List RunEvent) (state : RunState) :
    events.count (.state state) = (RunEvent.states events).count state := by
  rw [RunEvent.states, List.count_filterMap, List.count]
  refine List.countP_congr fun event _ => ?_
  cases event <;> simp [RunEvent.state?]

/-- A run that has settled has been started once. -/
theorem count_pending_of_amid {job : Job} {events : List RunEvent} {outcome : RunOutcome}
    (amid : Job.Amid pipeline job events (.settled outcome)) :
    events.count (.state .pending) = 1 := by
  obtain ⟨entered, history⟩ := amid.history
  have first : RunState.pending ∉ entered.map RunState.active ++ [.ofOutcome outcome] := by
    cases outcome <;> simp [RunState.ofOutcome]
  rw [count_state, history.states, List.cons_append, List.count_cons_self,
    List.count_eq_zero.2 first]

/-- The events at a place that are of one kind are counted in the log. -/
theorem count_eventsAt (place : Nat) (event : RunEvent) :
    (schedule.eventsAt place).count event =
      ((schedule.log.filter (·.event = event)).map (·.place)).count place := by
  rw [eventsAt, List.count, List.count, List.countP_map, List.countP_map, List.countP_filter,
    List.countP_filter]
  refine List.countP_congr fun row _ => ?_
  simp [Bool.and_comm]

/-- When all runs have settled, each job has been started once, and nothing else has. -/
theorem started_perm (reached : Reaches pipeline (start slots disk jobs) schedule)
    (ended : schedule.AllSettled) :
    schedule.started.Perm (jobs.map (·.request.version)) := by
  have accounts := (accounts_start_amid slots disk jobs).reaches kept_amid reached
  have places : ((schedule.log.filter (·.event = .state .pending)).map (·.place)).Perm
      (List.range jobs.length) := by
    refine List.perm_iff_count.2 fun place => ?_
    rw [← count_eventsAt, List.count_range]
    by_cases inRange : place < jobs.length
    · obtain ⟨outcome, -, amid⟩ :=
        accounts.outcome ended (List.getElem?_eq_getElem inRange)
      rw [count_pending_of_amid amid, if_pos inRange]
    · rw [if_neg inRange, List.count_eq_zero]
      intro member
      obtain ⟨row, picked, -⟩ := List.mem_map.1 member
      obtain ⟨logged, here⟩ := List.mem_filter.1 picked
      obtain ⟨job, there, -⟩ := version_of_mem_log reached logged
      rw [beq_iff_eq.1 here] at there
      exact inRange (List.getElem?_eq_some_iff.1 there).1
  -- Both sides are now read off the places.
  let versionAt (place : Nat) : String := (jobs[place]?.map (·.request.version)).getD ""
  have fromLog : ((schedule.log.filter (·.event = .state .pending)).map (·.place)).map versionAt =
      schedule.started := by
    rw [List.map_map, started]
    refine List.map_congr_left fun row picked => ?_
    obtain ⟨job, there, version⟩ := version_of_mem_log reached (List.mem_filter.1 picked).1
    simp [versionAt, there, version]
  have fromJobs : (List.range jobs.length).map versionAt = jobs.map (·.request.version) := by
    refine List.ext_getElem (by simp) fun place inRange _ => ?_
    have there : place < jobs.length := by simpa using inRange
    simp [versionAt, there]
  exact fromLog ▸ fromJobs ▸ places.map versionAt

/-- The outcomes are those of the jobs, in their order. -/
theorem version_outcomes (reached : Reaches pipeline (start slots disk jobs) schedule)
    (ended : schedule.AllSettled) :
    schedule.outcomes.map RunOutcome.version = jobs.map (·.request.version) := by
  have accounts := (accounts_start_amid slots disk jobs).reaches kept_amid reached
  have length := accounts.length_outcomes ended
  refine List.ext_getElem? fun place => ?_
  by_cases inRange : place < jobs.length
  · obtain ⟨outcome, listed, amid⟩ := accounts.outcome ended (List.getElem?_eq_getElem inRange)
    simp [listed, version_of_amid amid, inRange]
  · simp [length, Nat.le_of_not_lt inRange]

end VersionMatrix.Schedule
