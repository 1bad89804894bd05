import VersionMatrix.Proofs.Run.Isolation
import VersionMatrix.Proofs.Schedule.Admission

/-! Runs at once come to what they come to one after the other, whatever the order of their operations,
if their projects and staging directories are apart. -/
namespace VersionMatrix

open FileTree Disk

variable {pipeline : Pipeline} {jobs rest : List Job} {job other : Job} {initial disk left : Disk}
  {events : List RunEvent} {phase : Phase} {loc : Location}

/-- Jobs that are apart on a disk. Every job has a staging directory of its own. Every project is apart
from every staging directory, and no link stands in it in place of the image definition. The path of a
staging directory leads through no other one. -/
structure Separate (pipeline : Pipeline) (jobs : List Job) (disk : Disk) : Prop where
  distinct : (jobs.map fun job => pipeline.stagingDirectory job.request).Nodup
  apart : ∀ job ∈ jobs, ∀ other ∈ jobs,
    Apart disk job.request.sourcePath (pipeline.stagingDirectory other.request)
  plain : ∀ job ∈ jobs, PlainDefinition disk job.request.sourcePath
  aside : ∀ job ∈ jobs, ∀ other ∈ jobs,
    pipeline.stagingDirectory other.request ≠ pipeline.stagingDirectory job.request →
      ∀ loc ∈ disk.route (pipeline.stagingDirectory job.request),
        ¬ disk.Held (pipeline.stagingDirectory other.request) loc

/-- What is kept for the other jobs. -/
def Foreign (pipeline : Pipeline) (jobs : List Job) (disk : Disk) (job : Job) (loc : Location) :
    Prop :=
  ∃ other ∈ jobs, pipeline.stagingDirectory other.request ≠ pipeline.stagingDirectory job.request ∧
    disk.Held (pipeline.stagingDirectory other.request) loc

/-- What is kept for one staging directory is not kept for another below the same root. -/
theorem not_held_of_ne {pipeline : Pipeline} {request request' : RunRequest}
    (ne : pipeline.stagingDirectory request' ≠ pipeline.stagingDirectory request)
    (held : disk.Held (pipeline.stagingDirectory request) loc) :
    ¬ disk.Held (pipeline.stagingDirectory request') loc := by
  rintro ⟨top', placed', inside'⟩
  obtain ⟨top, placed, inside⟩ := held
  obtain ⟨-, dir, rfl, -, opens⟩ := opens_of_place?_stagingPath placed
  obtain ⟨-, dir', rfl, -, opens'⟩ := opens_of_place?_stagingPath placed'
  obtain rfl := opens.unique opens'
  have same := List.append_cancel_left
    ((List.prefix_of_prefix_length_le inside inside' (by simp)).eq_of_length (by simp))
  rw [List.cons.injEq] at same
  exact ne (congrArg (Path.join pipeline.stagingRoot) same.1.symm)

/-- What a job's own staging directory holds is not foreign to it. -/
theorem not_foreign_of_held (held : disk.Held (pipeline.stagingDirectory job.request) loc) :
    ¬ Foreign pipeline jobs disk job loc := by
  rintro ⟨other, -, ne, held'⟩
  exact not_held_of_ne ne held held'

namespace Separate

theorem clearPaths (separate : Separate pipeline jobs disk) (member : job ∈ jobs) :
    ClearPaths (Foreign pipeline jobs disk job) job.request.sourcePath
      (pipeline.stagingDirectory job.request) disk where
  fromSource loc looked := by
    rintro ⟨other, listed, -, top, placed, inside⟩
    exact (separate.apart job member other listed).aside top placed loc looked inside
  toPlace loc looked := by
    rintro ⟨other, listed, ne, held⟩
    exact separate.aside job member other listed ne loc looked held

/-- The root leads through no staging directory, since it is on the way to another one. -/
theorem not_held_of_root (separate : Separate pipeline jobs disk)
    (several : ∀ job ∈ jobs, ∃ other ∈ jobs,
      pipeline.stagingDirectory job.request ≠ pipeline.stagingDirectory other.request)
    (member : job ∈ jobs) (looked : loc ∈ disk.route pipeline.stagingRoot) :
    ¬ disk.Held (pipeline.stagingDirectory job.request) loc := by
  obtain ⟨other, listed, ne⟩ := several job member
  exact separate.aside other listed job member ne loc (route_root_subset disk _ _ _ looked)

/-- Every job keeps to its own part of the disk. -/
theorem keeps (separate : Separate pipeline jobs disk)
    (several : ∀ job ∈ jobs, ∃ other ∈ jobs,
      pipeline.stagingDirectory job.request ≠ pipeline.stagingDirectory other.request)
    (member : job ∈ jobs) :
    Job.Keeps (disk.Held (pipeline.stagingDirectory job.request)) (Foreign pipeline jobs disk job)
      pipeline job disk .admitted := by
  have clear := separate.clearPaths member
  cases placed : disk.place? (pipeline.stagingDirectory job.request) with
  | none => exact Job.keeps_of_unplaced clear placed
  | some top =>
      obtain ⟨proper, dir, rfl, sound, opens⟩ := opens_of_place?_stagingPath placed
      have held : ∀ loc, dir ++ [stagingName job.request.projectName job.request.version] <+: loc →
          disk.Held (pipeline.stagingDirectory job.request) loc :=
        fun loc inside => ⟨_, placed, inside⟩
      have root : ∀ loc ∈ disk.route pipeline.stagingRoot,
          ¬ (dir ++ [stagingName job.request.projectName job.request.version] <+: loc ∨
            Foreign pipeline jobs disk job loc) := by
        rintro loc looked (inside | ⟨other, listed, -, held'⟩)
        · exact separate.not_held_of_root several member looked (held loc inside)
        · exact separate.not_held_of_root several listed looked held'
      refine Job.keeps_of_site rfl clear (separate.apart job member job member)
        (separate.plain job member) placed ⟨proper, sound, ?_, ?_, opens.avoid root⟩ ?_ held
      · exact fun loc inside => not_foreign_of_held (held loc inside)
      · rintro ⟨other, -, -, top, placed', inside⟩
        obtain ⟨-, dir', rfl, -, opens'⟩ := opens_of_place?_stagingPath placed'
        obtain rfl := opens.unique opens'
        have longer := inside.length_le
        rw [List.length_append, List.length_singleton] at longer
        omega
      · rintro project found loc inside ⟨other, listed, -, top, placed', within⟩
        exact (separate.apart job member other listed).not_within placed' found inside within

end Separate

/-- A run has come as far as it comes alone, and its part of the disk is as it leaves it alone. -/
def Undisturbed (pipeline : Pipeline) (jobs : List Job) (initial : Disk) (job : Job) (disk : Disk)
    (events : List RunEvent) (phase : Phase) : Prop :=
  ∃ left, Job.Solo pipeline job initial events phase left ∧
    AgreeOff (Foreign pipeline jobs initial job) left disk

/-- Only what is kept for some job is changed. -/
abbrev Any (pipeline : Pipeline) (jobs : List Job) (disk : Disk) (loc : Location) : Prop :=
  ∃ job ∈ jobs, disk.Held (pipeline.stagingDirectory job.request) loc

namespace Undisturbed

variable {events' : List RunEvent} {outcome outcome' : RunOutcome} {disk' : Disk}

/-- An undisturbed run settles in one way only, up to what belongs to other jobs. -/
theorem unique (alone : Undisturbed pipeline jobs initial job disk events (.settled outcome))
    (alone' : Undisturbed pipeline jobs initial job disk' events' (.settled outcome')) :
    events = events' ∧ outcome = outcome' ∧
      AgreeOff (Foreign pipeline jobs initial job) disk disk' := by
  obtain ⟨left, solo, agree⟩ := alone
  obtain ⟨left', solo', agree'⟩ := alone'
  obtain ⟨rfl, rfl, rfl⟩ := solo.unique solo'
  exact ⟨rfl, rfl, agree.symm.trans agree'⟩

/-- An undisturbed run changes nothing outside the staging directories. -/
theorem agreeOff_any (alone : Undisturbed pipeline jobs initial job disk events phase)
    (member : job ∈ jobs)
    (keeps : Job.Keeps (initial.Held (pipeline.stagingDirectory job.request))
      (Foreign pipeline jobs initial job) pipeline job initial .admitted) :
    AgreeOff (Any pipeline jobs initial) initial disk := by
  obtain ⟨left, solo, agree⟩ := alone
  obtain ⟨_, _, _, kept⟩ := Job.Solo.mirror keeps (AgreeOff.refl _ initial) solo
  refine (kept.mono fun loc held => ⟨job, member, held⟩).trans (agree.mono ?_)
  rintro loc ⟨other, listed, -, held⟩
  exact ⟨other, listed, held⟩

end Undisturbed

/-- What is known of runs that nothing disturbs. -/
theorem kept_undisturbed
    (distinct : (jobs.map fun job => pipeline.stagingDirectory job.request).Nodup)
    (keeps : ∀ job ∈ jobs, Job.Keeps (initial.Held (pipeline.stagingDirectory job.request))
      (Foreign pipeline jobs initial job) pipeline job initial .admitted) :
    Schedule.Kept pipeline jobs fun _ job disk events phase =>
      Undisturbed pipeline jobs initial job disk events phase where
  own place job disk events phase there alone := by
    obtain ⟨left, solo, agree⟩ := alone
    have step := Job.mirrored_act (Job.Solo.keeps solo (keeps job (List.mem_of_getElem? there))) agree
    refine ⟨_, ?_, step.agree⟩
    rw [step.events, step.phase]
    exact solo.act
  others place job disk events phase place' other events' phase' there there' ne alone alone' := by
    obtain ⟨left, solo, agree⟩ := alone
    obtain ⟨left', solo', agree'⟩ := alone'
    have member := List.mem_of_getElem? there
    have step := Job.mirrored_act (Job.Solo.keeps solo (keeps job member)) agree
    refine ⟨left', solo', agree'.trans (step.kept.mono fun loc held => ⟨job, member, ?_, held⟩)⟩
    intro same
    have atPlace : (jobs.map fun job => pipeline.stagingDirectory job.request)[place']? =
        (jobs.map fun job => pipeline.stagingDirectory job.request)[place]? := by
      rw [List.getElem?_map, List.getElem?_map, there, there', Option.map_some, Option.map_some, same]
    have inRange : place' < (jobs.map fun job => pipeline.stagingDirectory job.request).length := by
      rw [List.length_map]
      exact (List.getElem?_eq_some_iff.1 there').1
    exact ne ((List.getElem?_inj inRange distinct).1 atPlace)

/-- Runs jobs one after the other: the events of each and the phase it ends in, and the disk. -/
def inTurn (pipeline : Pipeline) : List Job → Disk → List (List RunEvent × Phase) × Disk
  | [], disk => ([], disk)
  | job :: rest, disk =>
    let (events, last, left) := job.run pipeline disk
    let (others, final) := inTurn pipeline rest left
    ((events, last) :: others, final)

theorem length_inTurn (jobs : List Job) (disk : Disk) :
    (inTurn pipeline jobs disk).1.length = jobs.length := by
  induction jobs generalizing disk with
  | nil => rfl
  | cons job rest ih => exact congrArg (· + 1) (ih _)

/-- Jobs that run in turn do not disturb each other either. -/
theorem undisturbed_inTurn
    (keeps : ∀ job ∈ jobs, Job.Keeps (initial.Held (pipeline.stagingDirectory job.request))
      (Foreign pipeline jobs initial job) pipeline job initial .admitted)
    (listed : ∀ job ∈ rest, job ∈ jobs)
    (distinct : (rest.map fun job => pipeline.stagingDirectory job.request).Nodup)
    (agree : ∀ job ∈ rest, AgreeOff (Foreign pipeline jobs initial job) initial disk) :
    AgreeOff (Any pipeline rest initial) disk (inTurn pipeline rest disk).2 ∧
      ∀ (place : Nat) job, rest[place]? = some job → ∃ events outcome,
        (inTurn pipeline rest disk).1[place]? = some (events, Phase.settled outcome) ∧
        Undisturbed pipeline jobs initial job (inTurn pipeline rest disk).2 events
          (.settled outcome) := by
  induction rest generalizing disk with
  | nil => exact ⟨AgreeOff.refl _ disk, fun place job there => by simp at there⟩
  | cons first rest ih =>
      rw [List.map_cons, List.nodup_cons] at distinct
      rw [List.forall_mem_cons] at listed agree
      obtain ⟨events, outcome, left, settled, solo⟩ := Job.exists_run_eq pipeline first disk
      obtain ⟨mirror, alone, agree', kept⟩ :=
        Job.Solo.mirror (keeps first listed.1) agree.1 solo
      -- The first job changes what is foreign to the others, so they find the same.
      have others : ∀ job ∈ rest, AgreeOff (Foreign pipeline jobs initial job) initial left := by
        intro job member
        refine (agree.2 job member).trans (kept.mono fun loc held => ⟨first, listed.1, ?_, held⟩)
        intro same
        exact distinct.1 (List.mem_map.2 ⟨job, member, same.symm⟩)
      obtain ⟨rest', places⟩ := ih listed.2 distinct.2 others
      have unfolded : inTurn pipeline (first :: rest) disk =
          ((events, .settled outcome) :: (inTurn pipeline rest left).1,
            (inTurn pipeline rest left).2) := by
        rw [inTurn, settled]
      rw [unfolded]
      refine ⟨?_, fun place job there => ?_⟩
      · refine (kept.mono fun loc held => ⟨first, List.mem_cons_self, held⟩).trans (rest'.mono ?_)
        rintro loc ⟨job, member, held⟩
        exact ⟨job, List.mem_cons_of_mem _ member, held⟩
      · cases place with
        | succ place => exact places place job there
        | zero =>
            obtain rfl := Option.some.inj there
            refine ⟨events, outcome, rfl, mirror, alone, agree'.trans (rest'.mono ?_)⟩
            rintro loc ⟨job, member, held⟩
            refine ⟨job, listed.2 job member, fun same => ?_, held⟩
            exact distinct.1 (List.mem_map.2 ⟨job, member, same⟩)

namespace Schedule

variable {slots : Nat} {schedule : Schedule}

/-- A schedule that has come to what the jobs come to one after the other: the same outcomes, the same
events of every job, and the same disk. -/
structure AsInTurn (pipeline : Pipeline) (jobs : List Job) (disk : Disk) (schedule : Schedule) :
    Prop where
  outcomes : schedule.outcomes.map Phase.settled = (inTurn pipeline jobs disk).1.map (·.2)
  events : (List.range jobs.length).map schedule.eventsAt = (inTurn pipeline jobs disk).1.map (·.1)
  disk : AgreeOff (fun _ => False) schedule.disk (inTurn pipeline jobs disk).2

/-- It is enough to look at one job at a time. -/
theorem asInTurn_of_places (length : schedule.outcomes.length = jobs.length)
    (places : ∀ (place : Nat) job, jobs[place]? = some job → ∃ outcome,
      schedule.outcomes[place]? = some outcome ∧
        (inTurn pipeline jobs disk).1[place]? = some (schedule.eventsAt place, Phase.settled outcome))
    (same : AgreeOff (fun _ => False) schedule.disk (inTurn pipeline jobs disk).2) :
    AsInTurn pipeline jobs disk schedule where
  outcomes := by
    refine List.ext_getElem? fun place => ?_
    rw [List.getElem?_map, List.getElem?_map]
    cases there : jobs[place]? with
    | none =>
        have beyond := List.getElem?_eq_none_iff.1 there
        rw [List.getElem?_eq_none_iff.2 (length ▸ beyond),
          List.getElem?_eq_none_iff.2 ((length_inTurn jobs disk).symm ▸ beyond)]
        rfl
    | some job =>
        obtain ⟨outcome, ended, row⟩ := places place job there
        rw [ended, row]
        rfl
  events := by
    refine List.ext_getElem? fun place => ?_
    rw [List.getElem?_map, List.getElem?_map]
    cases there : jobs[place]? with
    | none =>
        have beyond := List.getElem?_eq_none_iff.1 there
        rw [List.getElem?_eq_none_iff.2 ((List.length_range).symm ▸ beyond),
          List.getElem?_eq_none_iff.2 ((length_inTurn jobs disk).symm ▸ beyond)]
        rfl
    | some job =>
        obtain ⟨outcome, -, row⟩ := places place job there
        rw [List.getElem?_range (List.getElem?_eq_some_iff.1 there).1, row]
        rfl
  disk := same

/-- Nothing happens any more when all runs have settled. -/
theorem eq_of_reaches_of_allSettled {later : Schedule} (ended : schedule.AllSettled)
    (reached : Reaches pipeline schedule later) : later = schedule := by
  induction reached with
  | refl => rfl
  | tail _ last ih =>
      subst ih
      cases last with
      | enter free waits => simp [ended.1] at waits
      | act admitted => simp [ended.2] at admitted

/-- No job at all: nothing can happen. -/
theorem asInTurn_nil (reached : Reaches pipeline (start slots disk []) schedule) :
    AsInTurn pipeline [] disk schedule := by
  obtain rfl := eq_of_reaches_of_allSettled ⟨rfl, rfl⟩ reached
  exact ⟨rfl, rfl, AgreeOff.refl _ disk⟩

/-- A single job has the disk to itself. -/
theorem kept_single (job : Job) (disk : Disk) :
    Kept pipeline [job] fun _ job disk' events phase =>
      Job.Solo pipeline job disk events phase disk' where
  own _ _ _ _ _ _ solo := solo.act
  others place _ _ _ _ place' _ _ _ there there' ne := by
    have first := (List.getElem?_eq_some_iff.1 there).1
    have second := (List.getElem?_eq_some_iff.1 there').1
    rw [List.length_singleton] at first second
    omega

/-- A single job runs as in turn, since nothing runs beside it. -/
theorem asInTurn_single (reached : Reaches pipeline (start slots disk [job]) schedule)
    (ended : schedule.AllSettled) : AsInTurn pipeline [job] disk schedule := by
  have accounts : Accounts slots [job]
      (fun _ job disk' events phase => Job.Solo pipeline job disk events phase disk') schedule := by
    refine (accounts_start disk fun place job' there => ?_).reaches (kept_single job disk) reached
    exact Job.Trail.start
  obtain ⟨events, outcome, left, settled, solo⟩ := Job.exists_run_eq pipeline job disk
  have turn : inTurn pipeline [job] disk = ([(events, .settled outcome)], left) := by
    rw [inTurn, settled]
    rfl
  obtain ⟨outcome', listed, solo'⟩ := accounts.outcome ended (List.getElem?_cons_zero)
  obtain ⟨rfl, rfl, rfl⟩ := solo.unique solo'
  refine asInTurn_of_places (accounts.length_outcomes ended) (fun place job' there => ?_) ?_
  · obtain rfl : place = 0 := by
      have inRange := (List.getElem?_eq_some_iff.1 there).1
      rw [List.length_singleton] at inRange
      omega
    exact ⟨outcome, listed, by rw [turn]; rfl⟩
  · rw [turn]
    exact AgreeOff.refl _ _

theorem exists_other_of_distinct (two : 2 ≤ jobs.length)
    (distinct : (jobs.map fun job => pipeline.stagingDirectory job.request).Nodup) :
    ∀ job ∈ jobs, ∃ other ∈ jobs,
      pipeline.stagingDirectory job.request ≠ pipeline.stagingDirectory other.request := by
  obtain ⟨first, second, rest, rfl⟩ : ∃ first second rest, jobs = first :: second :: rest := by
    match jobs, two with
    | first :: second :: rest, _ => exact ⟨first, second, rest, rfl⟩
  intro job _
  by_cases same : pipeline.stagingDirectory job.request = pipeline.stagingDirectory first.request
  · refine ⟨second, by simp, fun same' => ?_⟩
    simp only [List.map_cons, List.nodup_cons, List.mem_cons, not_or] at distinct
    exact distinct.1.1 (same.symm.trans same')
  · exact ⟨first, by simp, same⟩

/-- Several jobs do not disturb each other. -/
theorem asInTurn_several (separate : Separate pipeline jobs disk) (two : 2 ≤ jobs.length)
    (reached : Reaches pipeline (start slots disk jobs) schedule) (ended : schedule.AllSettled) :
    AsInTurn pipeline jobs disk schedule := by
  have several := exists_other_of_distinct two separate.distinct
  have keeps := fun job member => @Separate.keeps pipeline jobs job disk separate several member
  have accounts : Accounts slots jobs
      (fun _ job disk' events phase => Undisturbed pipeline jobs disk job disk' events phase)
      schedule := by
    refine (accounts_start disk fun place job there => ?_).reaches
      (kept_undisturbed separate.distinct keeps) reached
    exact ⟨disk, .start, AgreeOff.refl _ disk⟩
  obtain ⟨changed, turns⟩ := undisturbed_inTurn keeps (fun _ => id) separate.distinct
    fun job _ => AgreeOff.refl (Foreign pipeline jobs disk job) disk
  have places : ∀ (place : Nat) job, jobs[place]? = some job → ∃ outcome,
      schedule.outcomes[place]? = some outcome ∧
        (inTurn pipeline jobs disk).1[place]? =
          some (schedule.eventsAt place, Phase.settled outcome) ∧
        AgreeOff (Foreign pipeline jobs disk job) schedule.disk (inTurn pipeline jobs disk).2 := by
    intro place job there
    obtain ⟨outcome, listed, alone⟩ := accounts.outcome ended there
    obtain ⟨events, outcome', row, alone'⟩ := turns place job there
    obtain ⟨rfl, rfl, agree⟩ := alone.unique alone'
    exact ⟨outcome, listed, row, agree⟩
  refine asInTurn_of_places (accounts.length_outcomes ended) (fun place job there => ?_) ?_
  · obtain ⟨outcome, listed, row, -⟩ := places place job there
    exact ⟨outcome, listed, row⟩
  · have first : jobs[0]? = some jobs[0] := List.getElem?_eq_getElem (by omega)
    obtain ⟨_, _, alone⟩ := accounts.outcome ended first
    have kept := alone.agreeOff_any (List.getElem_mem _) (keeps _ (List.getElem_mem _))
    refine ⟨kept.workingDirectory.symm.trans changed.workingDirectory, fun loc _ => ?_⟩
    by_cases held : Any pipeline jobs disk loc
    · obtain ⟨job, member, held⟩ := held
      obtain ⟨place, there⟩ := List.getElem?_of_mem member
      obtain ⟨_, _, _, agree⟩ := places place job there
      exact agree.get? loc (not_foreign_of_held held)
    · exact (kept.get? loc held).symm.trans (changed.get? loc held)

/-- However the operations of the jobs are interleaved, and however many run at a time, they come to what
they come to one after the other. -/
theorem asInTurn_of_reaches (pipeline : Pipeline) (jobs : List Job) (disk : Disk)
    (separate : Separate pipeline jobs disk) :
    (∀ slots schedule, Reaches pipeline (start slots disk jobs) schedule → schedule.AllSettled →
      AsInTurn pipeline jobs disk schedule) ∧
    ∀ concurrency ≤ slotLimit, ∃ final, runAll? pipeline concurrency disk jobs = some final ∧
      final.AllSettled ∧ AsInTurn pipeline jobs disk final := by
  have interleaved : ∀ slots schedule, Reaches pipeline (start slots disk jobs) schedule →
      schedule.AllSettled → AsInTurn pipeline jobs disk schedule := by
    intro slots schedule reached ended
    match jobs, separate, reached with
    | [], _, reached => exact asInTurn_nil reached
    | [job], _, reached => exact asInTurn_single reached ended
    | first :: second :: rest, separate, reached =>
        exact asInTurn_several separate (by simp) reached ended
  refine ⟨interleaved, fun concurrency askable => ?_⟩
  obtain ⟨final, ran, reached, ended⟩ := exists_runAll? pipeline disk jobs askable
  exact ⟨final, ran, ended, interleaved _ final reached ended⟩

theorem not_held_of_eq {staging : String} {top : Location} {looked : List Location}
    (placed : disk.place? staging = some top) (outside : ∀ loc ∈ looked, ¬ top <+: loc) :
    ∀ loc ∈ looked, ¬ disk.Held staging loc := by
  rintro loc member ⟨top', placed', inside⟩
  rw [placed, Option.some.injEq] at placed'
  exact outside loc member (placed' ▸ inside)

theorem separate_twoJobs : Separate discarding (twoJobs "/proj") leftDisk where
  distinct := by decide +kernel
  apart job member other listed := by
    have first : Apart leftDisk "/proj"
        (discarding.stagingDirectory (versionJob "1" "/proj").request) :=
      @Apart.of_eq leftDisk _ _ ["s", "autochecker_p1"] ["proj"] (by decide +kernel)
        (by decide +kernel) (by decide) (by decide +kernel)
    have second : Apart leftDisk "/proj"
        (discarding.stagingDirectory (versionJob "2" "/proj").request) :=
      @Apart.of_eq leftDisk _ _ ["s", "autochecker_p2"] ["proj"] (by decide +kernel)
        (by decide +kernel) (by decide) (by decide +kernel)
    simp only [twoJobs, List.mem_cons, List.not_mem_nil, or_false] at member listed
    rcases member with rfl | rfl <;> rcases listed with rfl | rfl
    · exact first
    · exact second
    · exact first
    · exact second
  plain job member := by
    have plain : PlainDefinition leftDisk "/proj" :=
      @PlainDefinition.of_eq leftDisk _ ["proj"] (by decide +kernel) (by decide +kernel)
    simp only [twoJobs, List.mem_cons, List.not_mem_nil, or_false] at member
    rcases member with rfl | rfl
    · exact plain
    · exact plain
  aside job member other listed ne := by
    simp only [twoJobs, List.mem_cons, List.not_mem_nil, or_false] at member listed
    rcases member with rfl | rfl <;> rcases listed with rfl | rfl
    · exact absurd rfl ne
    · exact @not_held_of_eq leftDisk _ ["s", "autochecker_p2"] _ (by decide +kernel)
        (by decide +kernel)
    · exact @not_held_of_eq leftDisk _ ["s", "autochecker_p1"] _ (by decide +kernel)
        (by decide +kernel)
    · exact absurd rfl ne

/-- Two versions at a time, on a disk that an earlier run has used. -/
theorem asInTurn_twoJobs : Separate discarding (twoJobs "/proj") leftDisk ∧
    ∃ final, runAll? discarding 2 leftDisk (twoJobs "/proj") = some final ∧ final.AllSettled ∧
      AsInTurn discarding (twoJobs "/proj") leftDisk final :=
  ⟨separate_twoJobs, (asInTurn_of_reaches discarding (twoJobs "/proj") leftDisk
    separate_twoJobs).2 2 (by decide)⟩

/-- An engine that takes its time over the first pull, and some over the second. -/
def unevenEngine : Engine :=
  { slowEngine with
    pull := fun reference =>
      { delay := if reference = "b:1" then 50 else if reference = "b:2" then 5 else 0
        answer := .ok [] } }

/-- Three versions, the third of the project at a path. With two at a time the third is admitted when the
second has ended; the first waits for its pull then, so that nothing happens beside the third. -/
def threeJobs (source : String) : List Job :=
  [versionJob "1" "/proj", versionJob "2" "/proj", versionJob "3" source].map
    ({ · with engine := unevenEngine })

/-- A link in place of the third staging directory leads to the first one. -/
def linkDisk : Disk where
  tree :=
    { entries :=
        [(["proj"], .directory), (["proj", "a"], .file [] false), (["s"], .directory),
          (["s", "autochecker_p3"], .link "autochecker_p1")] }

/-- A link in place of the third staging directory leads next to a directory of the name of the first
one. -/
def detourDisk : Disk where
  tree :=
    { entries :=
        [(["proj"], .directory), (["proj", "a"], .file [] false), (["s"], .directory),
          (["q"], .directory), (["q", "r"], .directory), (["q", "autochecker_p1"], .directory),
          (["s", "autochecker_p3"], .link "../q/r")] }

/-- Three versions, of one project at two paths, that come to something else two at a time than one after
the other, although their staging directories differ and the project neither holds one nor stands in
one. -/
structure Entangled (disk : Disk) (source : String) : Prop where
  distinct : ((threeJobs source).map fun job => discarding.stagingDirectory job.request).Nodup
  places : (threeJobs source).map (fun job => disk.place? (discarding.stagingDirectory job.request)) =
    [some ["s", "autochecker_p1"], some ["s", "autochecker_p2"], some ["s", "autochecker_p3"]]
  projects : ∀ job ∈ threeJobs source,
    disk.find .through job.request.sourcePath = .ok (["proj"], .directory)
  plain : disk.tree.get? ["proj", "Dockerfile"] = none
  inTurn : (runAll? discarding 1 disk (threeJobs source)).map (·.outcomes.map Except.isOk) =
    some [true, true, false]
  atOnce : (runAll? discarding 2 disk (threeJobs source)).map (·.outcomes.map Except.isOk) =
    some [true, true, true]

/-- The path of a staging directory may lead through another one, and that of a project through the
staging directory of another version or through its own. -/
theorem entangled_paths : Entangled linkDisk "/proj" ∧
    Entangled leftDisk "/s/autochecker_p1/../../proj" ∧
    Entangled detourDisk "/s/autochecker_p3/../autochecker_p1/../../proj" := by
  refine ⟨?_, ?_, ?_⟩
  · constructor <;> decide +kernel
  · constructor <;> decide +kernel
  · constructor <;> decide +kernel

end Schedule

end VersionMatrix
