import VersionMatrix.Pipeline.Run

/-!
Many runs at once, at most so many at a time. A run that waits is admitted as soon as there is
room; runs that have been admitted take their steps in the order in which they are due.
-/

namespace VersionMatrix

/-- A run that has been admitted, the place of its request, and when its next step is due. -/
structure ActiveRun where
  place : Nat
  job : Job
  phase : Phase
  due : Nat

/-- An event with the moment it happened and the run that it belongs to. -/
structure LogRow where
  time : Nat
  place : Nat
  version : String
  event : RunEvent
deriving DecidableEq, Repr

/-- The state of all runs. Every request is in exactly one of `waiting`, `active` and `settled`. A
run holds one permit while it is active; `permits` are those that are free. -/
structure Schedule where
  time : Nat := 0
  permits : Nat
  disk : Disk
  waiting : List (Nat × Job)
  active : List ActiveRun := []
  settled : List (Nat × RunOutcome) := []
  log : List LogRow := []

namespace Schedule

/-- The largest number of runs at a time that can be asked for. -/
def slotLimit : Nat := Nat.pow 2 61 - 1

/-- The number of runs at a time for a concurrency. It is never zero, and a number beyond the limit
is refused. -/
def slots? (concurrency : Nat) : Option Nat :=
  if concurrency ≤ slotLimit then some (max concurrency 1) else none

def start (slots : Nat) (disk : Disk) (jobs : List Job) : Schedule where
  permits := slots
  disk := disk
  waiting := jobs.zipIdx.map fun (job, place) => (place, job)

/-- The run that is due first; of several the one that was admitted first. -/
def next? : List ActiveRun → Option ActiveRun
  | [] => none
  | run :: rest =>
    match next? rest with
    | none => some run
    | some other => if other.due < run.due then some other else some run

/-- Admits a run, which takes a permit. -/
def activate (schedule : Schedule) (place : Nat) (job : Job) (rest : List (Nat × Job)) : Schedule :=
  let run := { place, job, phase := .admitted, due := schedule.time }
  { schedule with
    permits := schedule.permits - 1, waiting := rest, active := schedule.active ++ [run] }

/-- Takes in a step of a run, no earlier than the run is due. A run that settles gives its permit
back. -/
def takeStep (schedule : Schedule) (run : ActiveRun) (step : RunStep) : Schedule :=
  let now := max schedule.time run.due
  let rows := step.events.map fun event =>
    { time := now, place := run.place, version := run.job.request.version, event }
  let moved : Schedule := { schedule with time := now, disk := step.disk, log := schedule.log ++ rows }
  match step.phase.outcome? with
  | some outcome =>
    { moved with
      permits := schedule.permits + 1
      active := schedule.active.filter (·.place != run.place)
      settled := schedule.settled ++ [(run.place, outcome)] }
  | none =>
    { moved with
      active := schedule.active.map fun other =>
        if other.place = run.place then { run with phase := step.phase, due := now + step.delay }
        else other }

/-- Lets a run take its next step, with nothing in between its operations on the disk. -/
def stepRun (pipeline : Pipeline) (schedule : Schedule) (run : ActiveRun) : Schedule :=
  schedule.takeStep run (run.job.advance pipeline schedule.disk run.phase)

def stepNext (pipeline : Pipeline) (schedule : Schedule) : Schedule :=
  match next? schedule.active with
  | some run => schedule.stepRun pipeline run
  | none => schedule

/-- The next step of the schedule: to admit a run if a permit is free, and otherwise the step that
is due first. -/
def step (pipeline : Pipeline) (schedule : Schedule) : Schedule :=
  match schedule.waiting with
  | (place, job) :: rest =>
    if 0 < schedule.permits then schedule.activate place job rest else schedule.stepNext pipeline
  | [] => schedule.stepNext pipeline

/-- The number of steps that admitted runs can still take at most. -/
def stepsLeft : List ActiveRun → Nat
  | [] => 0
  | run :: rest => run.phase.rank + stepsLeft rest

def remaining (schedule : Schedule) : Nat :=
  schedule.waiting.length * (Phase.admitted.rank + 1) + stepsLeft schedule.active

def stepFor (pipeline : Pipeline) : (steps : Nat) → Schedule → Schedule
  | 0, schedule => schedule
  | steps + 1, schedule => stepFor pipeline steps (schedule.step pipeline)

def finish (pipeline : Pipeline) (schedule : Schedule) : Schedule :=
  schedule.stepFor pipeline schedule.remaining

def outcomes (schedule : Schedule) : List RunOutcome :=
  (sortInOrder (fun a b => a.1 ≤ b.1) schedule.settled).map (·.2)

/-- The log in the order of time, and then of the requests. Every run keeps its own order. -/
def sortedLog (schedule : Schedule) : List LogRow :=
  schedule.log.mergeSort fun a b => a.time < b.time || (a.time == b.time && a.place ≤ b.place)

/-- Runs all jobs, or `none` if that many at a time cannot be asked for. -/
def runAll? (pipeline : Pipeline) (concurrency : Nat) (disk : Disk) (jobs : List Job) :
    Option Schedule :=
  (slots? concurrency).map fun slots => finish pipeline (start slots disk jobs)

end Schedule

end VersionMatrix
