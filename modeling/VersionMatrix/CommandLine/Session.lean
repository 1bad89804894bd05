import VersionMatrix.CommandLine.Preflight
import VersionMatrix.CommandLine.View
import VersionMatrix.Display.Summary
import VersionMatrix.Version.Sort

/-!
An invocation from its arguments to its end.
-/

namespace VersionMatrix

/-- How an invocation ends: with a verdict, refused before anything was run, or stopped because that
many runs at a time cannot be asked for. -/
inductive Ending where
  | finished (success : Bool)
  | refused (refusal : Refusal)
  | stopped
deriving DecidableEq, Repr

/-- What an invocation leaves behind: how it ended, what it printed, the disk, what was sent to the
daemon, and the schedule of its runs if there was one. -/
structure Session where
  ending : Ending
  output : String := ""
  disk : Disk
  sent : List DaemonRequest := []
  schedule : Option Schedule := none

namespace Session

def list (host : Host) : Session where
  ending := .finished true
  output := Summary.versionList (Version.sortTexts defaultVersions)
  disk := host.disk

def reportText (report : Report) (view : View) (json colors : Bool) : String :=
  if json then report.toJson.renderIndented ++ "\n"
  else Summary.render report colors view.streamsOutput

def viewOf (host : Host) (arguments : RunArguments) (plan : Plan) : View :=
  .select plan.requests.length arguments.verbose arguments.json host.terminal

/-- What an invocation leaves behind when all runs of its plan have settled. -/
def conclude (host : Host) (arguments : RunArguments) (plan : Plan) (schedule : Schedule) :
    Session :=
  let view := viewOf host arguments plan
  let report := Report.ofOutcomes schedule.outcomes host.startedAt host.finishedAt
  { ending := .finished report.allPassed
    output :=
      view.render host.terminal schedule.log ++
        reportText report view arguments.json host.terminal
    disk := schedule.disk
    sent := host.daemon.received
      (.ping :: schedule.log.flatMap fun row => host.daemon.requestsOf row.event)
    schedule := some schedule }

def execute (host : Host) (arguments : RunArguments) (plan : Plan) : Session :=
  let jobs := plan.jobs host.daemon.engine
  match Schedule.runAll? plan.pipeline plan.config.concurrency host.disk jobs with
  | some schedule => conclude host arguments plan schedule
  | none =>
    { ending := .stopped
      output := (viewOf host arguments plan).render host.terminal []
      disk := host.disk
      sent := host.daemon.received [.ping] }

def test (host : Host) (arguments : RunArguments) : Session :=
  match Plan.make host arguments with
  | .error refusal => { ending := .refused refusal, disk := host.disk }
  | .ok plan =>
    match Plan.checkDaemon host with
    | .error refusal =>
      { ending := .refused refusal, disk := host.disk, sent := host.daemon.received [.ping] }
    | .ok () => execute host arguments plan

def run (host : Host) : Command → Session
  | .list => list host
  | .test arguments => test host arguments

end Session

end VersionMatrix
