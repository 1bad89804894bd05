import VersionMatrix.Daemon.LogStream
import VersionMatrix.Daemon.RecordStream
import VersionMatrix.Pipeline.Event

/-!
The container engine that a daemon makes: what is sent for each operation, and what the answers
mean.
-/

namespace VersionMatrix

/-- The requests that were sent for an operation, and what came of it. -/
structure Exchange (α : Type) where
  requests : List DaemonRequest
  result : α

namespace Daemon

def ping (daemon : Daemon) : Except EngineError Unit :=
  match (daemon.send .ping).bind DaemonBody.whole with
  | .ok _ => .ok ()
  | .error error => .error (.unavailable ("Ping failed: " ++ error.message))

/-- The items of the answer to a request. A request that fails is an item that fails. -/
def progress (daemon : Daemon) (request : DaemonRequest) (decode? : Json → Option ProgressRecord) :
    List (Except ClientError ProgressRecord) :=
  match daemon.send request with
  | .ok body => (RecordStream.read decode? body).map ProgressRecord.report
  | .error error => [.error error]

def pull (daemon : Daemon) (reference : String) : EventStream :=
  (daemon.progress (.pull reference) ProgressRecord.ofPull?).map
    (ProgressRecord.pullEvent reference)

def build (daemon : Daemon) (context : BuildContext) (tag : String) : EventStream :=
  (daemon.progress (.build tag context) ProgressRecord.ofBuild?).map
    (ProgressRecord.buildEvent tag)

/-- The status code in a record of a container's end, whatever else it says. -/
def statusCode? (json : Json) : Option Int := do
  let [code, _] ← RecordStream.members? ["StatusCode", "Error"] json | none
  Json.required Json.signed? code

/-- Waits for the end of a container. The first record tells its status. -/
def wait (daemon : Daemon) (container : String) : Except EngineError Int :=
  let failure (error : ClientError) : EngineError :=
    .run container ("Error waiting for container: " ++ error.message)
  match daemon.send (.wait container) with
  | .error error => .error (failure error)
  | .ok body =>
    match RecordStream.read statusCode? body with
    | [] => .error (.missingStatus container)
    | .error error :: _ => .error (failure error)
    | .ok code :: _ => .ok code

/-- The output of a container up to its end or to where it breaks off. -/
def output (daemon : Daemon) (container : String) : List String × Except ClientError Unit :=
  match daemon.send (.logs container) with
  | .ok body => LogReader.collect {} (LogStream.read body)
  | .error error => ([], .error error)

/-- Starts a container, reads its output and waits for its end. What fails ends the exchange. -/
def attend (daemon : Daemon) (image container : String) : Exchange ContainerRun :=
  match daemon.send (.start container) with
  | .error error =>
    { requests := [.start container]
      result :=
        { outcome := .error (.run image ("Failed to start container: " ++ error.message)) } }
  | .ok _ =>
    match daemon.output container with
    | (chunks, .error error) =>
      { requests := [.start container, .logs container]
        result :=
          { chunks, outcome := .error (.run image ("Error reading output: " ++ error.message)) } }
    | (chunks, .ok ()) =>
      { requests := [.start container, .logs container, .wait container]
        result :=
          { chunks
            outcome := (daemon.wait container).map fun exitCode => { exitCode, container } } }

def containerId? (body : DaemonBody) : Except ClientError String := do
  let bytes ← body.whole
  let id? : Option String := do
    let json ← Json.read? (← Text.Utf8.toText? bytes)
    let [id, _] ← RecordStream.members? ["Id", "Warnings"] json | none
    Json.required Json.text? id
  match id? with
  | some id => return id
  | none => throw .unreadable

/-- Runs a command in a new container. After a failure the container is removed; a container that
ran to its end is left to the caller. -/
def run (daemon : Daemon) (image : String) (command : List String) : Exchange ContainerRun :=
  let request := DaemonRequest.create image command
  match (daemon.send request).bind containerId? with
  | .error error =>
    { requests := [request]
      result :=
        { outcome := .error (.run image ("Failed to create container: " ++ error.message)) } }
  | .ok container =>
    let attended := daemon.attend image container
    let last := if attended.result.outcome.isOk then [] else [.remove container]
    { attended with requests := request :: attended.requests ++ last }

def remove (daemon : Daemon) (container : String) : Except EngineError Unit :=
  match daemon.send (.remove container) with
  | .ok _ => .ok ()
  | .error error => .error (.remove container error.message)

/-- The container engine behind a daemon. No time passes in its calls. -/
def engine (daemon : Daemon) : Engine where
  pull reference := { answer := .ok (daemon.pull reference) }
  build context tag := { answer := .ok (daemon.build context tag) }
  run image command := { answer := (daemon.run image command).result }
  remove := daemon.remove

def requestsOf (daemon : Daemon) : RunEvent → List DaemonRequest
  | .pull reference => [.pull reference]
  | .build tag context => [.build tag context]
  | .run image command => (daemon.run image command).requests
  | .remove container => [.remove container]
  | _ => []

end Daemon

end VersionMatrix
