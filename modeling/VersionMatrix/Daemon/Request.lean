import VersionMatrix.Daemon.Target
import VersionMatrix.Json.Record
import VersionMatrix.Json.Value
import VersionMatrix.Staging.Context
import VersionMatrix.Text.Utf8.Basic

/-!
The requests that a client sends to the daemon, the answers, and which answers count as success.
-/

namespace VersionMatrix

inductive DaemonRequest where
  | ping
  | pull (reference : String)
  | build (tag : String) (context : BuildContext)
  | create (image : String) (command : List String)
  | start (container : String)
  | logs (container : String)
  | wait (container : String)
  | remove (container : String)
deriving DecidableEq, Repr

namespace DaemonRequest

def method : DaemonRequest → String
  | .ping => "GET"
  | .logs _ => "GET"
  | .remove _ => "DELETE"
  | _ => "POST"

def path : DaemonRequest → String
  | .ping => "/_ping"
  | .pull _ => "/images/create"
  | .build .. => "/build"
  | .create .. => "/containers/create"
  | .start container => Target.path ("/containers/" ++ container ++ "/start")
  | .logs container => Target.path ("/containers/" ++ container ++ "/logs")
  | .wait container => Target.path ("/containers/" ++ container ++ "/wait")
  | .remove container => Target.path ("/containers/" ++ container)

def line (request : DaemonRequest) : String := request.method ++ " " ++ request.path

/-- The parameters of a request. A container also gets a name of its own, which is not among
them. -/
def query : DaemonRequest → List (String × String)
  | .pull reference => [("fromImage", reference)]
  | .build tag _ => [("dockerfile", "Dockerfile"), ("rm", "true"), ("t", tag), ("version", "1")]
  | .logs _ => [("follow", "true"), ("stdout", "true"), ("stderr", "true")]
  | .wait _ => [("condition", "not-running")]
  | .remove _ => [("force", "true"), ("v", "true")]
  | _ => []

/-- The configuration that a new container is sent with: its output is attached, its input is
not. -/
def configuration? : DaemonRequest → Option Json
  | .create image command =>
    some <| .record
      [("Image", .text image), ("Cmd", .array (command.map .text)), ("Tty", .bool false),
        ("AttachStdin", .bool false), ("AttachStdout", .bool true), ("AttachStderr", .bool true)]
  | _ => none

end DaemonRequest

/-- Why a request, or a part of its answer, is of no use. A daemon may also report an error of its
own inside an answer that counts as success. -/
inductive ClientError where
  | unreachable
  | lost (text : String)
  | refused (status : Nat) (text : String)
  | cutShort
  | unreadable
  | reported (text : String)
deriving DecidableEq, Repr

/-- The text of a client error. For a connection that was lost it is that of the transport. -/
def ClientError.message : ClientError → String
  | .unreachable => "Error in the hyper legacy client: client error (Connect)"
  | .lost text => text
  | .refused status text =>
    "Docker responded with status code " ++ Nat.repr status ++ ": " ++ text
  | .cutShort => "bytes remaining on stream"
  | .unreadable => "Failed to deserialize JSON"
  | .reported text => text

/-- How much of an answer arrives. The connection may be lost before the status or after the bytes
of the body, with an error that the transport words. -/
inductive Arrival where
  | whole
  | cut (text : String)
  | lost (text : String)
deriving DecidableEq, Repr

/-- What the daemon answers to a request. -/
structure DaemonResponse where
  status : Nat
  body : List UInt8 := []
  arrival : Arrival := .whole
deriving DecidableEq, Repr

/-- The body of an answer that counts as success: its bytes, and the error that breaks it off, if
one does. -/
structure DaemonBody where
  bytes : List UInt8 := []
  fault? : Option ClientError := none
deriving DecidableEq, Repr

def DaemonBody.whole (body : DaemonBody) : Except ClientError (List UInt8) :=
  match body.fault? with
  | some error => .error error
  | none => .ok body.bytes

namespace DaemonResponse

/-- Whether an answer counts as success: any status from 200 to 299, or that nothing has changed. -/
def isSuccess (response : DaemonResponse) : Bool :=
  (200 ≤ response.status && response.status < 300) || response.status == 304

/-- The body of an answer. Two of the successes come without any. -/
def content (response : DaemonResponse) : DaemonBody :=
  if response.status = 204 ∨ response.status = 304 then {}
  else
    match response.arrival with
    | .cut text => { bytes := response.body, fault? := some (.lost text) }
    | _ => { bytes := response.body }

/-- The explanation in the body of a refusal: its message, or else the whole of it. -/
def explanation (body : List UInt8) : String :=
  let text := Text.Utf8.toTextLossy body
  let message? : Option String := do
    let [message] ← (← Json.read? text).fields? ["message"] | none
    Json.required Json.text? message
  message?.getD text

/-- The body of an answer that counts as success. A refusal is explained by the whole of its
body. -/
def accept (response : DaemonResponse) : Except ClientError DaemonBody :=
  match response.arrival with
  | .lost text => .error (.lost text)
  | _ =>
    if response.isSuccess then .ok response.content
    else do
      let body ← response.content.whole
      throw (.refused response.status (explanation body))

end DaemonResponse

/-- A daemon, by its answers, or `none` if nobody listens. -/
abbrev Daemon := Option (DaemonRequest → DaemonResponse)

namespace Daemon

/-- Sends a request, and gives the body of the answer if it counts as success. -/
def send (daemon : Daemon) (request : DaemonRequest) : Except ClientError DaemonBody :=
  match daemon with
  | none => .error .unreachable
  | some answer => (answer request).accept

/-- Those of the requests that reach the daemon. -/
def received (daemon : Daemon) (requests : List DaemonRequest) : List DaemonRequest :=
  if daemon.isSome then requests else []

end Daemon

end VersionMatrix
