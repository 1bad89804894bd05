import VersionMatrix.Daemon.Request
import VersionMatrix.Engine.Basic

/-!
Records that the daemon sends one a line, and the progress records among them.
-/

namespace VersionMatrix

namespace RecordStream

/-- What some bytes are, taken as one record. -/
inductive Judgement (α : Type) where
  | record (value : α)
  | incomplete
  | unreadable

/-- Judges bytes as a record. A text that stops too early may go on in the next line; so may a null,
which says nothing. -/
def judge {α : Type} (decode? : Json → Option α) (bytes : List UInt8) : Judgement α :=
  match Text.Utf8.toText? bytes with
  | none => .unreadable
  | some text =>
    match Json.read text with
    | .error .incomplete => .incomplete
    | .error .malformed => .unreadable
    | .ok .null => .incomplete
    | .ok json =>
      match decode? json with
      | some value => .record value
      | none => .unreadable

/-- The records from a line on, the last of which no line feed ends. A line that is no record of its
own is completed by the next one, but only once: at the second one nothing more can come, so what is
left then, unless it is a blank line, was cut short. What cannot be read ends the stream. -/
def readLines {α : Type} (decode? : Json → Option α) (mayComplete : Bool) (line : List UInt8) :
    (following : List (List UInt8)) → List (Except ClientError α)
  | [] =>
    if line.isEmpty then []
    else
      match judge decode? line with
      | .record value => [.ok value]
      | .incomplete => [.error .cutShort]
      | .unreadable => [.error .unreadable]
  | next :: more =>
    match judge decode? line with
    | .record value => .ok value :: readLines decode? mayComplete next more
    | .unreadable => [.error .unreadable]
    | .incomplete =>
      if mayComplete then readLines decode? false (line ++ next) more
      else if line.isEmpty && next.isEmpty && more.isEmpty then []
      else [.error .cutShort]

/-- The records of the lines of a body that an error breaks off. A line that is no record of its own
waits for the next bytes, and meets the error. -/
def readUntil {α : Type} (decode? : Json → Option α) (fault : ClientError) :
    (lines : List (List UInt8)) → List (Except ClientError α)
  | [] => [.error fault]
  | line :: more =>
    match judge decode? line with
    | .record value => .ok value :: readUntil decode? fault more
    | .unreadable => [.error .unreadable]
    | .incomplete => [.error fault]

def read {α : Type} (decode? : Json → Option α) (body : DaemonBody) :
    List (Except ClientError α) :=
  match body.fault?, body.bytes.splitOn 10 with
  | some fault, lines => readUntil decode? fault lines
  | none, [] => []
  | none, line :: following => readLines decode? true line following

/-- The values of the fields of a record, where null means that there is none. -/
def members? (names : List String) (json : Json) : Option (List (Option Json)) :=
  (Json.fields? names json).map fun values =>
    values.map fun value => value.filter fun json =>
      match json with
      | .null => false
      | _ => true

/-- The text of a member that there may be. -/
def textOf? : Option Json → Option (Option String)
  | none => some none
  | some json => json.text?.map some

end RecordStream

/-- A record of the progress of a pull or a build. Only builds have a log and a detail. -/
structure ProgressRecord where
  status : Option String := none
  id : Option String := none
  log : Option String := none
  error : Option String := none
  detail : Option String := none
deriving DecidableEq, Repr

namespace ProgressRecord

open RecordStream

def ofPull? (json : Json) : Option ProgressRecord := do
  let [id, error, _, status, _, _] ←
    members? ["id", "error", "errorDetail", "status", "progress", "progressDetail"] json | none
  return { status := ← textOf? status, id := ← textOf? id, error := ← textOf? error }

def detail? : Option Json → Option (Option String)
  | none => some none
  | some json => do
    let [_, message] ← members? ["code", "message"] json | none
    textOf? message

def ofBuild? (json : Json) : Option ProgressRecord := do
  let [id, log, error, detail, status, _, _, _] ←
    members?
      ["id", "stream", "error", "errorDetail", "status", "progress", "progressDetail", "aux"]
      json | none
  return {
    status := ← textOf? status
    id := ← textOf? id
    log := ← textOf? log
    error := ← textOf? error
    detail := ← detail? detail }

/-- A record that carries an error is that error and nothing else. -/
def report : Except ClientError ProgressRecord → Except ClientError ProgressRecord
  | .ok record =>
    match record.error with
    | some text => .error (.reported text)
    | none => .ok record
  | .error error => .error error

/-- What an item of a pull means. Every error breaks the stream at its place. -/
def pullEvent (reference : String) :
    Except ClientError ProgressRecord → Except EngineError EngineEvent
  | .ok record => .ok { status := record.status, id := record.id, error := record.error }
  | .error error => .error (.pull reference error.message)

/-- What an item of a build means. An error that the daemon reports does not break the stream. -/
def buildEvent (tag : String) :
    Except ClientError ProgressRecord → Except EngineError EngineEvent
  | .ok record =>
    .ok
      { status := record.status, id := record.id, log := record.log
        error := record.error.or record.detail }
  | .error (.reported text) => .ok { error := some text }
  | .error error => .error (.build tag error.message)

end ProgressRecord

end VersionMatrix
