import VersionMatrix.Daemon.Request
import VersionMatrix.Text.Utf8.Stream

/-!
The output of a container as the daemon sends it: frames of two streams one after the other, or
plain lines, and the text that they add up to.
-/

namespace VersionMatrix

/-- Where the bytes of a frame come from. Plain bytes come without a frame. -/
inductive LogChannel where
  | input
  | output
  | error
  | plain
deriving DecidableEq, Repr

structure LogFrame where
  channel : LogChannel
  bytes : List UInt8
deriving DecidableEq, Repr

namespace LogStream

/-- The number of bytes before the payload of a frame: the channel, three that mean nothing, and the
length of the payload in four. -/
def headerLength : Nat := 8

def channel (byte : UInt8) : LogChannel :=
  if byte = 0 then .input else if byte = 1 then .output else .error

/-- The number that bytes denote, the highest first. -/
def bigEndian (bytes : List UInt8) : Nat :=
  bytes.foldl (fun value byte => value * 256 + byte.toNat) 0

/-- Where the reading of a body stands. Bytes are kept with the last one in front. -/
inductive State where
  | between
  | line (bytes : List UInt8)
  | header (bytes : List UInt8)
  | payload (channel : LogChannel) (missing : Nat) (bytes : List UInt8)
deriving DecidableEq, Repr

/-- Takes a byte of a plain line, which ends with its line feed. -/
def takePlain (line : List UInt8) (byte : UInt8) : State × List LogFrame :=
  if byte = 10 then (.between, [{ channel := .plain, bytes := (byte :: line).reverse }])
  else (.line (byte :: line), [])

/-- Takes one byte, and gives the frame that it completes. A first byte that names no channel starts
a plain line. -/
def take (state : State) (byte : UInt8) : State × List LogFrame :=
  match state with
  | .between => if byte ≤ 2 then (.header [byte], []) else takePlain [] byte
  | .line bytes => takePlain bytes byte
  | .header bytes =>
    if bytes.length + 1 < headerLength then (.header (byte :: bytes), [])
    else
      let header := (byte :: bytes).reverse
      let source := channel (header.headD 0)
      match bigEndian (header.drop 4) with
      | 0 => (.between, [{ channel := source, bytes := [] }])
      | missing + 1 => (.payload source (missing + 1) [], [])
  | .payload source missing bytes =>
    if missing ≤ 1 then (.between, [{ channel := source, bytes := (byte :: bytes).reverse }])
    else (.payload source (missing - 1) (byte :: bytes), [])

/-- Whether the body may end here. A header alone is taken for an end. -/
def mayEnd : State → Bool
  | .between => true
  | .payload _ _ [] => true
  | _ => false

/-- The frames of a body, and an error if it breaks off or ends in the middle of one. -/
def readFrom (fault? : Option ClientError) (state : State) :
    List UInt8 → List (Except ClientError LogFrame)
  | [] =>
    match fault? with
    | some error => [.error error]
    | none => if mayEnd state then [] else [.error .cutShort]
  | byte :: rest =>
    let (next, frames) := take state byte
    frames.map .ok ++ readFrom fault? next rest

def read (body : DaemonBody) : List (Except ClientError LogFrame) :=
  readFrom body.fault? .between body.bytes

end LogStream

/-- The readers of the two streams that a container writes. Plain bytes belong to the first. -/
structure LogReader where
  output : Text.Utf8.Stream := {}
  error : Text.Utf8.Stream := {}
deriving DecidableEq, Repr

namespace LogReader

def chunk (text : List Char) : List String :=
  if text.isEmpty then [] else [String.ofList text]

/-- Takes a frame, and gives the chunk of text that is complete with it. -/
def push (reader : LogReader) (frame : LogFrame) : LogReader × List String :=
  match frame.channel with
  | .input => (reader, [])
  | .error =>
    let (next, text) := reader.error.push frame.bytes
    ({ reader with error := next }, chunk text)
  | .output =>
    let (next, text) := reader.output.push frame.bytes
    ({ reader with output := next }, chunk text)
  | .plain =>
    let (next, text) := reader.output.push frame.bytes
    ({ reader with output := next }, chunk text)

/-- The chunks of what is still held back at the end. -/
def finish (reader : LogReader) : List String :=
  chunk reader.output.finish ++ chunk reader.error.finish

/-- The chunks of the frames up to an error. What is held back then is lost. -/
def collect (reader : LogReader) :
    List (Except ClientError LogFrame) → List String × Except ClientError Unit
  | [] => (reader.finish, .ok ())
  | .error error :: _ => ([], .error error)
  | .ok frame :: rest =>
    let (next, chunks) := reader.push frame
    let (more, result) := next.collect rest
    (chunks ++ more, result)

end LogReader

end VersionMatrix
