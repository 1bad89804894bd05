import VersionMatrix.Pipeline.Event
import VersionMatrix.Pipeline.Output
import VersionMatrix.Pipeline.Streams

/-!
The three stages that talk to the engine. Each has a call, after which time may pass, and a second
half that takes the answer.
-/

namespace VersionMatrix

/-- What half a stage has done: the events in their order, and its result. -/
structure StageStep (α : Type) where
  events : List RunEvent
  result : Except StageError α

namespace StageStep

/-- The reading of a stream as half a stage. Lines are events only if `verbose` asks for them. -/
def ofReading (verbose : Bool) (reading : StreamReading) : StageStep Unit where
  events := if verbose then reading.1.map .line else []
  result := reading.2

end StageStep

def baseReference (baseImage version : String) : String := baseImage ++ ":" ++ version

def takeStream (verbose : Bool) (read : EventStream → StreamReading) :
    Except EngineError EventStream → StageStep Unit
  | .error error => { events := [], result := .error (.engine error) }
  | .ok stream => .ofReading verbose (read stream)

def contextOf (disk : Disk) (staging : String) : Except StageError BuildContext :=
  match disk.stat staging with
  | .ok _ => BuildContext.pack disk staging
  | .error .notFound => .error (.notFound staging)
  | .error fault => .error (.io staging (.file fault))

structure TestVerdict where
  success : Bool
  exitCode : Int
  output : String
deriving DecidableEq, Repr

/-- Takes the answer to a run. A container that ran to its end is removed; that the removal fails
changes nothing. -/
def takeRun (verbose : Bool) (run : ContainerRun) : StageStep TestVerdict :=
  let (collector, lines) := OutputCollector.writeAll { echo := verbose } run.chunks
  match run.outcome with
  | .error error => { events := lines.map .line, result := .error (.engine error) }
  | .ok exit =>
    { events := lines.map .line ++ .remove exit.container :: collector.finish.map .line
      result := .ok
        { success := exit.exitCode == 0, exitCode := exit.exitCode, output := collector.captured } }

end VersionMatrix
