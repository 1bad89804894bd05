import VersionMatrix.CommandLine.Parser
import VersionMatrix.CommandLine.Session

/-!
The program: it reads its command line, runs the command on what it finds around it, and prints what the
run leaves behind. What it finds, the daemon and the version control program included, comes from the
system that it runs on.
-/

namespace VersionMatrix.Program

/-- What the program is run on: how to look at it for a command, and how to put a disk in place of its
own. -/
structure System where
  look : Command → IO Host
  place : Disk → IO Unit

def causes (chain : List String) : String :=
  match chain with
  | [] => ""
  | [cause] => "\n\nCaused by:\n    " ++ cause
  | _ =>
    "\n\nCaused by:" ++ String.join (chain.zipIdx.map fun (cause, number) =>
      "\n    " ++ Nat.repr number ++ ": " ++ cause)

def complaint? : Ending → Option String
  | .finished _ => none
  | .refused refusal => some ("Error: " ++ (refusal.chain.headD "") ++ causes refusal.chain.tail)
  | .stopped => some "Error: concurrency is out of range"

/-- The status that the program ends with. To be stopped is worse than to be refused. -/
def status : Ending → UInt32
  | .finished success => if success then 0 else 1
  | .refused _ => 1
  | .stopped => 101

def usageText : UsageFault → String
  | .helpAsked => "usage: version-matrix [OPTIONS] [VERSIONS]...\n       version-matrix ls"
  | .versionAsked => "version-matrix"
  | .unknownArgument => "error: unexpected argument"
  | .unknownSubcommand => "error: unrecognized subcommand"
  | .missingValue => "error: a value is required"
  | .unneededValue => "error: unexpected value"
  | .badNumber => "error: invalid number"
  | .repeated => "error: an argument was given twice"

/-- Prints the text of a usage fault. Help and version are no errors. -/
def explain (fault : UsageFault) : IO UInt32 := do
  if fault = .helpAsked ∨ fault = .versionAsked then
    IO.println (usageText fault)
    return 0
  IO.eprintln (usageText fault)
  return 2

def run (system : System) (words : List String) : IO UInt32 := do
  match Invocation.parse words with
  | .error fault => explain fault
  | .ok invocation =>
    let session := Session.run (← system.look invocation.command) invocation.command
    system.place session.disk
    IO.print session.output
    if let some text := complaint? session.ending then IO.eprintln text
    return status session.ending

end VersionMatrix.Program
