import VersionMatrix.Display.Board
import VersionMatrix.Display.Lines
import VersionMatrix.Pipeline.Schedule

/-!
How the progress of the runs is shown.
-/

namespace VersionMatrix

/-- The ways to show progress: lines that are added, with or without the output of the tests, a
board that is redrawn, or nothing before the report. -/
inductive View where
  | lines (verbose : Bool)
  | board
  | quiet
deriving DecidableEq, Repr

namespace View

def select (versions : Nat) (verbose json terminal : Bool) : View :=
  if json then .quiet
  else if versions = 1 ∨ verbose then .lines true
  else if terminal then .board
  else .lines false

def streamsOutput (view : View) : Bool := view == .lines true

def line (colors : Bool) (version : String) : RunEvent → String
  | .state state => ProgressLines.state colors version state
  | .line text => ProgressLines.output version text
  | _ => ""

/-- The boards that the states in a log lead to, one after the other. -/
def frames (board : Board) : List LogRow → String
  | [] => ""
  | row :: rest =>
    match row.event.state? with
    | some state =>
      let next := board.update row.version state
      next.frame ++ frames next rest
    | none => frames board rest

def clear : String := "\x1b[2J"

def render (view : View) (colors : Bool) (log : List LogRow) : String :=
  match view with
  | .lines _ => String.join (log.map fun row => line colors row.version row.event)
  | .board => clear ++ frames { colors } log
  | .quiet => ""

end View

end VersionMatrix
