import VersionMatrix.Display.Tone
import VersionMatrix.Text.Utf8.Basic

/-!
A block of one line per version, redrawn in place at every state change, and what a writer takes of it.
-/

namespace VersionMatrix

structure BoardRow where
  version : String
  message : String
  tone : Tone
deriving DecidableEq, Repr

def BoardRow.text (row : BoardRow) : String := row.version ++ "\t- " ++ row.message

/-- A board that draws from a terminal row on. Rows stand in the order in which their versions
first appeared. -/
structure Board where
  topRow : Nat := 1
  colors : Bool := false
  rows : List BoardRow := []
deriving DecidableEq, Repr

namespace Board

/-- Replaces the row of the same version, or adds the row at the end. -/
def setRow (row : BoardRow) : List BoardRow → List BoardRow
  | [] => [row]
  | first :: rest =>
    if first.version = row.version then row :: rest else first :: setRow row rest

def update (board : Board) (version : String) (state : RunState) : Board :=
  let row := { version, message := state.display, tone := Tone.ofState state }
  { board with rows := setRow row board.rows }

def snapshot (board : Board) : List String := board.rows.map BoardRow.text

/-- The text that redraws the board: move to its top row, clear, and all rows. -/
def frame (board : Board) : String :=
  "\x1b[" ++ Nat.repr (max board.topRow 1) ++ ";1H\x1b[J" ++
    String.join (board.rows.map fun row => row.tone.paint row.text board.colors ++ "\n")

end Board

/-- A call on a board: a version has changed its state, or has a line of output to show. -/
inductive BoardCall where
  | state (version : String) (state : RunState)
  | line (version text : String)
deriving DecidableEq, Repr

/-- What becomes of some bytes that are written: all are taken, or the writer fails after some of them. -/
inductive WriteOutcome where
  | whole
  | broken (count : Nat)
deriving DecidableEq, Repr

def WriteOutcome.taken (bytes : List UInt8) : WriteOutcome → List UInt8
  | .whole => bytes
  | .broken count => bytes.take count

/-- A board, and all that its writer has taken. -/
structure Screen where
  board : Board
  written : List UInt8 := []
deriving DecidableEq, Repr

namespace Screen

/-- A call, with what becomes of what it writes. A board has no place for lines of output. The rows have
changed by the time they are written, and a writer that fails is passed over. -/
def call (screen : Screen) (call : BoardCall) (outcome : WriteOutcome) : Screen :=
  match call with
  | .state version state =>
    let board := screen.board.update version state
    { board, written := screen.written ++ outcome.taken (Text.utf8 board.frame) }
  | .line _ _ => screen

/-- Calls one after the other, by whichever of the runs. -/
def callAll (screen : Screen) (history : List (BoardCall × WriteOutcome)) : Screen :=
  history.foldl (fun screen (call, outcome) => screen.call call outcome) screen

end Screen

end VersionMatrix
