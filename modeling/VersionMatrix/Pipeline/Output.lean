import VersionMatrix.Text.Blank

/-!
Collecting the output of a container, and showing its lines as they are completed.
-/

namespace VersionMatrix

/-- The output so far, and the beginning of a line that is not complete. -/
structure OutputCollector where
  echo : Bool
  captured : String := ""
  pending : List Char := []
deriving DecidableEq, Repr

namespace OutputCollector

/-- What is shown of a line that ends with its line feed. The line feed and the carriage returns before
it are dropped, and a blank line shows nothing. -/
def shownEnded? (line : List Char) : Option String :=
  let line := Text.dropEndWhile (fun c => c == '\n' || c == '\r') line
  if line.all Text.isBlankChar then none else some (String.ofList line)

/-- What is shown of a line that the end of the output completes. -/
def shown? (rest : List Char) : Option String :=
  if rest.all Text.isBlankChar then none
  else some (String.ofList (Text.dropEndWhile (· == '\r') rest))

/-- Takes line after line off a text: what is shown of them, and the beginning of a line that is
left. -/
def takeLines (pending : List Char) : List String × List Char :=
  match _ : pending.idxOf? '\n' with
  | none => ([], pending)
  | some last =>
    let line := pending.take (last + 1)
    let (lines, rest) := takeLines (pending.drop (last + 1))
    ((shownEnded? line).toList ++ lines, rest)
termination_by pending.length
decreasing_by
  have found : pending.idxOf? '\n' = some last := ‹_›
  have within : last < pending.length := (List.findIdx?_eq_some_iff_getElem.1 found).1
  rw [List.length_drop]
  omega

def write (collector : OutputCollector) (chunk : String) : OutputCollector × List String :=
  let captured := collector.captured ++ chunk
  if collector.echo then
    let (lines, pending) := takeLines (collector.pending ++ chunk.toList)
    ({ collector with captured, pending }, lines)
  else ({ collector with captured }, [])

def writeAll (collector : OutputCollector) : List String → OutputCollector × List String
  | [] => (collector, [])
  | chunk :: rest =>
    let (next, lines) := collector.write chunk
    let (last, more) := next.writeAll rest
    (last, lines ++ more)

def finish (collector : OutputCollector) : List String :=
  if collector.echo then (shown? collector.pending).toList else []

example : (write { echo := true } "a\r\n\r\nb").2 = ["a"] := by cbv

end OutputCollector

end VersionMatrix
