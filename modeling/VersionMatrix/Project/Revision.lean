import VersionMatrix.FileTree.Operations
import VersionMatrix.Text.Blank

/-!
The revision that a project is checked out at, as the version control program tells it.
-/

namespace VersionMatrix

/-- How a program ended, and the bytes that it wrote to its standard output. -/
structure ProgramEnd where
  succeeded : Bool
  output : List UInt8
deriving DecidableEq, Repr

/-- The version control program: how it ends with some arguments on a disk, which it leaves as it is. It
may be missing, and then it cannot be run. -/
abbrev Git := Disk → List String → Option ProgramEnd

namespace Git

def fallback : String := "latest"

def question (root : String) : List String := ["-C", root, "rev-parse", "HEAD"]

/-- The label of what is checked out at `root`: the answer without the white space around it, or the
fallback if there is nothing in it, if the program fails, or if it cannot be run. -/
def revision (git : Git) (disk : Disk) (root : String) : String :=
  match git disk (question root) with
  | some ⟨true, output⟩ =>
    let label := Text.trim (Text.Utf8.toTextLossy output)
    if label = "" then fallback else label
  | some ⟨false, _⟩ => fallback
  | none => fallback

end Git

end VersionMatrix
