import VersionMatrix.FileTree.Basic
import VersionMatrix.FileTree.Path

/-!
Where a path leads. Resolution goes step by step from the root or the working directory, follows
symbolic links up to a limit, and takes `..` from where it has arrived.
-/

namespace VersionMatrix

inductive FileFault where
  | notFound
  | noDevice
  | alreadyExists
  | notDirectory
  | isDirectory
  | invalidArgument
  | nameTooLong
  | notEmpty
  | tooManyLinks
  | nulByte
  | notUtf8
deriving DecidableEq, Repr

def FileFault.message : FileFault → String
  | .notFound => "No such file or directory (os error 2)"
  | .noDevice => "No such device or address (os error 6)"
  | .alreadyExists => "File exists (os error 17)"
  | .notDirectory => "Not a directory (os error 20)"
  | .isDirectory => "Is a directory (os error 21)"
  | .invalidArgument => "Invalid argument (os error 22)"
  | .nameTooLong => "File name too long (os error 36)"
  | .notEmpty => "Directory not empty (os error 39)"
  | .tooManyLinks => "Too many levels of symbolic links (os error 40)"
  | .nulByte => "file name contained an unexpected NUL byte"
  | .notUtf8 => "stream did not contain valid UTF-8"

namespace FileTree

def nameLimit : Nat := 255

def pathLimit : Nat := 4096

/-- The number of links that one resolution may follow. -/
def linkLimit : Nat := 40

/-- How the last name of a path is taken. A link there is followed or is meant itself. A file that is
to be created may have no slash after its name. -/
inductive Approach where
  | itself
  | through
  | creating
deriving DecidableEq, Repr

/-- Where a path leads: to an entry, or to a name that is free in a directory that exists. -/
inductive Destination where
  | entry (loc : Location) (found : Entry)
  | vacant (directory : Location) (name : String) (asDirectory : Bool)
deriving Repr

/-- Takes steps from a directory. What to do at a link is left to `onLink`, which is given the
directory of the link and the steps to take from there. -/
def takeSteps (tree : FileTree) (approach : Approach)
    (onLink : Location → List String → Except FileFault Destination) (here : Location) :
    List String → Except FileFault Destination
  | [] => .ok (.entry here .directory)
  | step :: rest =>
    if step = "" ∨ step = "." then takeSteps tree approach onLink here rest
    else if step = ".." then takeSteps tree approach onLink here.dropLast rest
    else if approach == .creating && !rest.isEmpty && rest.all (· == "") then .error .isDirectory
    else if step.utf8ByteSize > nameLimit then .error .nameTooLong
    else
      let there := here ++ [step]
      match tree.get? there with
      | none =>
        if rest.all (· == "") then .ok (.vacant here step (!rest.isEmpty)) else .error .notFound
      | some .directory => takeSteps tree approach onLink there rest
      | some (.link target) =>
        if rest.isEmpty && approach == .itself then .ok (.entry there (.link target))
        else onLink (if Path.isAbsolute target then [] else here) (Path.steps target ++ rest)
      | some found => if rest.isEmpty then .ok (.entry there found) else .error .notDirectory

/-- Takes steps from a directory and follows at most `links` links. -/
def walk (tree : FileTree) (approach : Approach) :
    (links : Nat) → Location → List String → Except FileFault Destination
  | 0 => tree.takeSteps approach fun _ _ => .error .tooManyLinks
  | links + 1 => tree.takeSteps approach (tree.walk approach links)

end FileTree

/-- A file tree seen from a working directory. -/
structure Disk where
  tree : FileTree
  workingDirectory : Location := []

namespace Disk

/-- Where a path starts. -/
def origin (disk : Disk) (path : String) : Location :=
  if Path.isAbsolute path then [] else disk.workingDirectory

/-- Where a path leads. From a working directory that has been removed it leads nowhere. -/
def resolve (disk : Disk) (approach : FileTree.Approach) (path : String) :
    Except FileFault FileTree.Destination :=
  if '\x00' ∈ path.toList then .error .nulByte
  else if path = "" then .error .notFound
  else if path.utf8ByteSize ≥ FileTree.pathLimit then .error .nameTooLong
  else if disk.tree.get? (disk.origin path) ≠ some .directory then .error .notFound
  else disk.tree.walk approach FileTree.linkLimit (disk.origin path) (Path.steps path)

def find (disk : Disk) (approach : FileTree.Approach) (path : String) :
    Except FileFault (Location × Entry) := do
  match ← disk.resolve approach path with
  | .entry loc found => return (loc, found)
  | .vacant .. => throw .notFound

def stat (disk : Disk) (path : String) : Except FileFault Entry :=
  (disk.find .through path).map (·.2)

def pathExists (disk : Disk) (path : String) : Bool := (disk.stat path).toBool

def isDirectory (disk : Disk) (path : String) : Bool :=
  match disk.stat path with
  | .ok .directory => true
  | _ => false

def isFile (disk : Disk) (path : String) : Bool :=
  match disk.stat path with
  | .ok (.file ..) => true
  | _ => false

/-- The location of what a path leads to, free of links. -/
def canonical? (disk : Disk) (path : String) : Option Location :=
  (disk.find .through path).toOption.map (·.1)

end Disk

end VersionMatrix
