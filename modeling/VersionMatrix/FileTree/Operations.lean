import VersionMatrix.FileTree.Resolve
import VersionMatrix.Text.Utf8.Basic

/-!
Operations on files by path: reading, listing, creating, writing, copying and removing.
-/

namespace VersionMatrix.Disk

def modifyTree (disk : Disk) (change : FileTree → FileTree) : Disk :=
  { disk with tree := change disk.tree }

def names (disk : Disk) (path : String) : Except FileFault (List String) := do
  match ← disk.find .through path with
  | (loc, .directory) => return disk.tree.names loc
  | _ => throw .notDirectory

def readFile (disk : Disk) (path : String) : Except FileFault (List UInt8 × Bool) := do
  match ← disk.stat path with
  | .file bytes executable => return (bytes, executable)
  | .directory => throw .isDirectory
  | _ => throw .noDevice

def readText (disk : Disk) (path : String) : Except FileFault String := do
  let (bytes, _) ← disk.readFile path
  match Text.Utf8.toText? bytes with
  | some text => return text
  | none => throw .notUtf8

def readLink (disk : Disk) (path : String) : Except FileFault String := do
  match ← disk.find .itself path with
  | (_, .link target) => return target
  | _ => throw .invalidArgument

def dropSlashes (path : String) : String :=
  match path.toList.reverse.dropWhile (· == '/') with
  | [] => path
  | kept => String.ofList kept.reverse

/-- Creates a directory where nothing stands, not even a link that leads nowhere. The slashes at the
end count for the length of the path. -/
def createDirectory (disk : Disk) (path : String) : Except FileFault Disk := do
  if path.utf8ByteSize ≥ FileTree.pathLimit && !path.toList.contains '\x00' then
    throw .nameTooLong
  match ← disk.resolve .itself (dropSlashes path) with
  | .vacant directory name _ => return disk.modifyTree (·.put (directory ++ [name]) .directory)
  | .entry .. => throw .alreadyExists

def createLink (disk : Disk) (target path : String) : Except FileFault Disk := do
  match ← disk.resolve .itself path with
  | .vacant directory name false =>
    return disk.modifyTree (·.put (directory ++ [name]) (.link target))
  | .vacant _ _ true => throw .notFound
  | .entry .. => throw .alreadyExists

/-- Writes a regular file through all links. A file that is there keeps its place and, unless
`executable` is given, its execute bit. -/
def writeFile (disk : Disk) (path : String) (bytes : List UInt8)
    (executable : Option Bool := none) : Except FileFault Disk := do
  match ← disk.resolve .creating path with
  | .vacant directory name false =>
    return disk.modifyTree (·.put (directory ++ [name]) (.file bytes (executable.getD false)))
  | .vacant _ _ true => throw .isDirectory
  | .entry loc (.file _ before) =>
    return disk.modifyTree (·.put loc (.file bytes (executable.getD before)))
  | .entry _ .directory => throw .isDirectory
  | .entry .. => throw .noDevice

def copyFile (disk : Disk) (source target : String) : Except FileFault Disk := do
  let (bytes, executable) ← disk.readFile source
  disk.writeFile target bytes (some executable)

/-- Removes an empty directory. A path that ends in `.` or `..` names no entry of a directory, and a
link before the slashes at the end is no directory. -/
def removeDirectory (disk : Disk) (path : String) : Except FileFault Disk := do
  match ((Path.steps path).filter (· != "")).getLast? with
  | some "." =>
    let _ ← disk.find .through path
    throw .invalidArgument
  | some ".." =>
    let _ ← disk.find .through path
    throw .notEmpty
  | _ =>
    match ← disk.find .itself (dropSlashes path) with
    | (loc, .directory) =>
      if (disk.tree.names loc).isEmpty then return disk.modifyTree (·.erase loc)
      else throw .notEmpty
    | _ => throw .notDirectory

/-- Removes a directory with everything in it, or a link but not what it leads to. A directory is
emptied first and then removed by its path. Where the path has led through the directory it leads
nowhere by then, and the empty directory stays. -/
def removeTree (disk : Disk) (path : String) : Except FileFault Unit × Disk :=
  match disk.find .itself path with
  | .error fault => (.error fault, disk)
  | .ok (loc, .link _) => (.ok (), disk.modifyTree (·.erase loc))
  | .ok (loc, .directory) =>
    let emptied := disk.modifyTree (·.eraseBelow loc)
    match emptied.removeDirectory path with
    | .ok next => (.ok (), next)
    | .error .notFound => (.ok (), emptied)
    | .error fault => (.error fault, emptied)
  | .ok _ => (.error .notDirectory, disk)

end VersionMatrix.Disk
