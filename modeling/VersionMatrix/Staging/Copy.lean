import VersionMatrix.Staging.Action
import VersionMatrix.Text.Occurrence

/-!
The filtered copy of a project into its staging directory.
-/

namespace VersionMatrix

/-- Decides which entries are copied: those whose path in the project holds no excluded fragment. -/
structure CopyFilter where
  excluded : List String := [".git", "node_modules"]
deriving DecidableEq, Repr

namespace CopyFilter

def exclude (filter : CopyFilter) (fragment : String) : CopyFilter :=
  { excluded := filter.excluded ++ [fragment] }

def includes (filter : CopyFilter) (relative : String) : Bool :=
  !filter.excluded.any fun fragment => Text.contains relative fragment

end CopyFilter

namespace Disk

def listing (disk : Disk) (path : String) : Except FileFault (List (String × Entry)) := do
  match ← disk.find .through path with
  | (loc, .directory) =>
    return (disk.tree.names loc).filterMap fun name =>
      (disk.tree.get? (loc ++ [name])).map (name, ·)
  | _ => throw .notDirectory

def ensureDirectory (disk : Disk) (path : String) : Except FileFault Disk :=
  match disk.createDirectory path with
  | .ok next => .ok next
  | .error fault => if disk.isDirectory path then .ok disk else .error fault

/-- Creates a link at `target` that leads where the link at `source` does. -/
def copyLink (source target : String) : DiskAction Unit := do
  let points ← DiskAction.query source fun disk => disk.readLink source
  DiskAction.change target fun disk => disk.createLink points target

end Disk

/-- Copies an entry, which stands at `relative` in the project, if the filter includes it. A directory
is listed before its counterpart is created. The result is the number of files so far. -/
def copyEntry (source destination : String) (filter : CopyFilter)
    (copyInner : String → List (String × Entry) → DiskAction Nat) (relative : String)
    (copied : Nat) : String × Entry → DiskAction Nat
  | (name, entry) =>
    let place := Path.join relative name
    let entryPath := Path.join source place
    let target := Path.join destination place
    if filter.includes place then
      match entry with
      | .directory => do
        let inner ← DiskAction.inspect fun disk => disk.listing entryPath
        DiskAction.change target fun disk => disk.ensureDirectory target
        match inner with
        | .ok inner => return copied + (← copyInner place inner)
        | .error fault => throw (.io entryPath (.walk entryPath fault))
      | .link _ => do
        Disk.copyLink entryPath target
        return copied
      | _ => do
        DiskAction.change entryPath fun disk => disk.copyFile entryPath target
        return copied + 1
    else return copied

/-- Copies the listed entries, which stand at `relative` in the project, and what is below them. The
result is the number of files. `depth` bounds the nesting; the length limit of paths refuses deeper
ones. -/
def copyListed (source destination : String) (filter : CopyFilter) :
    (depth : Nat) → (relative : String) → List (String × Entry) → DiskAction Nat
  | 0, relative, _ => throw (.io (Path.join source relative) (.file .nameTooLong))
  | depth + 1, relative, entries =>
    entries.foldlM
      (copyEntry source destination filter (copyListed source destination filter depth) relative) 0

/-- Creates the destination and copies into it what the filter includes. -/
def copyInto (source destination : String) (filter : CopyFilter) : DiskAction Nat := do
  DiskAction.change destination fun disk => disk.createDirectory destination
  match ← DiskAction.inspect fun disk => disk.listing source with
  | .ok entries => copyListed source destination filter FileTree.pathLimit "" entries
  | .error fault => throw (.io source (.walk source fault))

def requireProject (source : String) : DiskAction Unit := do
  match ← DiskAction.inspect fun disk => disk.stat source with
  | .ok .directory => return ()
  | .ok _ => throw (.io source .sourceNotDirectory)
  | .error fault => throw (.io source (.file fault))

def requireParent (destination : String) : DiskAction Unit :=
  match Path.parent? destination with
  | none => return ()
  | some parent => do
    if ← DiskAction.inspect fun disk => parent != "" && !disk.isDirectory parent then
      throw (.io parent .parentMissing)

def clearDestination (destination : String) : DiskAction Unit := do
  if ← DiskAction.inspect fun disk => disk.pathExists destination then
    DiskAction.removeTree destination

/-- Copies the project at `source` to `destination`, which replaces what stood there. A copy that
fails halfway is removed again. The result is the number of files copied. -/
def copyProject (source destination : String) (filter : CopyFilter) : DiskAction Nat := do
  requireProject source
  requireParent destination
  clearDestination destination
  tryCatch (copyInto source destination filter) fun error => do
    DiskAction.discardTree destination
    throw error

end VersionMatrix
