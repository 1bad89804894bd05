import VersionMatrix.Staging.Copy

/-!
The build context: everything below a staging directory, as the list of entries of an archive.
-/

namespace VersionMatrix

/-- What a build is given: paths below the staging directory with their entries, each directory
before what it holds, and names of one directory in the order of their bytes. -/
abbrev BuildContext := List (String × Entry)

namespace BuildContext

/-- The number of bytes that the header of an archive has for the target of a link. -/
def headerRoom : Nat := 100

/-- The target of a link as an archive keeps it: tidied if it fits into the header then, and as it
is otherwise. -/
def packedTarget (target : String) : String :=
  let tidied := Path.tidy target
  if tidied.utf8ByteSize ≤ headerRoom then tidied else target

/-- Packs an entry, which stands at `relative`, and what is below it. Links are packed as links. -/
def packEntry (disk : Disk) (staging : String)
    (packInner : String → List (String × Entry) → Except StageError BuildContext)
    (relative : String) : String × Entry → Except StageError BuildContext
  | (name, entry) =>
    let place := Path.join relative name
    let entryPath := Path.join staging place
    match disk.find .itself entryPath, entry with
    | .error fault, .directory => .error (.io entryPath (.file fault))
    | .error fault, _ => .error (.io entryPath (.unexamined entryPath fault))
    | .ok _, .directory =>
      match disk.listing entryPath with
      | .ok inner => (packInner place inner).map ((place, entry) :: ·)
      | .error fault => .error (.io staging (.walk entryPath fault))
    | .ok _, .socket => .error (.io entryPath (.unpackable entryPath))
    | .ok _, .link target => .ok [(place, .link (packedTarget target))]
    | .ok _, .file .. => .ok [(place, entry)]

/-- Packs the listed entries, which stand at `relative`, and what is below them. -/
def packListed (disk : Disk) (staging : String) :
    (depth : Nat) → (relative : String) → List (String × Entry) → Except StageError BuildContext
  | 0, relative, _ => .error (.io (Path.join staging relative) (.file .nameTooLong))
  | depth + 1, relative, entries =>
    (entries.mapM (packEntry disk staging (packListed disk staging depth) relative)).map
      List.flatten

/-- Packs a staging directory. What is no directory packs to nothing. -/
def pack (disk : Disk) (staging : String) : Except StageError BuildContext :=
  match disk.stat staging with
  | .ok .directory =>
    match disk.listing staging with
    | .ok entries => packListed disk staging FileTree.pathLimit "" entries
    | .error fault => .error (.io staging (.walk staging fault))
  | .ok _ => .ok []
  | .error fault => .error (.io staging (.walk staging fault))

end BuildContext

end VersionMatrix
