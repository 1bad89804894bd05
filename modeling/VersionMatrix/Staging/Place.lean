import VersionMatrix.FileTree.Path
import VersionMatrix.Text.Occurrence

/-!
Where the staging copy of a version stands.
-/

namespace VersionMatrix

/-- A name in which nothing separates path components or words. -/
def flattenName (name : String) : String :=
  Text.replaceChars ['/', '\\', ' '] '_' name

def stagingName (project version : String) : String :=
  "autochecker_" ++ flattenName project ++ flattenName version

def stagingPath (root project version : String) : String :=
  Path.join root (stagingName project version)

end VersionMatrix
