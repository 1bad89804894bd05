import VersionMatrix.Staging.Action
import VersionMatrix.Text.Occurrence

/-!
Templates with a placeholder for the version, and the image definition written from one.
-/

namespace VersionMatrix

def dockerfileName : String := "Dockerfile"

def hasPlaceholder (template : String) : Bool := Text.contains template placeholder

/-- The template with the leftmost placeholder replaced by the version. -/
def substituteVersion? (template version : String) : Option String :=
  Text.replaceFirst? template placeholder version

/-- The template with the leftmost placeholder replaced. `what` names the template in the error. -/
def substituteVersion (template version what : String) : Except StageError String :=
  match substituteVersion? template version with
  | some text => .ok text
  | none => .error (.configuration (.missingPlaceholder (what ++ " template")))

/-- Writes the image definition of a version into a directory and gives its path. The template is
checked before the disk is looked at. -/
def writeDockerfile (directory version template : String) : DiskAction String := do
  let contents ← match substituteVersion template version "image definition" with
    | .ok text => pure text
    | .error error => throw error
  match ← DiskAction.inspect fun disk => disk.stat directory with
  | .ok .directory => pure ()
  | .ok _ => throw (.io directory .notDirectory)
  | .error .notFound => throw (.notFound directory)
  | .error fault => throw (.io directory (.file fault))
  let path := Path.join directory dockerfileName
  DiskAction.change path fun disk => disk.writeFile path (Text.utf8 contents)
  return path

end VersionMatrix
