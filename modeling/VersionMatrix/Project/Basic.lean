import VersionMatrix.Error
import VersionMatrix.Project.Manifest
import VersionMatrix.Project.Revision
import VersionMatrix.Text.LowerCase

/-!
Facts about the project under test: its name, its revision and its image definition template.
-/

namespace VersionMatrix

/-- A project that was found. The root is kept as it was given. -/
structure Project where
  root : String
  name : String
  revision : String
deriving DecidableEq, Repr

namespace Project

def templateFileName : String := "DockerTemplate"

def defaultTemplate : String :=
  "FROM mhart/alpine-node:$VERSION\nRUN mkdir -p /usr/src/app\nWORKDIR /usr/src/app\n" ++
    "COPY package.json .\nRUN npm install\nCOPY . .\n"

/-- The text of a file that may be missing. -/
def readOptional (disk : Disk) (path : String) : Except ProjectError (Option String) :=
  match disk.readText path with
  | .ok text => .ok (some text)
  | .error .notFound => .ok none
  | .error fault => .error (.io fault.message)

def directoryName (disk : Disk) (path : String) : String :=
  ((disk.canonical? path).bind (·.getLast?)).getD "project"

/-- The name of the project at `root`: from its package manifest, unless blank, then from its crate
manifest, then that of its directory. -/
def findName (disk : Disk) (root : String) : Except ProjectError String := do
  let manifest := Path.join root "package.json"
  if let some text := ← readOptional disk manifest then
    match Manifest.packageName? text with
    | none => throw (.manifest manifest)
    | some (some name) => if !Text.isBlank name then return name
    | some none => pure ()
  if let some text := ← readOptional disk (Path.join root "Cargo.toml") then
    if let some name := Manifest.crateName? text then return name
  return directoryName disk root

/-- Inspects the project at `root`. The version control program is asked once the name is settled. -/
def discover (git : Git) (disk : Disk) (root : String) : Except ProjectError Project := do
  if !disk.isDirectory root then throw (.missingDirectory root)
  let name ← findName disk root
  return { root, name, revision := git.revision disk root }

/-- A name as it may stand in an image name. -/
def imageLabel (name : String) : String :=
  let plain := Text.replaceChars ['@', '/', ' '] '_' (Text.lower name)
  String.ofList (Text.stripWhile (· == '_') plain.toList)

def imageNameTemplate (project : Project) : String :=
  imageLabel project.name ++ "_" ++ placeholder ++ ":" ++ project.revision

/-- The template in a file, or the built-in one if there is no such file. -/
def loadTemplate (disk : Disk) (path : String) : Except ProjectError String := do
  return (← readOptional disk path).getD defaultTemplate

end Project

end VersionMatrix
