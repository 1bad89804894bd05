import VersionMatrix.Json.Record
import VersionMatrix.Text.Blank
import VersionMatrix.Text.Occurrence

/-!
The name of a project as its manifests give it.
-/

namespace VersionMatrix.Manifest

/-- The optional name in a package manifest, or `none` if the text is no manifest. -/
def packageName? (text : String) : Option (Option String) := do
  let [name] ← (← Json.read? text).fields? ["name"] | none
  Json.omissible Json.text? name

/-- The value of a line that gives a name: what stands after the first equals sign, without white
space and then without quotes at either end. -/
def nameOfLine? (line : String) : Option String := do
  let (key, value) ← Text.splitOnce? '=' line
  let name := String.ofList (Text.stripWhile (· == '"') (Text.trim value).toList)
  if Text.trim key = "name" ∧ name ≠ "" then some name else none

/-- The first name in the package table among trimmed lines. -/
def nameInTable? (inPackage : Bool) : List String → Option String
  | [] => none
  | line :: rest =>
    if line.toList.head? = some '[' then nameInTable? (line == "[package]") rest
    else if inPackage then
      match nameOfLine? line with
      | some name => some name
      | none => nameInTable? inPackage rest
    else nameInTable? inPackage rest

/-- The name in the package table of a crate manifest, read line by line. -/
def crateName? (text : String) : Option String :=
  nameInTable? false ((Text.lines text).map Text.trim)

end VersionMatrix.Manifest
