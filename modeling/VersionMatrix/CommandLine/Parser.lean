import VersionMatrix.CommandLine.Arguments
import VersionMatrix.Text.Numeral
import VersionMatrix.Text.Occurrence

/-!
Reading a command line word by word, from left to right. The first problem wins. The value of an
option that stands in a word of its own is looked at when the next option, the next version or the
end is reached, so a word that is no option at all is a problem before it.
-/

namespace VersionMatrix

/-- What has been read so far, and the option whose value is due or has not been looked at. -/
structure ArgumentReader where
  arguments : RunArguments := {}
  logLevel : String := "warn"
  given : List CommandOption := []
  pending : Option (ValueOption × Option String) := none
  onlyVersions : Bool := false
deriving DecidableEq, Repr

namespace ArgumentReader

def mark (reader : ArgumentReader) (option : CommandOption) : Except UsageFault ArgumentReader :=
  if option ∈ reader.given then .error .repeated
  else .ok { reader with given := reader.given ++ [option] }

def pathValue (value : String) : Except UsageFault String :=
  if value = "" then .error .missingValue else .ok value

def store (reader : ArgumentReader) (option : ValueOption) (value : String) :
    Except UsageFault ArgumentReader := do
  let reader ← reader.mark (.value option)
  let arguments := reader.arguments
  match option with
  | .concurrency =>
    match Text.readNumeral value with
    | .ok n => return { reader with arguments := { arguments with concurrency := some n } }
    | .error _ => throw .badNumber
  | .baseImage => return { reader with arguments := { arguments with baseImage := some value } }
  | .testCommand =>
    return { reader with arguments := { arguments with testCommand := some value } }
  | .template =>
    let value ← pathValue value
    return { reader with arguments := { arguments with template := some value } }
  | .path =>
    let value ← pathValue value
    return { reader with arguments := { arguments with path := value } }
  | .logLevel => return { reader with logLevel := value }

/-- Looks at the pending value. -/
def settle (reader : ArgumentReader) : Except UsageFault ArgumentReader :=
  match reader.pending with
  | none => .ok reader
  | some (_, none) => .error .missingValue
  | some (option, some value) => store { reader with pending := none } option value

def raise (reader : ArgumentReader) (switch : Switch) : Except UsageFault ArgumentReader := do
  let reader ← (← reader.settle).mark (.switch switch)
  let arguments := reader.arguments
  return { reader with
    arguments := match switch with
      | .verbose => { arguments with verbose := true }
      | .cleanStaging => { arguments with cleanStaging := true }
      | .json => { arguments with json := true } }

/-- Takes an option with a value in the same word, or with one that is to come. -/
def takeValue (reader : ArgumentReader) (option : ValueOption) (value : Option String) :
    Except UsageFault ArgumentReader := do
  let reader ← reader.settle
  match value with
  | some value => reader.store option value
  | none => return { reader with pending := some (option, none) }

/-- Takes a word that starts with two dashes, without these. -/
def takeLong (scope : Scope) (reader : ArgumentReader) (word : String) :
    Except UsageFault ArgumentReader := do
  let (name, value) := match Text.splitOnce? '=' word with
    | some (name, value) => (name, some value)
    | none => (word, none)
  match scope.ofLongName? name, value with
  | none, _ => throw .unknownArgument
  | some (.value option), value => reader.takeValue option value
  | some _, some _ => throw .unneededValue
  | some (.switch switch), none => reader.raise switch
  | some .help, none =>
    let _ ← reader.settle
    throw .helpAsked
  | some .version, none =>
    let _ ← reader.settle
    throw .versionAsked

/-- The value that follows the letter of an option in the same word, with or without an equals
sign. -/
def attached : List Char → Option String
  | [] => none
  | '=' :: value => some (String.ofList value)
  | value => some (String.ofList value)

def takeLetters (scope : Scope) (reader : ArgumentReader) :
    List Char → Except UsageFault ArgumentReader
  | [] => .ok reader
  | letter :: rest => do
    match scope.ofLetter? letter with
    | none => throw .unknownArgument
    | some (.value option) => reader.takeValue option (attached rest)
    | some (.switch switch) => takeLetters scope (← reader.raise switch) rest
    | some .help =>
      let _ ← reader.settle
      throw .helpAsked
    | some .version =>
      let _ ← reader.settle
      throw .versionAsked

/-- Takes a word that is no option: the value that is due, or else a version. -/
def takePlain (scope : Scope) (reader : ArgumentReader) (word : String) :
    Except UsageFault ArgumentReader :=
  match reader.pending, reader.onlyVersions with
  | some (option, none), false => .ok { reader with pending := some (option, some word) }
  | _, _ =>
    match scope with
    | .list => .error .unknownArgument
    | .test => do
      let reader ← reader.settle
      let arguments := reader.arguments
      return { reader with
        arguments := { arguments with versions := arguments.versions ++ [word] } }

/-- Takes one word. After two dashes alone there are only versions. -/
def take (scope : Scope) (reader : ArgumentReader) (word : String) :
    Except UsageFault ArgumentReader :=
  if reader.onlyVersions then reader.takePlain scope word
  else
    match word.toList with
    | ['-', '-'] => .ok { reader with onlyVersions := true }
    | '-' :: '-' :: rest => reader.takeLong scope (String.ofList rest)
    | ['-'] => reader.takePlain scope word
    | '-' :: letters => reader.takeLetters scope letters
    | _ => reader.takePlain scope word

def takeAll (scope : Scope) (reader : ArgumentReader) (words : List String) :
    Except UsageFault ArgumentReader := do
  (← words.foldlM (take scope) reader).settle

end ArgumentReader

namespace Invocation

/-- The names of the subcommand that lists versions. -/
def listNames : List String := ["ls", "list"]

/-- What follows the request for help on a subcommand: nothing, or the name of one. -/
def helpFault : List String → UsageFault
  | [] => .helpAsked
  | [name] => if name ∈ listNames ∨ name = "help" then .helpAsked else .unknownSubcommand
  | _ => .unknownSubcommand

/-- The invocation of a command line without the name of the program. A subcommand is told by the
first word alone. -/
def parse : List String → Except UsageFault Invocation
  | [] => .ok { command := .test {} }
  | first :: rest => do
    if first ∈ listNames then
      let reader ← ArgumentReader.takeAll .list {} rest
      return { command := .list, logLevel := reader.logLevel }
    else if first = "help" then throw (helpFault rest)
    else
      let reader ← ArgumentReader.takeAll .test {} (first :: rest)
      return { command := .test reader.arguments, logLevel := reader.logLevel }

example : parse ["-vc2", "5.0.0", "--path=a=b"] =
    .ok { command := .test
            { versions := ["5.0.0"], concurrency := some 2, path := "a=b", verbose := true } } := by
  rfl

example : parse ["-c", "x", "--bogus"] = .error .unknownArgument := by rfl

example : parse ["-c", "x", "--help"] = .error .badNumber := by rfl

end Invocation

end VersionMatrix
