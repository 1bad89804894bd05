/-!
What a command line asks for, the options it may use, and why it may be refused.
-/

namespace VersionMatrix

/-- The arguments of a test run. What is `none` was not given. -/
structure RunArguments where
  versions : List String := []
  concurrency : Option Nat := none
  baseImage : Option String := none
  testCommand : Option String := none
  template : Option String := none
  path : String := "."
  verbose : Bool := false
  cleanStaging : Bool := false
  json : Bool := false
deriving DecidableEq, Repr

/-- The commands: to list the versions that are tested by default, or to test. -/
inductive Command where
  | list
  | test (arguments : RunArguments)
deriving DecidableEq, Repr

/-- A command line that was understood. -/
structure Invocation where
  command : Command
  logLevel : String := "warn"
deriving DecidableEq, Repr

/-- Why a command line runs nothing: it asks for help or for the version, or it is wrong. -/
inductive UsageFault where
  | helpAsked
  | versionAsked
  | unknownArgument
  | unknownSubcommand
  | missingValue
  | unneededValue
  | badNumber
  | repeated
deriving DecidableEq, Repr

inductive ValueOption where
  | concurrency
  | baseImage
  | testCommand
  | template
  | path
  | logLevel
deriving DecidableEq, Repr

inductive Switch where
  | verbose
  | cleanStaging
  | json
deriving DecidableEq, Repr

inductive CommandOption where
  | value (option : ValueOption)
  | switch (switch : Switch)
  | help
  | version
deriving DecidableEq, Repr

/-- Where an option stands: in a test run, or after the subcommand that lists versions. -/
inductive Scope where
  | test
  | list
deriving DecidableEq, Repr

namespace CommandOption

def longName : CommandOption → String
  | .value .concurrency => "concurrency"
  | .value .baseImage => "base-image"
  | .value .testCommand => "test-cmd"
  | .value .template => "template"
  | .value .path => "path"
  | .value .logLevel => "log-level"
  | .switch .verbose => "verbose"
  | .switch .cleanStaging => "clean-staging"
  | .switch .json => "json"
  | .help => "help"
  | .version => "version"

def letter? : CommandOption → Option Char
  | .value .concurrency => some 'c'
  | .value .path => some 'p'
  | .value .logLevel => some 'l'
  | .switch .verbose => some 'v'
  | .switch .json => some 'j'
  | .help => some 'h'
  | .version => some 'V'
  | _ => none

end CommandOption

def Scope.options : Scope → List CommandOption
  | .test =>
    [.value .concurrency, .value .baseImage, .value .testCommand, .value .template, .value .path,
      .value .logLevel, .switch .verbose, .switch .cleanStaging, .switch .json, .help, .version]
  | .list => [.value .logLevel, .help]

namespace Scope

def ofLongName? (scope : Scope) (name : String) : Option CommandOption :=
  scope.options.find? (·.longName == name)

def ofLetter? (scope : Scope) (letter : Char) : Option CommandOption :=
  scope.options.find? (·.letter? == some letter)

/-- No two options share a long name. -/
theorem ofLongName?_longName (option : CommandOption) :
    Scope.test.ofLongName? option.longName = some option := by
  cases option with
  | value option => cases option <;> decide
  | switch switch => cases switch <;> decide
  | help => decide
  | version => decide

end Scope

end VersionMatrix
