import VersionMatrix.CommandLine.Arguments
import VersionMatrix.Proofs.Text.Numeral
import Mathlib.Data.List.Forall2

/-! How the arguments of a test run are written on a command line. The same arguments have many
spellings: the parts may come in any order, options have long names and letters, letters share a word, and
a value stands in the word of its option or in the next one. -/
namespace VersionMatrix

/-- What a part of a command line gives: a version, a value for an option, or a switch. -/
inductive Given where
  | version (word : String)
  | value (option : ValueOption) (text : String)
  | flag (switch : Switch)
deriving DecidableEq, Repr

namespace Given

def option? : Given → Option CommandOption
  | .version _ => none
  | .value option _ => some (.value option)
  | .flag switch => some (.switch switch)

def version? : Given → Option String
  | .version word => some word
  | _ => none

def value? (option : ValueOption) : Given → Option String
  | .value other text => if other = option then some text else none
  | _ => none

end Given

/-- A word that does not look like an option. -/
def IsPlainWord (word : String) : Prop := word.toList.head? ≠ some '-'

instance (word : String) : Decidable (IsPlainWord word) :=
  inferInstanceAs (Decidable (word.toList.head? ≠ some '-'))

/-- Letters of switches, one after the other. -/
inductive Cluster : List Switch → List Char → Prop where
  | nil : Cluster [] []
  | cons {switch : Switch} {letter : Char} {switches : List Switch} {letters : List Char}
      (named : (CommandOption.switch switch).letter? = some letter) (more : Cluster switches letters) :
      Cluster (switch :: switches) (letter :: letters)

theorem Cluster.ne_nil {switches : List Switch} {letters : List Char} (cluster : Cluster switches letters)
    (filled : switches ≠ []) : letters ≠ [] := by
  cases cluster with
  | nil => exact absurd rfl filled
  | cons => exact List.cons_ne_nil _ _

/-- How one part of a command line is written. A value in the word of a letter that has no equals sign before
it is not empty and does not start with one. -/
inductive Phrase : List Given → List String → Prop where
  | version {word : String} (plain : IsPlainWord word) : Phrase [.version word] [word]
  | longSwitch (switch : Switch) :
      Phrase [.flag switch] ["--" ++ (CommandOption.switch switch).longName]
  | longEquals (option : ValueOption) (text : String) :
      Phrase [.value option text] ["--" ++ (CommandOption.value option).longName ++ "=" ++ text]
  | longApart (option : ValueOption) {text : String} (plain : IsPlainWord text) :
      Phrase [.value option text] ["--" ++ (CommandOption.value option).longName, text]
  | letters {switches : List Switch} {letters : List Char} (cluster : Cluster switches letters)
      (filled : switches ≠ []) :
      Phrase (switches.map .flag) [String.ofList ('-' :: letters)]
  | letterEquals {switches : List Switch} {letters : List Char} (cluster : Cluster switches letters)
      {option : ValueOption} {letter : Char} (named : (CommandOption.value option).letter? = some letter)
      (text : String) :
      Phrase (switches.map .flag ++ [.value option text])
        [String.ofList ('-' :: (letters ++ letter :: '=' :: text.toList))]
  | letterAttached {switches : List Switch} {letters : List Char} (cluster : Cluster switches letters)
      {option : ValueOption} {letter : Char} (named : (CommandOption.value option).letter? = some letter)
      {text : String} (filled : text ≠ "") (unequal : text.toList.head? ≠ some '=') :
      Phrase (switches.map .flag ++ [.value option text])
        [String.ofList ('-' :: (letters ++ letter :: text.toList))]
  | letterApart {switches : List Switch} {letters : List Char} (cluster : Cluster switches letters)
      {option : ValueOption} {letter : Char} (named : (CommandOption.value option).letter? = some letter)
      {text : String} (plain : IsPlainWord text) :
      Phrase (switches.map .flag ++ [.value option text])
        [String.ofList ('-' :: (letters ++ [letter])), text]

/-- How a command line is written: its parts in any order, and at its end, behind two dashes, versions that
may look like anything. -/
inductive Line : List Given → List String → Prop where
  | nil : Line [] []
  | versions (words : List String) : Line (words.map .version) ("--" :: words)
  | phrase {part given : List Given} {words rest : List String} (first : Phrase part words)
      (more : Line given rest) : Line (part ++ given) (words ++ rest)

/-- The versions that are given, in their order. -/
def versionsOf (given : List Given) : List String := given.filterMap Given.version?

def valuesOf (given : List Given) (option : ValueOption) : List String :=
  given.filterMap (Given.value? option)

/-- A numeral that denotes a number of 64 bits. -/
def Denotes (text : String) (n : Nat) : Prop := Text.WritesNumber text n ∧ n < Text.wordLimit

/-- The values that may be given for an option where its value is to be this one: none or one, and none only
if the value is what the option has when it is not given. -/
def HasValues (arguments : RunArguments) (logLevel : String) (option : ValueOption) (texts : List String) :
    Prop :=
  match option with
  | .concurrency => List.Forall₂ Denotes texts arguments.concurrency.toList
  | .baseImage => texts = arguments.baseImage.toList
  | .testCommand => texts = arguments.testCommand.toList
  | .template => texts = arguments.template.toList
  | .path => texts = [arguments.path] ∨ texts = [] ∧ arguments.path = "."
  | .logLevel => texts = [logLevel] ∨ texts = [] ∧ logLevel = "warn"

def RunArguments.isSet (arguments : RunArguments) : Switch → Bool
  | .verbose => arguments.verbose
  | .cleanStaging => arguments.cleanStaging
  | .json => arguments.json

/-- What is given adds up to these arguments and this log level: the versions in their order, each option at
most once, and each switch that is set. -/
structure AddsUp (given : List Given) (arguments : RunArguments) (logLevel : String) : Prop where
  versions : versionsOf given = arguments.versions
  values : ∀ option, HasValues arguments logLevel option (valuesOf given option)
  switches : ∀ switch, given.count (.flag switch) = (arguments.isSet switch).toNat

end VersionMatrix
