import VersionMatrix.Text.Numeral

/-!
Semantic versions, read strictly, and their order. Build metadata takes part in the order, so that
two versions compare equal only if they are written the same.
-/

namespace VersionMatrix

structure Version where
  major : Nat
  minor : Nat
  patch : Nat
  preRelease : List String := []
  build : List String := []
deriving DecidableEq, Repr

namespace Version

def isNumeric (identifier : String) : Bool := identifier.toList.all Char.isDigit

/-- A number of the core, without leading zeros, and the text after it. -/
def number? (text : List Char) : Option (Nat × List Char) :=
  let digits := text.takeWhile Char.isDigit
  if digits.isEmpty || (digits.head? == some '0' && digits.length != 1) then none
  else (Text.readDigits 0 digits).toOption.map (·, text.dropWhile Char.isDigit)

def afterPoint? : List Char → Option (List Char)
  | '.' :: rest => some rest
  | _ => none

def isIdentifierChar (c : Char) : Bool := c.isAlphanum || c == '-'

def identifiers? (text : List Char) : Option (List String) :=
  let parts := text.splitOn '.'
  if parts.all fun part => !part.isEmpty && part.all isIdentifierChar then
    some (parts.map String.ofList)
  else none

/-- Pre-release identifiers, of which the numeric ones have no leading zeros. -/
def preRelease? (text : List Char) : Option (List String) := do
  let parts ← identifiers? text
  if parts.all fun part => !(isNumeric part && part.length != 1 && part.toList.head? == some '0') then
    some parts
  else none

/-- What follows the core: a pre-release after a hyphen and build metadata after a plus sign, each
of which may be missing. -/
def suffixes? : List Char → Option (List String × List String)
  | [] => some ([], [])
  | '+' :: build => (identifiers? build).map ([], ·)
  | '-' :: rest => do
    let pre ← preRelease? (rest.takeWhile (· != '+'))
    match rest.dropWhile (· != '+') with
    | [] => some (pre, [])
    | _ :: build => (identifiers? build).map (pre, ·)
  | _ => none

def parse? (text : String) : Option Version := do
  let (major, rest) ← number? text.toList
  let (minor, rest) ← number? (← afterPoint? rest)
  let (patch, rest) ← number? (← afterPoint? rest)
  let (preRelease, build) ← suffixes? rest
  return { major, minor, patch, preRelease, build }

/-- The order of pre-release identifiers: numeric ones first, by value. -/
def comparePreReleaseIdentifiers (a b : String) : Ordering :=
  match isNumeric a, isNumeric b with
  | true, true => (compare a.length b.length).then (compare a b)
  | true, false => .lt
  | false, true => .gt
  | false, false => compare a b

def significant (identifier : String) : String :=
  String.ofList (identifier.toList.dropWhile (· == '0'))

/-- The order of build identifiers: numeric ones first, by value, and equal values by the number
of their leading zeros. -/
def compareBuildIdentifiers (a b : String) : Ordering :=
  match isNumeric a, isNumeric b with
  | true, true =>
    ((compare (significant a).length (significant b).length).then
      (compare (significant a) (significant b))).then (compare a.length b.length)
  | true, false => .lt
  | false, true => .gt
  | false, false => compare a b

/-- The first difference of two lists decides; a list comes before its extensions. -/
def compareLists (order : String → String → Ordering) : List String → List String → Ordering
  | [], [] => .eq
  | [], _ :: _ => .lt
  | _ :: _, [] => .gt
  | a :: as, b :: bs => (order a b).then (compareLists order as bs)

/-- The order of pre-releases, where having none comes last. -/
def comparePreReleases : List String → List String → Ordering
  | [], [] => .eq
  | [], _ :: _ => .gt
  | _ :: _, [] => .lt
  | as, bs => compareLists comparePreReleaseIdentifiers as bs

def order (v w : Version) : Ordering :=
  ((((compare v.major w.major).then (compare v.minor w.minor)).then
    (compare v.patch w.patch)).then (comparePreReleases v.preRelease w.preRelease)).then
      (compareLists compareBuildIdentifiers v.build w.build)

end Version

end VersionMatrix
