/-!
Unsigned decimal numerals of 64 bits, read with the reason when they are refused.
-/

namespace VersionMatrix.Text

/-- The number of values a 64-bit word has. -/
def wordLimit : Nat := Nat.pow 2 64

inductive NumeralError where
  | empty
  | invalidDigit
  | tooLarge
deriving DecidableEq, Repr

def NumeralError.message : NumeralError → String
  | .empty => "cannot parse integer from empty string"
  | .invalidDigit => "invalid digit found in string"
  | .tooLarge => "number too large to fit in target type"

def digit? (c : Char) : Option Nat :=
  if '0' ≤ c ∧ c ≤ '9' then some (c.toNat - '0'.toNat) else none

/-- Reads digits from the left onto `value`. Of two faults the one further left is reported. -/
def readDigits (value : Nat) : List Char → Except NumeralError Nat
  | [] => .ok value
  | c :: rest =>
    match digit? c with
    | none => .error .invalidDigit
    | some digit =>
      let next := value * 10 + digit
      if next < wordLimit then readDigits next rest else .error .tooLarge

/-- Reads decimal digits with an optional leading plus sign. -/
def readNumeral (text : String) : Except NumeralError Nat :=
  match text.toList with
  | [] => .error .empty
  | ['+'] => .error .invalidDigit
  | '+' :: digits => readDigits 0 digits
  | digits => readDigits 0 digits

example : readNumeral "+007" = .ok 7 := by rfl

example : readNumeral "18446744073709551616" = .error .tooLarge := by rfl

end VersionMatrix.Text
