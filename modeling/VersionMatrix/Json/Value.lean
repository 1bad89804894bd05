import VersionMatrix.Text.Numeral

/-!
JSON values as far as the records of this library need them. Numbers keep their spelling, so a
number of any size can be passed over.
-/

namespace VersionMatrix

/-- A JSON value. A string is `none` if it holds an unpaired surrogate and so is no text. Members
keep their order and may repeat a key. -/
inductive Json where
  | null
  | bool (value : Bool)
  | number (spelling : String)
  | string (text : Option String)
  | array (items : List Json)
  | object (members : List (Option String × Json))

namespace Json

def text (s : String) : Json := .string (some s)

def nat (n : Nat) : Json := .number (Nat.repr n)

def record (members : List (String × Json)) : Json :=
  .object (members.map fun (key, value) => (some key, value))

def text? : Json → Option String
  | .string s => s
  | _ => none

def bool? : Json → Option Bool
  | .bool b => some b
  | _ => none

/-- The value of an integer numeral without sign, fraction or exponent that fits 64 bits. -/
def word? : Json → Option Nat
  | .number spelling => (Text.readDigits 0 spelling.toList).toOption
  | _ => none

/-- The value of an integer numeral that fits 64 bits with a sign. Minus zero is no integer. -/
def signed? : Json → Option Int
  | .number spelling =>
    match spelling.toList with
    | '-' :: digits =>
      match (Text.readDigits 0 digits).toOption with
      | some n => if 0 < n ∧ n ≤ Nat.pow 2 63 then some (-(n : Int)) else none
      | none => none
    | digits =>
      match (Text.readDigits 0 digits).toOption with
      | some n => if n < Nat.pow 2 63 then some (n : Int) else none
      | none => none
  | _ => none

def list? {α : Type} (item? : Json → Option α) : Json → Option (List α)
  | .array items => items.mapM item?
  | _ => none

def get? (key : String) : Json → Option Json
  | .object members => members.lookup (some key)
  | _ => none

end Json

end VersionMatrix
