/-!
The tokens of a JSON text. The scan goes through the text once, character by character, and tells a
text that is cut short from one that no continuation can mend.
-/

namespace VersionMatrix.Json

inductive Fault where
  | incomplete
  | malformed
deriving DecidableEq, Repr

inductive Token where
  | openBrace
  | closeBrace
  | openBracket
  | closeBracket
  | comma
  | colon
  | null
  | bool (value : Bool)
  | number (spelling : String)
  | string (text : Option String)
deriving DecidableEq, Repr

def isGap (c : Char) : Bool := c == ' ' || c == '\n' || c == '\t' || c == '\r'

def isNumberChar (c : Char) : Bool :=
  c.isDigit || c == '-' || c == '+' || c == '.' || c == 'e' || c == 'E'

def isDigits (chars : List Char) : Bool := !chars.isEmpty && chars.all Char.isDigit

/-- An exponent with its mark, or nothing. -/
def isExponent : List Char → Bool
  | [] => true
  | mark :: rest =>
    (mark == 'e' || mark == 'E') &&
      match rest with
      | '+' :: digits => isDigits digits
      | '-' :: digits => isDigits digits
      | digits => isDigits digits

/-- A fraction with its point, or nothing, and then an exponent or nothing. -/
def isFraction : List Char → Bool
  | '.' :: rest => isDigits (rest.takeWhile Char.isDigit) && isExponent (rest.dropWhile Char.isDigit)
  | rest => isExponent rest

/-- A number without its sign. A zero in front stands alone. -/
def isUnsignedNumber : List Char → Bool
  | '0' :: rest => isFraction rest
  | chars => isDigits (chars.takeWhile Char.isDigit) && isFraction (chars.dropWhile Char.isDigit)

def isNumber : List Char → Bool
  | '-' :: rest => isUnsignedNumber rest
  | chars => isUnsignedNumber chars

def hexDigit? (c : Char) : Option Nat :=
  if '0' ≤ c ∧ c ≤ '9' then some (c.toNat - '0'.toNat)
  else if 'a' ≤ c ∧ c ≤ 'f' then some (c.toNat - 'a'.toNat + 10)
  else if 'A' ≤ c ∧ c ≤ 'F' then some (c.toNat - 'A'.toNat + 10)
  else none

/-- The string read so far: its characters in reverse, or `none` after an unpaired surrogate, and a
leading surrogate that waits for its partner. -/
structure OpenString where
  kept : Option (List Char) := some []
  leading : Option Nat := none

namespace OpenString

/-- Adds a character. A surrogate that waits has missed its partner. -/
def push (s : OpenString) (c : Char) : OpenString :=
  match s.leading with
  | none => { s with kept := s.kept.map (c :: ·) }
  | some _ => { kept := none }

def pushUnit (s : OpenString) (unit : Nat) : OpenString :=
  let isTrailing := 0xDC00 ≤ unit ∧ unit ≤ 0xDFFF
  match s.leading with
  | some leading =>
    if isTrailing then
      let code := 0x10000 + (leading - 0xD800) * 0x400 + (unit - 0xDC00)
      { kept := s.kept.map (Char.ofNat code :: ·) }
    else { kept := none }
  | none =>
    if 0xD800 ≤ unit ∧ unit ≤ 0xDBFF then { s with leading := some unit }
    else if isTrailing then { kept := none }
    else s.push (Char.ofNat unit)

def close (s : OpenString) : Option String :=
  match s.leading with
  | none => s.kept.map fun chars => String.ofList chars.reverse
  | some _ => none

end OpenString

/-- What the scan is in the middle of. Characters of a word or number are kept in reverse. -/
inductive Mode where
  | between
  | word (letters : List Char)
  | number (chars : List Char)
  | string (s : OpenString)
  | escape (s : OpenString)
  | unit (s : OpenString) (digits : List Nat)

def literals : List (List Char × Token) :=
  [(['n', 'u', 'l', 'l'], .null), (['t', 'r', 'u', 'e'], .bool true),
    (['f', 'a', 'l', 's', 'e'], .bool false)]

def wordToken (letters : List Char) : Except Fault Token :=
  match literals.lookup letters with
  | some token => .ok token
  | none => .error .malformed

def numberToken (chars : List Char) : Except Fault Token :=
  if isNumber chars then .ok (.number (String.ofList chars)) else .error .malformed

def mark? : Char → Option Token
  | '{' => some .openBrace
  | '}' => some .closeBrace
  | '[' => some .openBracket
  | ']' => some .closeBracket
  | ',' => some .comma
  | ':' => some .colon
  | _ => none

def escaped? : Char → Option Char
  | '"' => some '"'
  | '\\' => some '\\'
  | '/' => some '/'
  | 'b' => some '\x08'
  | 'f' => some '\x0c'
  | 'n' => some '\n'
  | 'r' => some '\r'
  | 't' => some '\t'
  | _ => none

def startToken (c : Char) : Except Fault (List Token × Mode) :=
  if isGap c then .ok ([], .between)
  else if c = '"' then .ok ([], .string {})
  else if isNumberChar c && c != 'e' && c != 'E' then .ok ([], .number [c])
  else if c.isAlpha then .ok ([], .word [c])
  else
    match mark? c with
    | some token => .ok ([token], .between)
    | none => .error .malformed

/-- Takes one character, and gives the tokens that end with it or before it. -/
def scanChar (mode : Mode) (c : Char) : Except Fault (List Token × Mode) :=
  match mode with
  | .between => startToken c
  | .word letters =>
    if c.isAlpha then .ok ([], .word (c :: letters))
    else do
      let token ← wordToken letters.reverse
      let (tokens, next) ← startToken c
      return (token :: tokens, next)
  | .number chars =>
    if isNumberChar c then .ok ([], .number (c :: chars))
    else do
      let token ← numberToken chars.reverse
      let (tokens, next) ← startToken c
      return (token :: tokens, next)
  | .string s =>
    if c = '"' then .ok ([.string s.close], .between)
    else if c = '\\' then .ok ([], .escape s)
    else if c.toNat < 0x20 then .error .malformed
    else .ok ([], .string (s.push c))
  | .escape s =>
    if c = 'u' then .ok ([], .unit s [])
    else
      match escaped? c with
      | some plain => .ok ([], .string (s.push plain))
      | none => .error .malformed
  | .unit s digits =>
    match hexDigit? c with
    | none => .error .malformed
    | some digit =>
      match digits with
      | [a, b, d] => .ok ([], .string (s.pushUnit (((a * 16 + b) * 16 + d) * 16 + digit)))
      | _ => .ok ([], .unit s (digits ++ [digit]))

/-- The token that the end of the text completes. A number that lacks its next digit is cut short. -/
def scanEnd : Mode → Except Fault (List Token)
  | .between => .ok []
  | .word letters =>
    let word := letters.reverse
    match literals.lookup word with
    | some token => .ok [token]
    | none =>
      if literals.any fun (name, _) => word.isPrefixOf name then .error .incomplete
      else .error .malformed
  | .number chars =>
    if isNumber chars.reverse then .ok [.number (String.ofList chars.reverse)]
    else if isNumber (chars.reverse ++ ['0']) then .error .incomplete
    else .error .malformed
  | _ => .error .incomplete

def scanFrom (mode : Mode) : List Char → Except Fault (List Token)
  | [] => scanEnd mode
  | c :: rest => do
    let (tokens, next) ← scanChar mode c
    let more ← scanFrom next rest
    return tokens ++ more

def scan (text : String) : Except Fault (List Token) :=
  scanFrom .between text.toList

end VersionMatrix.Json
