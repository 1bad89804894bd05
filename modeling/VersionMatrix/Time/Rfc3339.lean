import VersionMatrix.Text.Blank
import VersionMatrix.Text.Numeral
import VersionMatrix.Time.Instant

/-!
Instants in the notation of RFC 3339. They are written in UTC with as many digits as they need, and
read with some latitude: short numbers, white space between the parts, any offset below a day.
-/

namespace VersionMatrix.Instant

def padded (width n : Nat) : List Char :=
  let digits := Nat.toDigits 10 n
  List.replicate (width - digits.length) '0' ++ digits

/-- A year of four digits, with a sign outside 0000 to 9999. -/
def yearText (year : Int) : List Char :=
  if 0 ≤ year ∧ year ≤ 9999 then padded 4 year.toNat
  else (if year < 0 then '-' else '+') :: padded 4 year.natAbs

/-- A fraction of a second in none, three, six or nine digits, the fewest that are exact. -/
def fractionText (nanoseconds : Nat) : List Char :=
  if nanoseconds = 0 then []
  else if nanoseconds % 1000000 = 0 then '.' :: padded 3 (nanoseconds / 1000000)
  else if nanoseconds % 1000 = 0 then '.' :: padded 6 (nanoseconds / 1000)
  else '.' :: padded 9 nanoseconds

/-- The text of an instant, in UTC. A leap second is the sixtieth of its minute. -/
def write (instant : Instant) : String :=
  let date := Date.ofDays (instant.seconds / secondsPerDay)
  let second := instant.secondOfDay.toNat
  let leap := if instant.isLeap then 1 else 0
  String.ofList <|
    yearText date.year ++ '-' :: padded 2 date.month ++ '-' :: padded 2 date.day ++
    'T' :: padded 2 (second / 3600) ++ ':' :: padded 2 (second / 60 % 60) ++
    ':' :: padded 2 (second % 60 + leap) ++
    fractionText (instant.nanoseconds - leap * 1000000000) ++ ['Z']

def skipBlank (text : List Char) : List Char := text.dropWhile Text.isBlankChar

def digitsValue (digits : List Char) : Nat :=
  digits.foldl (fun value c => value * 10 + (c.toNat - '0'.toNat)) 0

/-- A number of at least one digit and at most `width`, where a width is given. -/
def number? (width : Option Nat) (text : List Char) : Option (Nat × List Char) :=
  let digits := text.takeWhile Char.isDigit
  let digits := match width with
    | some width => digits.take width
    | none => digits
  if digits.isEmpty then none else some (digitsValue digits, text.drop digits.length)

/-- A number of at most two digits, from `least` to `greatest`, after white space. -/
def part? (least greatest : Nat) (text : List Char) : Option (Nat × List Char) := do
  let (value, rest) ← number? (some 2) (skipBlank text)
  if least ≤ value ∧ value ≤ greatest then some (value, rest) else none

/-- A year after white space: at most four digits, or any number of them after a sign. -/
def year? (text : List Char) : Option (Int × List Char) :=
  match skipBlank text with
  | '-' :: rest => (number? none rest).map fun (value, rest) => (-(value : Int), rest)
  | '+' :: rest => (number? none rest).map fun (value, rest) => ((value : Int), rest)
  | rest => (number? (some 4) rest).map fun (value, rest) => ((value : Int), rest)

def afterMark? (mark : Char) (text : List Char) : Option (List Char) :=
  match skipBlank text with
  | c :: rest => if c = mark then some rest else none
  | [] => none

/-- The nanoseconds of a fraction, which may be missing. Digits after the ninth are passed over. -/
def fraction? : List Char → Option (Nat × List Char)
  | '.' :: rest => do
    let digits := rest.takeWhile Char.isDigit
    let kept := digits.take 9
    if kept.isEmpty then none
    else some (digitsValue kept * Nat.pow 10 (9 - kept.length), rest.dropWhile Char.isDigit)
  | rest => some (0, rest)

/-- The hours and minutes of an offset, two digits each, with colons or white space between. -/
def offsetParts? (text : List Char) : Option (Int × List Char) := do
  let [h₁, h₂] := text.take 2 | none
  if !(h₁.isDigit && h₂.isDigit) then none
  let rest := (text.drop 2).dropWhile fun c => c == ':' || Text.isBlankChar c
  let [m₁, m₂] := rest.take 2 | none
  if !(m₁.isDigit && m₂.isDigit) then none
  let minutes := digitsValue [m₁, m₂]
  if minutes < 60 then
    some ((digitsValue [h₁, h₂] * 3600 + minutes * 60 : Nat), rest.drop 2)
  else none

def offset? (text : List Char) : Option (Int × List Char) :=
  let isUtc := (text.take 3).map Char.toUpper = ['U', 'T', 'C']
  if isUtc then some (0, text.drop 3)
  else
    match text with
    | 'Z' :: rest | 'z' :: rest => some (0, rest)
    | '+' :: rest => offsetParts? rest
    | '-' :: rest | '−' :: rest => (offsetParts? rest).map fun (seconds, rest) => (-seconds, rest)
    | _ => none

def yearInRange (year : Int) : Bool := -262143 ≤ year && year ≤ 262142

/-- Reads an instant. A sixtieth second is a leap second, whatever the minute. -/
def read? (text : String) : Option Instant := do
  let (year, rest) ← year? text.toList
  let (month, rest) ← part? 1 12 (← afterMark? '-' rest)
  let (day, rest) ← part? 1 31 (← afterMark? '-' rest)
  let rest ← match rest with
    | 'T' :: rest | 't' :: rest | ' ' :: rest => some rest
    | _ => none
  let (hour, rest) ← part? 0 23 rest
  let (minute, rest) ← part? 0 59 (← afterMark? ':' rest)
  let (second, rest) ← part? 0 60 (← afterMark? ':' rest)
  let (nanoseconds, rest) ← fraction? rest
  let (offset, rest) ← offset? (skipBlank rest)
  let date : Date := { year, month, day }
  if !rest.all Text.isBlankChar || !date.isValid || !yearInRange year || offset.natAbs ≥ 86400 then
    none
  let seconds :=
    date.toDays * secondsPerDay + (hour * 3600 + minute * 60 + min second 59 : Nat) - offset
  if !yearInRange (Date.ofDays (seconds / secondsPerDay)).year then none
  return { seconds, nanoseconds := nanoseconds + if second = 60 then 1000000000 else 0 }

end VersionMatrix.Instant
