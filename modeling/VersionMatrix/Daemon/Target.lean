import VersionMatrix.Text.Blank
import VersionMatrix.Text.Utf8.Basic

/-!
The path part of a request's target. A target is put together from texts that may hold anything; the
path keeps what such a text means in a URL: percent-encoded where a path cannot hold it, without the
steps `.` and `..`, and cut where a query or a fragment starts.
-/

namespace VersionMatrix.Target

/-- A blank or a control character, which counts for nothing at the end of a target. -/
def isEdge (c : Char) : Bool := c.toNat ≤ 0x20

/-- A tab or the end of a line, which counts for nothing anywhere. -/
def isBreak (c : Char) : Bool := c == '\t' || c == '\n' || c == '\r'

/-- Whether a query or a fragment starts with a character. -/
def endsPath (c : Char) : Bool := c == '?' || c == '#'

/-- The printable ASCII characters that a path cannot hold. -/
def reserved : List Char := ['"', '#', '<', '>', '?', '\x60', '{', '}']

def isPlain (byte : UInt8) : Bool :=
  0x20 < byte && byte < 0x7F && !reserved.contains (Char.ofNat byte.toNat)

def hexDigit (value : Nat) : Char :=
  Char.ofNat (if value < 10 then '0'.toNat + value else 'A'.toNat + (value - 10))

def encodeByte (byte : UInt8) : List Char :=
  if isPlain byte then [Char.ofNat byte.toNat]
  else ['%', hexDigit (byte.toNat / 16), hexDigit (byte.toNat % 16)]

def encode (segment : List Char) : List Char :=
  (segment.flatMap String.utf8EncodeChar).flatMap encodeByte

def decodePoints : List Char → List Char
  | '%' :: '2' :: 'e' :: rest => '.' :: decodePoints rest
  | '%' :: '2' :: 'E' :: rest => '.' :: decodePoints rest
  | c :: rest => c :: decodePoints rest
  | [] => []

/-- Whether a segment stays where it is. -/
def isHere (segment : List Char) : Bool := decodePoints segment == ['.']

/-- Whether a segment leads back. -/
def isBack (segment : List Char) : Bool := decodePoints segment == ['.', '.']

/-- The segments that are left when each step back has taken one with it. The kept ones come in
reverse. A step in the last place leaves an empty segment. -/
def settle (kept : List (List Char)) : List (List Char) → List (List Char)
  | [] => kept.reverse
  | [last] =>
    if isBack last then ([] :: kept.drop 1).reverse
    else if isHere last then ([] :: kept).reverse
    else (last :: kept).reverse
  | segment :: rest =>
    if isBack segment then settle (kept.drop 1) rest
    else if isHere segment then settle kept rest
    else settle (segment :: kept) rest

def path (target : String) : String :=
  let text := (Text.dropEndWhile isEdge target.toList).filter fun c => !isBreak c
  let segments := ((text.takeWhile fun c => !endsPath c).splitOn '/').drop 1
  String.ofList ((settle [] segments).flatMap fun segment => '/' :: encode segment)

example : path "/items/a b/é?x" = "/items/a%20b/%C3%A9" := by decide

example : path "/items/%2E./x/.\n" = "/x/" := by decide

end VersionMatrix.Target
