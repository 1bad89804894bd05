import VersionMatrix.Text.Blank
import VersionMatrix.Text.Utf8.Basic

/-!
Certificates in their textual encoding: labelled sections of Base64 between lines that begin and end
them. Only whether such a text can be read is of interest here, not what the certificates say.
-/

namespace VersionMatrix.Certificate

inductive Fault where
  | unended (label : List UInt8)
  | malformedStart (line : List UInt8)
  | foreignSymbol (byte : UInt8)
  | earlyPadding
  | wrongPadding
deriving DecidableEq, Repr

def quotedChar (c : Char) : List Char :=
  match c with
  | '\x00' => ['\\', '0']
  | '\t' => ['\\', 't']
  | '\n' => ['\\', 'n']
  | '\r' => ['\\', 'r']
  | '"' => ['\\', '"']
  | '\\' => ['\\', '\\']
  | c =>
    if c.toNat < 0x20 || c == '\x7f' then
      "\\u\x7b".toList ++ Nat.toDigits 16 c.toNat ++ ['}']
    else [c]

def quoted (bytes : List UInt8) : String :=
  String.ofList (['"'] ++ (Text.Utf8.decodeLossy bytes).flatMap quotedChar ++ ['"'])

def Fault.message : Fault → String
  | .unended label => "section end " ++ quoted label ++ " missing"
  | .malformedStart line => "illegal section start: " ++ quoted line
  | .foreignSymbol byte => "InvalidCharacter(" ++ Nat.repr byte.toNat ++ ")"
  | .earlyPadding => "PrematurePadding"
  | .wrongPadding => "InvalidTrailingPadding"

def isBlank (byte : UInt8) : Bool := (9 ≤ byte && byte ≤ 13) || byte == 0x20

def isSymbol (byte : UInt8) : Bool :=
  (0x41 ≤ byte && byte ≤ 0x5A) || (0x61 ≤ byte && byte ≤ 0x7A) || (0x30 ≤ byte && byte ≤ 0x39) ||
    byte == 0x2B || byte == 0x2F

/-- Whether a byte pads the last symbols. -/
def isPadding (byte : UInt8) : Bool := byte == 0x3D

def blockLength : Nat := 8

/-- What is wrong with the last block, of which it is known where padding stands. Four symbols may
end in one or two paddings, which may be left out. -/
def lastFault? (block : List Bool) : Option Fault :=
  let group := if block.length > 4 then block.drop 4 else block
  if block.length > 4 && (block.take 4).any id then some .earlyPadding
  else if group ∈ [[], [false, false, false, false], [false, false, false, true],
      [false, false, true, true], [false, false, false], [false, false]] then none
  else some .wrongPadding

/-- What is wrong with encoded bytes. A block that others follow may hold no padding. -/
def fault? (block : List Bool) : List UInt8 → Option Fault
  | [] => lastFault? block
  | byte :: rest =>
    if isBlank byte then fault? block rest
    else if !(isSymbol byte || isPadding byte) then some (.foreignSymbol byte)
    else if block.length < blockLength then fault? (block ++ [isPadding byte]) rest
    else if block.any id then some .earlyPadding
    else fault? [isPadding byte] rest

/-- The lines of a text with what ends them, a line feed or a carriage return. -/
def lines (line : List UInt8) : List UInt8 → List (List UInt8)
  | [] => if line.isEmpty then [] else [line]
  | byte :: rest =>
    if byte == 0x0A || byte == 0x0D then (line ++ [byte]) :: lines [] rest
    else lines (line ++ [byte]) rest

/-- What a line that starts a section begins with. -/
def startMark : List UInt8 := Text.utf8 "-----BEGIN "

/-- What a line that ends a section begins with. -/
def endMark : List UInt8 := Text.utf8 "-----END "

/-- The mark at the end of both lines. -/
def dashes : List UInt8 := Text.utf8 "-----"

def knownLabels : List (List UInt8) :=
  ["CERTIFICATE", "PUBLIC KEY", "RSA PRIVATE KEY", "PRIVATE KEY", "EC PRIVATE KEY", "X509 CRL",
    "CERTIFICATE REQUEST", "ECHCONFIG"].map Text.utf8

/-- The label in a line that starts a section. Five dashes follow it, and blanks may stand between
and after them. -/
def label? (line : List UInt8) : Option (List UInt8) :=
  let isTail (byte : UInt8) : Bool :=
    byte == 0x2D || byte == 0x20 || byte == 0x0A || byte == 0x0D
  let text := line.drop startMark.length
  let head := Text.dropEndWhile isTail text
  let tail := text.drop head.length
  if tail.count 0x2D = dashes.length then some (head ++ tail.takeWhile (· != 0x2D)) else none

/-- What is wrong with the rest of a text, in a section with this label and content or between two
sections. -/
def sectionsFault? (label : Option (List UInt8)) (content : List UInt8) :
    List (List UInt8) → Option Fault
  | [] => label.map .unended
  | line :: rest =>
    if startMark.isPrefixOf line then
      match label? line with
      | some label => sectionsFault? (some label) content rest
      | none => some (.malformedStart line)
    else
      match label with
      | none => sectionsFault? none content rest
      | some name =>
        if !(endMark ++ name ++ dashes).isPrefixOf line then
          sectionsFault? (some name) (content ++ line) rest
        else if knownLabels.contains name then
          (fault? [] content).or (sectionsFault? none [] rest)
        else sectionsFault? none [] rest

def textFault? (text : List UInt8) : Option Fault := sectionsFault? none [] (lines [] text)

end VersionMatrix.Certificate
