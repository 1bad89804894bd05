/-!
UTF-8: the bytes of a text, and the text of bytes. A strict reading refuses ill-formed bytes; a
lenient one puts U+FFFD in place of every maximal ill-formed part.
-/

namespace VersionMatrix.Text

def utf8 (text : String) : List UInt8 :=
  text.toList.flatMap String.utf8EncodeChar

namespace Utf8

/-- The character that stands for an ill-formed part. -/
def replacement : Char := '\uFFFD'

/-- Whether a byte can only continue a sequence. -/
def isContinuation (byte : UInt8) : Bool := 0x80 ≤ byte && byte ≤ 0xBF

/-- The bytes that may stand second after a lead byte of a sequence of three or four bytes. The
limits keep out over-long forms, surrogates and code points above U+10FFFF. -/
def isSecond (lead byte : UInt8) : Bool :=
  (if lead == 0xE0 then 0xA0 else if lead == 0xF0 then 0x90 else 0x80) ≤ byte &&
    byte ≤ (if lead == 0xED then 0x9F else if lead == 0xF4 then 0x8F else 0xBF)

def payload (byte : UInt8) : Nat := byte.toNat % 64

def char₂ (b₀ b₁ : UInt8) : Char :=
  Char.ofNat (b₀.toNat % 32 * 64 + payload b₁)

def char₃ (b₀ b₁ b₂ : UInt8) : Char :=
  Char.ofNat ((b₀.toNat % 16 * 64 + payload b₁) * 64 + payload b₂)

def char₄ (b₀ b₁ b₂ b₃ : UInt8) : Char :=
  Char.ofNat (((b₀.toNat % 8 * 64 + payload b₁) * 64 + payload b₂) * 64 + payload b₃)

/-- What a lead byte announces. -/
inductive Lead where
  | ascii
  | two
  | three
  | four
  | invalid
deriving DecidableEq, Repr

/-- The length of the sequence a first byte announces. -/
def lead (byte : UInt8) : Lead :=
  if byte < 0x80 then .ascii
  else if 0xC2 ≤ byte ∧ byte ≤ 0xDF then .two
  else if 0xE0 ≤ byte ∧ byte ≤ 0xEF then .three
  else if 0xF0 ≤ byte ∧ byte ≤ 0xF4 then .four
  else .invalid

/-- The lenient reading. An ill-formed part ends before the first byte that cannot continue it, and
is at least one byte long. -/
def decodeLossy : List UInt8 → List Char
  | [] => []
  | b₀ :: rest =>
    match lead b₀, rest with
    | .ascii, rest => Char.ofNat b₀.toNat :: decodeLossy rest
    | .two, b₁ :: rest₁ =>
      if isContinuation b₁ then char₂ b₀ b₁ :: decodeLossy rest₁
      else replacement :: decodeLossy (b₁ :: rest₁)
    | .three, b₁ :: rest₁ =>
      if isSecond b₀ b₁ then
        match rest₁ with
        | [] => [replacement]
        | b₂ :: rest₂ =>
          if isContinuation b₂ then char₃ b₀ b₁ b₂ :: decodeLossy rest₂
          else replacement :: decodeLossy (b₂ :: rest₂)
      else replacement :: decodeLossy (b₁ :: rest₁)
    | .four, b₁ :: rest₁ =>
      if isSecond b₀ b₁ then
        match rest₁ with
        | [] => [replacement]
        | b₂ :: rest₂ =>
          if isContinuation b₂ then
            match rest₂ with
            | [] => [replacement]
            | b₃ :: rest₃ =>
              if isContinuation b₃ then char₄ b₀ b₁ b₂ b₃ :: decodeLossy rest₃
              else replacement :: decodeLossy (b₃ :: rest₃)
          else replacement :: decodeLossy (b₂ :: rest₂)
      else replacement :: decodeLossy (b₁ :: rest₁)
    | _, rest => replacement :: decodeLossy rest

/-- The text of bytes, with U+FFFD for every maximal ill-formed part. -/
def toTextLossy (bytes : List UInt8) : String :=
  String.ofList (decodeLossy bytes)

/-- The text that the bytes encode, or `none` if they encode none. A lenient reading that encodes
back to the same bytes has replaced nothing. -/
def toText? (bytes : List UInt8) : Option String :=
  let text := toTextLossy bytes
  if utf8 text = bytes then some text else none

example : decodeLossy [0x61, 0xFF, 0xE2, 0x82, 0x62] = ['a', replacement, replacement, 'b'] := by
  decide

example : toText? [0xC3, 0xA9] = some "é" := by decide

example : toText? [0xED, 0xA0, 0x80] = none := by decide

end Utf8

end VersionMatrix.Text
