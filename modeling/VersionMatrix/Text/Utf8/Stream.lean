import VersionMatrix.Text.Utf8.Basic

/-!
Text from bytes that arrive in frames. The frames may be cut anywhere, so the bytes of a character
that is not complete yet are held back until the next frame.
-/

namespace VersionMatrix.Text.Utf8

/-- Where a strict reading of bytes stops: after how many well-formed bytes, and how long the ill-formed
part there is. It has no length where the bytes end in the middle of a character. -/
structure Fault where
  validUpTo : Nat
  length? : Option Nat
  proper : length? ≠ some 0 := by decide
deriving DecidableEq, Repr

/-- A fault of bytes that stand after so many well-formed ones. -/
def Fault.after (count : Nat) (fault : Fault) : Fault :=
  { fault with validUpTo := count + fault.validUpTo }

/-- The first fault of bytes. There is none if they encode a text. -/
def fault? : List UInt8 → Option Fault
  | [] => none
  | b₀ :: rest =>
    match lead b₀, rest with
    | .ascii, rest => (fault? rest).map (.after 1)
    | .invalid, _ => some { validUpTo := 0, length? := some 1 }
    | _, [] => some { validUpTo := 0, length? := none }
    | .two, b₁ :: rest₁ =>
      if isContinuation b₁ then (fault? rest₁).map (.after 2)
      else some { validUpTo := 0, length? := some 1 }
    | .three, b₁ :: rest₁ =>
      if isSecond b₀ b₁ then
        match rest₁ with
        | [] => some { validUpTo := 0, length? := none }
        | b₂ :: rest₂ =>
          if isContinuation b₂ then (fault? rest₂).map (.after 3)
          else some { validUpTo := 0, length? := some 2 }
      else some { validUpTo := 0, length? := some 1 }
    | .four, b₁ :: rest₁ =>
      if isSecond b₀ b₁ then
        match rest₁ with
        | [] => some { validUpTo := 0, length? := none }
        | b₂ :: rest₂ =>
          if isContinuation b₂ then
            match rest₂ with
            | [] => some { validUpTo := 0, length? := none }
            | b₃ :: rest₃ =>
              if isContinuation b₃ then (fault? rest₃).map (.after 4)
              else some { validUpTo := 0, length? := some 3 }
          else some { validUpTo := 0, length? := some 2 }
      else some { validUpTo := 0, length? := some 1 }

example : fault? [0x61, 0xE2, 0x82, 0x62] = some { validUpTo := 1, length? := some 2 } := by decide

/-- Reads bytes up to where they end in the middle of a character: the text, and the bytes that are left.
Every round of the reading ends behind a fault. -/
def drain (bytes : List UInt8) : List Char × List UInt8 :=
  match _ : fault? bytes with
  | none => (decodeLossy bytes, [])
  | some fault =>
    let valid := decodeLossy (bytes.take fault.validUpTo)
    let after := bytes.drop fault.validUpTo
    match _ : fault.length? with
    | none => (valid, after)
    | some length =>
      let (text, held) := drain (after.drop length)
      (valid ++ replacement :: text, held)
termination_by bytes.length
decreasing_by
  have found : fault? bytes = some fault := ‹_›
  have known : fault.length? = some length := ‹_›
  have filled : bytes ≠ [] := by
    rintro rfl
    cases found
  have positive : length ≠ 0 := by
    rintro rfl
    exact fault.proper known
  have := List.length_pos_iff.2 filled
  simp only [List.length_drop]
  omega

/-- A reader of one byte stream, with the bytes it holds back. -/
structure Stream where
  pending : List UInt8 := []
deriving DecidableEq, Repr

namespace Stream

/-- Takes a frame, and gives the characters that are complete with it. -/
def push (stream : Stream) (frame : List UInt8) : Stream × List Char :=
  let (text, held) := drain (stream.pending ++ frame)
  ({ pending := held }, text)

/-- The text of what is still held back when the stream has ended. -/
def finish (stream : Stream) : List Char := decodeLossy stream.pending

example : (push {} [0x63, 0xC3]).2 = ['c'] := by cbv

example : ((push {} [0x63, 0xC3]).1.push [0xA9, 0x0A]).2 = ['é', '\n'] := by cbv

end Stream

end VersionMatrix.Text.Utf8
