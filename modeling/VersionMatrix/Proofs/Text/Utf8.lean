import VersionMatrix.Text.Utf8.Stream
import Mathlib.Data.List.Basic

/-! Bytes that arrive in frames, read character by character and fault by fault: the text they add up
to does not depend on where the frames are cut. -/
namespace VersionMatrix.Text.Utf8

variable {bytes part rest : List UInt8} {c : Char}

/-- Bytes that are read as one character, whatever follows them. -/
structure Encodes (part : List UInt8) (c : Char) : Prop where
  filled : part ≠ []
  decode : ∀ more, decodeLossy (part ++ more) = c :: decodeLossy more
  fault : ∀ more, fault? (part ++ more) = (fault? more).map (.after part.length)

/-- An ill-formed part of bytes, told by what comes next, whatever follows that. -/
structure Broken (part next : List UInt8) : Prop where
  filled : part ≠ []
  decode : ∀ more, decodeLossy (part ++ (next ++ more)) = replacement :: decodeLossy (next ++ more)
  fault : ∃ fault, fault? (part ++ next) = some fault ∧ fault.validUpTo = 0 ∧
    fault.length? = some part.length

/-- Bytes that end in the middle of a character. -/
structure Unfinished (bytes : List UInt8) : Prop where
  fault : ∃ fault, fault? bytes = some fault ∧ fault.validUpTo = 0 ∧ fault.length? = none

/-- How bytes start: with a character, with an ill-formed part, or with a character that they do not
finish. -/
inductive Onset : List UInt8 → Prop
  | nothing : Onset []
  | character (part : List UInt8) (c : Char) (rest : List UInt8) (encodes : Encodes part c) :
    Onset (part ++ rest)
  | broken (part rest : List UInt8) (broken : Broken part rest) : Onset (part ++ rest)
  | unfinished (bytes : List UInt8) (unfinished : Unfinished bytes) : Onset bytes

/-- A byte that may not stand second ends the part before it. -/
theorem broken_first {b₀ b₁ : UInt8} (long : lead b₀ = .three ∨ lead b₀ = .four)
    (second : ¬ isSecond b₀ b₁ = true) (rest : List UInt8) : Broken [b₀] (b₁ :: rest) where
  filled := by simp
  decode more := by
    rw [List.singleton_append, decodeLossy.eq_def]
    rcases long with three | four <;> simp [*]
  fault := by
    rw [List.singleton_append, fault?.eq_def]
    rcases long with three | four <;> simp [*]

/-- A byte below 128 stands for itself. -/
theorem encodes_one {b₀ : UInt8} (ascii : lead b₀ = .ascii) :
    Encodes [b₀] (Char.ofNat b₀.toNat) where
  filled := by simp
  decode more := by simp [decodeLossy, ascii]
  fault more := by simp [fault?, ascii]

/-- Two bytes in their ranges stand for a character. -/
theorem encodes_two {b₀ b₁ : UInt8} (two : lead b₀ = .two) (second : isContinuation b₁ = true) :
    Encodes [b₀, b₁] (char₂ b₀ b₁) where
  filled := by simp
  decode more := by simp [decodeLossy, two, second]
  fault more := by simp [fault?, two, second]

/-- Three bytes in their ranges stand for a character. -/
theorem encodes_three {b₀ b₁ b₂ : UInt8} (three : lead b₀ = .three)
    (second : isSecond b₀ b₁ = true) (third : isContinuation b₂ = true) :
    Encodes [b₀, b₁, b₂] (char₃ b₀ b₁ b₂) where
  filled := by simp
  decode more := by simp [decodeLossy, three, second, third]
  fault more := by simp [fault?, three, second, third]

/-- Four bytes in their ranges stand for a character. -/
theorem encodes_four {b₀ b₁ b₂ b₃ : UInt8} (four : lead b₀ = .four)
    (second : isSecond b₀ b₁ = true) (third : isContinuation b₂ = true)
    (fourth : isContinuation b₃ = true) : Encodes [b₀, b₁, b₂, b₃] (char₄ b₀ b₁ b₂ b₃) where
  filled := by simp
  decode more := by simp [decodeLossy, four, second, third, fourth]
  fault more := by simp [fault?, four, second, third, fourth]

/-- Bytes start with a character, with something broken or with what is unfinished. -/
theorem onset (bytes : List UInt8) : Onset bytes := by
  fun_cases fault? bytes with
  | case1 => exact .nothing
  | case2 b₀ rest ascii => exact .character [b₀] _ rest (encodes_one ascii)
  | case3 b₀ rest invalid =>
      exact .broken [b₀] rest ⟨by simp, by simp [decodeLossy, invalid], by simp [fault?, invalid]⟩
  | case4 b₀ ascii invalid => exact .unfinished _ ⟨by simp [fault?]⟩
  | case5 b₀ b₁ rest two second => exact .character [b₀, b₁] _ rest (encodes_two two second)
  | case6 b₀ b₁ rest two second =>
      exact .broken [b₀] (b₁ :: rest)
        ⟨by simp, by simp [decodeLossy, two, second], by simp [fault?, two, second]⟩
  | case7 b₀ b₁ three second => exact .unfinished _ ⟨by simp [fault?, three, second]⟩
  | case8 b₀ b₁ three second b₂ rest third =>
      exact .character [b₀, b₁, b₂] _ rest (encodes_three three second third)
  | case9 b₀ b₁ three second b₂ rest third =>
      exact .broken [b₀, b₁] (b₂ :: rest)
        ⟨by simp, by simp [decodeLossy, three, second, third], by simp [fault?, three, second, third]⟩
  | case10 b₀ b₁ rest three second =>
      exact .broken [b₀] (b₁ :: rest) (broken_first (Or.inl three) second rest)
  | case11 b₀ b₁ four second => exact .unfinished _ ⟨by simp [fault?, four, second]⟩
  | case12 b₀ b₁ four second b₂ third =>
      exact .unfinished _ ⟨by simp [fault?, four, second, third]⟩
  | case13 b₀ b₁ four second b₂ third b₃ rest fourth =>
      exact .character [b₀, b₁, b₂, b₃] _ rest (encodes_four four second third fourth)
  | case14 b₀ b₁ four second b₂ third b₃ rest fourth =>
      exact .broken [b₀, b₁, b₂] (b₃ :: rest)
        ⟨by simp, by simp [decodeLossy, four, second, third, fourth],
          by simp [fault?, four, second, third, fourth]⟩
  | case15 b₀ b₁ four second b₂ rest third =>
      refine .broken [b₀, b₁] (b₂ :: rest) ⟨by simp, fun more => ?_, ?_⟩
      · rw [decodeLossy.eq_def]
        simp [four, second, third]
      · rw [fault?.eq_def]
        simp [four, second, third]
  | case16 b₀ b₁ rest four second =>
      exact .broken [b₀] (b₁ :: rest) (broken_first (Or.inr four) second rest)

/-- What holds of bytes that are read part by part. -/
theorem part_induction {motive : List UInt8 → Prop} (nothing : motive [])
    (character : ∀ part c rest, Encodes part c → motive rest → motive (part ++ rest))
    (broken : ∀ part rest, Broken part rest → motive rest → motive (part ++ rest))
    (unfinished : ∀ bytes, Unfinished bytes → motive bytes) (bytes : List UInt8) : motive bytes := by
  induction size : bytes.length using Nat.strongRecOn generalizing bytes with
  | ind length ih =>
      have shorter (part rest : List UInt8) (filled : part ≠ [])
          (whole : (part ++ rest).length = length) : motive rest := by
        refine ih rest.length ?_ rest rfl
        have := List.length_pos_iff.2 filled
        rw [← whole, List.length_append]
        omega
      cases onset bytes with
      | nothing => exact nothing
      | character part c rest encodes =>
          exact character part c rest encodes (shorter part rest encodes.filled size)
      | broken part rest isBroken =>
          exact broken part rest isBroken (shorter part rest isBroken.filled size)
      | unfinished _ isUnfinished => exact unfinished bytes isUnfinished

/-- What is drained goes up to the first fault, and on behind it if bytes are wrong there. -/
theorem drain_eq (bytes : List UInt8) :
    drain bytes =
      match fault? bytes with
      | none => (decodeLossy bytes, [])
      | some fault =>
        let valid := decodeLossy (bytes.take fault.validUpTo)
        let after := bytes.drop fault.validUpTo
        match fault.length? with
        | none => (valid, after)
        | some length =>
          (valid ++ replacement :: (drain (after.drop length)).1, (drain (after.drop length)).2) := by
  rw [drain]
  split
  next none => simp only [none]
  next fault found =>
      simp only [found]
      split
      next none => simp only [none]
      next length known => simp only [known]

@[simp] theorem drain_nil : drain [] = ([], []) := by
  rw [drain_eq]
  rfl

/-- A character that is encoded is drained. -/
theorem drain_of_encodes (encodes : Encodes part c) (rest : List UInt8) :
    drain (part ++ rest) = (c :: (drain rest).1, (drain rest).2) := by
  have valid (count : Nat) : decodeLossy ((part ++ rest).take (part.length + count)) =
      c :: decodeLossy (rest.take count) := by
    rw [List.take_length_add_append, encodes.decode]
  rw [drain_eq, drain_eq rest, encodes.fault]
  cases fault? rest with
  | none => simp [encodes.decode]
  | some fault =>
      simp only [Option.map_some, Fault.after, valid, List.drop_length_add_append]
      cases fault.length? <;> rfl

/-- Broken bytes are drained as one replacement. -/
theorem drain_of_broken (broken : Broken part rest) :
    drain (part ++ rest) = (replacement :: (drain rest).1, (drain rest).2) := by
  obtain ⟨fault, found, start, known⟩ := broken.fault
  rw [drain_eq, found]
  simp [start, known, decodeLossy]

/-- Unfinished bytes are held back. -/
theorem drain_of_unfinished (unfinished : Unfinished bytes) : drain bytes = ([], bytes) := by
  obtain ⟨fault, found, start, known⟩ := unfinished.fault
  rw [drain_eq, found]
  simp [start, known, decodeLossy]

/-- Whatever comes after them, the bytes are read as their text and then the bytes that are left. -/
theorem decodeLossy_append (bytes more : List UInt8) :
    decodeLossy (bytes ++ more) = (drain bytes).1 ++ decodeLossy ((drain bytes).2 ++ more) := by
  induction bytes using part_induction with
  | nothing => simp
  | character part c rest encodes ih =>
      rw [drain_of_encodes encodes, List.append_assoc, encodes.decode, ih, List.cons_append]
  | broken part rest broken ih =>
      rw [drain_of_broken broken, List.append_assoc, broken.decode, ih, List.cons_append]
  | unfinished bytes unfinished => rw [drain_of_unfinished unfinished, List.nil_append]

theorem toNat_ofNat {n : Nat} (byte : n < 256) : (UInt8.ofNat n).toNat = n := by
  rw [UInt8.toNat_ofNat']
  omega

theorem lead_ofNat {n : Nat} (byte : n < 256) :
    lead (UInt8.ofNat n) =
      if n < 0x80 then .ascii
      else if 0xC2 ≤ n ∧ n ≤ 0xDF then .two
      else if 0xE0 ≤ n ∧ n ≤ 0xEF then .three
      else if 0xF0 ≤ n ∧ n ≤ 0xF4 then .four
      else .invalid := by
  simp only [lead, UInt8.lt_iff_toNat_lt, UInt8.le_iff_toNat_le, toNat_ofNat byte]
  rfl

theorem isSecond_ofNat {n m : Nat} (first : n < 256) (small : m < 64)
    (long : n = 0xE0 → 0x20 ≤ m) (scalar : n = 0xED → m < 0x20)
    (longer : n = 0xF0 → 0x10 ≤ m) (within : n = 0xF4 → m < 0x10) :
    isSecond (UInt8.ofNat n) (UInt8.ofNat (m + 128)) = true := by
  have byte (limit : UInt8) : UInt8.ofNat n = limit ↔ n = limit.toNat := by
    rw [← UInt8.toNat_inj, toNat_ofNat first]
  simp only [isSecond, Bool.and_eq_true, decide_eq_true_eq, UInt8.le_iff_toNat_le, beq_iff_eq, byte,
    toNat_ofNat (show m + 128 < 256 by omega), apply_ite UInt8.toNat, UInt8.reduceToNat]
  constructor <;> split_ifs <;> omega

theorem isContinuation_ofNat {n : Nat} (small : n < 64) :
    isContinuation (UInt8.ofNat (n + 128)) = true := by
  simp only [isContinuation, Bool.and_eq_true, decide_eq_true_eq, UInt8.le_iff_toNat_le,
    toNat_ofNat (show n + 128 < 256 by omega), UInt8.reduceToNat]
  omega

theorem payload_ofNat {n : Nat} (small : n < 64) : payload (UInt8.ofNat (n + 128)) = n := by
  rw [payload, toNat_ofNat (by omega)]
  omega

/-- No character is encoded over-long, and none is a surrogate or too large. -/
theorem encodes_utf8EncodeChar (c : Char) : Encodes (String.utf8EncodeChar c) c := by
  have valid : c.val.toNat < 0xD800 ∨ 0xDFFF < c.val.toNat ∧ c.val.toNat < 0x110000 := c.valid
  have back (n : Nat) (same : n = c.val.toNat) : Char.ofNat n = c := by
    rw [same]
    exact Char.ofNat_toNat c
  have low : c.val.toNat % 64 < 64 := by omega
  have middle : c.val.toNat / 64 % 64 < 64 := by omega
  have high : c.val.toNat / 4096 % 64 < 64 := by omega
  unfold String.utf8EncodeChar
  dsimp only
  generalize c.val.toNat = v at *
  split_ifs with one two three
  · have start : lead (UInt8.ofNat v) = .ascii := by
      rw [lead_ofNat (by omega), if_pos (by omega)]
    convert encodes_one start using 1
    exact (back _ (toNat_ofNat (by omega))).symm
  · have first : v / 64 % 32 + 192 < 256 := by omega
    have start : lead (UInt8.ofNat (v / 64 % 32 + 192)) = .two := by
      rw [lead_ofNat first, if_neg (by omega), if_pos (by omega)]
    convert encodes_two start (isContinuation_ofNat low) using 1
    rw [char₂, toNat_ofNat first, payload_ofNat low, back _ (by omega)]
  · have first : v / 4096 % 16 + 224 < 256 := by omega
    have start : lead (UInt8.ofNat (v / 4096 % 16 + 224)) = .three := by
      rw [lead_ofNat first, if_neg (by omega), if_neg (by omega), if_pos (by omega)]
    have second := isSecond_ofNat first middle (by omega) (by omega) (by omega) (by omega)
    convert encodes_three start second (isContinuation_ofNat low) using 1
    rw [char₃, toNat_ofNat first, payload_ofNat middle, payload_ofNat low, back _ (by omega)]
  · have first : v / 262144 % 8 + 240 < 256 := by omega
    have start : lead (UInt8.ofNat (v / 262144 % 8 + 240)) = .four := by
      rw [lead_ofNat first, if_neg (by omega), if_neg (by omega), if_neg (by omega),
        if_pos (by omega)]
    have second := isSecond_ofNat first high (by omega) (by omega) (by omega) (by omega)
    convert encodes_four start second (isContinuation_ofNat middle) (isContinuation_ofNat low)
      using 1
    rw [char₄, toNat_ofNat first, payload_ofNat high, payload_ofNat middle, payload_ofNat low,
      back _ (by omega)]

/-- The bytes of a text are read back as the text. -/
theorem decodeLossy_utf8 (text : String) : decodeLossy (utf8 text) = text.toList := by
  have read (letters : List Char) :
      decodeLossy (letters.flatMap String.utf8EncodeChar) = letters := by
    induction letters with
    | nil => rfl
    | cons letter letters ih =>
        rw [List.flatMap_cons, (encodes_utf8EncodeChar letter).decode, ih]
  exact read text.toList

/-- The bytes of a text are decoded to that text. -/
theorem toTextLossy_utf8 (text : String) : toTextLossy (utf8 text) = text := by
  rw [toTextLossy, decodeLossy_utf8, String.ofList_toList]

namespace Stream

/-- Takes frames one after the other, and gives the text of each. -/
def pushAll (stream : Stream) : List (List UInt8) → Stream × List (List Char)
  | [] => (stream, [])
  | frame :: frames =>
    let (next, text) := stream.push frame
    let (last, texts) := next.pushAll frames
    (last, text :: texts)

/-- The text of a whole stream: what its frames give, and what is left at its end. -/
def textOf (frames : List (List UInt8)) : String :=
  let (last, texts) := pushAll {} frames
  String.ofList (texts.flatten ++ last.finish)

/-- What a frame gives and what is held back after it read like the bytes up to its end. -/
theorem decodeLossy_push (stream : Stream) (frame more : List UInt8) :
    decodeLossy (stream.pending ++ (frame ++ more)) =
      (stream.push frame).2 ++ decodeLossy ((stream.push frame).1.pending ++ more) := by
  rw [← List.append_assoc]
  exact decodeLossy_append (stream.pending ++ frame) more

/-- A stream's pieces and its end make up the decoding of all bytes. -/
theorem decodeLossy_pushAll (stream : Stream) (frames : List (List UInt8)) :
    decodeLossy (stream.pending ++ frames.flatten) =
      (stream.pushAll frames).2.flatten ++ (stream.pushAll frames).1.finish := by
  induction frames generalizing stream with
  | nil => simp [pushAll, finish]
  | cons frame frames ih =>
      rw [List.flatten_cons, decodeLossy_push, ih]
      simp only [pushAll, List.flatten_cons, List.append_assoc]

/-- The text of frames is that of their bytes, wherever they are cut. -/
theorem textOf_eq (frames : List (List UInt8)) : textOf frames = toTextLossy frames.flatten :=
  congrArg String.ofList (decodeLossy_pushAll {} frames).symm

/-- Cutting bytes into frames does not change their text: it is that of the bytes as a whole, with
the same replacements in the same places, and the bytes of a text give that text. -/
theorem framing_keeps_text (frames : List (List UInt8)) :
    textOf frames = toTextLossy frames.flatten ∧
      (∀ others, others.flatten = frames.flatten → textOf others = textOf frames) ∧
      ∀ text, frames.flatten = utf8 text → textOf frames = text := by
  refine ⟨textOf_eq frames, fun others same => ?_, fun text encoded => ?_⟩
  · rw [textOf_eq, textOf_eq, same]
  · rw [textOf_eq, encoded, toTextLossy_utf8]

example : textOf [[0x63, 0xC3], [], [0xA9, 0xE2, 0x82], [0xFF]] = "cé\uFFFD\uFFFD" := by cbv

end Stream

end VersionMatrix.Text.Utf8
