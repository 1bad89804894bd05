import VersionMatrix.Proofs.Text.Utf8

/-! Bytes that end in the middle of a character. They are told in two ways: as the start of the bytes
of a character, and by the first bytes that announce more to come. -/
namespace VersionMatrix.Text.Utf8

variable {bytes rest : List UInt8} {b₀ b₁ b₂ b₃ : UInt8} {c : Char}

/-- Bytes that end in the middle of a character: with some more they are the bytes of one. -/
structure Truncated (bytes : List UInt8) : Prop where
  filled : bytes ≠ []
  completable : ∃ c more, more ≠ [] ∧ bytes ++ more = String.utf8EncodeChar c

/-- The bytes of a sequence of several that have arrived before its last one. -/
inductive Opening : List UInt8 → Prop
  | two {b₀ : UInt8} (two : lead b₀ = .two) : Opening [b₀]
  | three {b₀ : UInt8} (three : lead b₀ = .three) : Opening [b₀]
  | threeSecond {b₀ b₁ : UInt8} (three : lead b₀ = .three) (second : isSecond b₀ b₁ = true) :
    Opening [b₀, b₁]
  | four {b₀ : UInt8} (four : lead b₀ = .four) : Opening [b₀]
  | fourSecond {b₀ b₁ : UInt8} (four : lead b₀ = .four) (second : isSecond b₀ b₁ = true) :
    Opening [b₀, b₁]
  | fourThird {b₀ b₁ b₂ : UInt8} (four : lead b₀ = .four) (second : isSecond b₀ b₁ = true)
    (third : isContinuation b₂ = true) : Opening [b₀, b₁, b₂]

/-- The range of each kind of leading byte. -/
theorem lead_range (byte : UInt8) :
    match lead byte with
    | .ascii => byte.toNat < 0x80
    | .two => 0xC2 ≤ byte.toNat ∧ byte.toNat ≤ 0xDF
    | .three => 0xE0 ≤ byte.toNat ∧ byte.toNat ≤ 0xEF
    | .four => 0xF0 ≤ byte.toNat ∧ byte.toNat ≤ 0xF4
    | .invalid => 0x80 ≤ byte.toNat := by
  simp only [lead, UInt8.lt_iff_toNat_lt, UInt8.le_iff_toNat_le, UInt8.reduceToNat]
  split_ifs with ascii two three four
  exacts [ascii, two, three, four, Nat.le_of_not_lt ascii]

theorem isContinuation_iff : isContinuation b₀ = true ↔ 0x80 ≤ b₀.toNat ∧ b₀.toNat ≤ 0xBF := by
  simp [isContinuation, UInt8.le_iff_toNat_le]

/-- The range of a second byte, which the first one narrows down. -/
theorem bounds_of_isSecond (second : isSecond b₀ b₁ = true) :
    0x80 ≤ b₁.toNat ∧ b₁.toNat ≤ 0xBF ∧
      (b₀.toNat = 0xE0 → 0xA0 ≤ b₁.toNat) ∧ (b₀.toNat = 0xED → b₁.toNat ≤ 0x9F) ∧
      (b₀.toNat = 0xF0 → 0x90 ≤ b₁.toNat) ∧ (b₀.toNat = 0xF4 → b₁.toNat ≤ 0x8F) := by
  simp only [isSecond, Bool.and_eq_true, decide_eq_true_eq, UInt8.le_iff_toNat_le, beq_iff_eq,
    apply_ite UInt8.toNat, ← UInt8.toNat_inj, UInt8.reduceToNat] at second
  split_ifs at second <;> omega

/-- Every leading byte can be followed by some second one. -/
theorem exists_isSecond (b₀ : UInt8) : ∃ b₁, isSecond b₀ b₁ = true := by
  by_cases high : b₀ = 0xE0 ∨ b₀ = 0xF0
  · refine ⟨0xBF, ?_⟩
    rcases high with rfl | rfl <;> decide
  · refine ⟨0x80, ?_⟩
    rw [not_or] at high
    simp only [isSecond, beq_iff_eq, high, if_false]
    split_ifs <;> decide

theorem lead_of_isContinuation (continues : isContinuation b₀ = true) : lead b₀ = .invalid := by
  have range := lead_range b₀
  rw [isContinuation_iff] at continues
  cases announced : lead b₀ with
  | invalid => rfl
  | _ =>
      rw [announced] at range
      dsimp only at range
      omega

theorem isSecond_eq_false (fresh : isContinuation b₁ = false) (b₀ : UInt8) :
    isSecond b₀ b₁ = false := by
  rw [Bool.eq_false_iff] at fresh ⊢
  intro second
  have bounds := bounds_of_isSecond second
  exact fresh (isContinuation_iff.2 ⟨bounds.1, bounds.2.1⟩)

theorem toNat_char {n : Nat} (valid : n.isValidChar) : (Char.ofNat n).val.toNat = n :=
  congrArg Char.toNat (dif_pos valid)

theorem ofNat_eq (byte : UInt8) {n : Nat} (same : n = byte.toNat) : UInt8.ofNat n = byte := by
  rw [same, UInt8.ofNat_toNat]

theorem utf8EncodeChar_char₂ (two : lead b₀ = .two) (second : isContinuation b₁ = true) :
    String.utf8EncodeChar (char₂ b₀ b₁) = [b₀, b₁] := by
  have first := lead_range b₀
  rw [two] at first
  rw [isContinuation_iff] at second
  dsimp only at first
  have code : (char₂ b₀ b₁).val.toNat = b₀.toNat % 32 * 64 + b₁.toNat % 64 :=
    toNat_char (by simp only [Nat.isValidChar, payload]; omega)
  simp only [String.utf8EncodeChar, code]
  rw [if_neg (by omega), if_pos (by omega), ofNat_eq b₀ (by omega), ofNat_eq b₁ (by omega)]

/-- Over-long forms and surrogates are kept out by the bounds of the second byte. -/
theorem utf8EncodeChar_char₃ (three : lead b₀ = .three) (second : isSecond b₀ b₁ = true)
    (third : isContinuation b₂ = true) :
    String.utf8EncodeChar (char₃ b₀ b₁ b₂) = [b₀, b₁, b₂] := by
  have first := lead_range b₀
  rw [three] at first
  have bounds := bounds_of_isSecond second
  rw [isContinuation_iff] at third
  dsimp only at first
  have code : (char₃ b₀ b₁ b₂).val.toNat =
      (b₀.toNat % 16 * 64 + b₁.toNat % 64) * 64 + b₂.toNat % 64 :=
    toNat_char (by simp only [Nat.isValidChar, payload]; omega)
  simp only [String.utf8EncodeChar, code]
  rw [if_neg (by omega), if_neg (by omega), if_pos (by omega), ofNat_eq b₀ (by omega),
    ofNat_eq b₁ (by omega), ofNat_eq b₂ (by omega)]

/-- Over-long forms and numbers past the last character are kept out in the same way. -/
theorem utf8EncodeChar_char₄ (four : lead b₀ = .four) (second : isSecond b₀ b₁ = true)
    (third : isContinuation b₂ = true) (fourth : isContinuation b₃ = true) :
    String.utf8EncodeChar (char₄ b₀ b₁ b₂ b₃) = [b₀, b₁, b₂, b₃] := by
  have first := lead_range b₀
  rw [four] at first
  have bounds := bounds_of_isSecond second
  rw [isContinuation_iff] at third fourth
  dsimp only at first
  have code : (char₄ b₀ b₁ b₂ b₃).val.toNat =
      ((b₀.toNat % 8 * 64 + b₁.toNat % 64) * 64 + b₂.toNat % 64) * 64 + b₃.toNat % 64 :=
    toNat_char (by simp only [Nat.isValidChar, payload]; omega)
  simp only [String.utf8EncodeChar, code]
  rw [if_neg (by omega), if_neg (by omega), if_neg (by omega), ofNat_eq b₀ (by omega),
    ofNat_eq b₁ (by omega), ofNat_eq b₂ (by omega), ofNat_eq b₃ (by omega)]

/-- The first byte of a character continues nothing. -/
theorem Encodes.fresh {first : UInt8} (encodes : Encodes (first :: rest) c) :
    isContinuation first = false := by
  have sound := encodes.fault []
  rw [Bool.eq_false_iff]
  intro continues
  simp [fault?, lead_of_isContinuation continues] at sound

namespace Opening

theorem truncated (opening : Opening bytes) : Truncated bytes := by
  have last : isContinuation 0x80 = true := by decide
  cases opening with
  | two two => exact ⟨by simp, _, [0x80], by simp, (utf8EncodeChar_char₂ two last).symm⟩
  | @three b₀ three =>
      obtain ⟨b₁, second⟩ := exists_isSecond b₀
      exact ⟨by simp, _, [b₁, 0x80], by simp, (utf8EncodeChar_char₃ three second last).symm⟩
  | threeSecond three second =>
      exact ⟨by simp, _, [0x80], by simp, (utf8EncodeChar_char₃ three second last).symm⟩
  | @four b₀ four =>
      obtain ⟨b₁, second⟩ := exists_isSecond b₀
      exact ⟨by simp, _, [b₁, 0x80, 0x80], by simp,
        (utf8EncodeChar_char₄ four second last last).symm⟩
  | fourSecond four second =>
      exact ⟨by simp, _, [0x80, 0x80], by simp,
        (utf8EncodeChar_char₄ four second last last).symm⟩
  | fourThird four second third =>
      exact ⟨by simp, _, [0x80], by simp, (utf8EncodeChar_char₄ four second third last).symm⟩

/-- At the end of a text they are one ill-formed part. -/
theorem replaced (opening : Opening bytes) : decodeLossy bytes = [replacement] := by
  cases opening <;> simp [decodeLossy, *]

/-- A byte that continues nothing makes them an ill-formed part. -/
theorem broken (opening : Opening bytes) {next : UInt8} (fresh : isContinuation next = false)
    (rest : List UInt8) : Broken bytes (next :: rest) := by
  have other (b₀ : UInt8) : ¬ isSecond b₀ next = true := by
    rw [isSecond_eq_false fresh b₀]
    decide
  cases opening with
  | two two => exact ⟨by simp, by simp [decodeLossy, two, fresh], by simp [fault?, two, fresh]⟩
  | three three => exact broken_first (.inl three) (other _) rest
  | threeSecond three second =>
      exact ⟨by simp, by simp [decodeLossy, three, second, fresh],
        by simp [fault?, three, second, fresh]⟩
  | four four => exact broken_first (.inr four) (other _) rest
  | fourSecond four second =>
      refine ⟨by simp, fun more => ?_, ?_⟩
      · rw [decodeLossy.eq_def]
        simp [four, second, fresh]
      · rw [fault?.eq_def]
        simp [four, second, fresh]
  | fourThird four second third =>
      exact ⟨by simp, by simp [decodeLossy, four, second, third, fresh],
        by simp [fault?, four, second, third, fresh]⟩

end Opening

/-- What is unfinished opens a character. -/
theorem Unfinished.opening (unfinished : Unfinished bytes) : Opening bytes := by
  obtain ⟨fault, found, start, endless⟩ := unfinished.fault
  -- A fault behind a whole character does not lie at the start.
  have later (count : Nat) (positive : 0 < count) (rest : List UInt8) :
      (fault? rest).map (.after count) ≠ some fault := by
    intro found
    obtain ⟨inner, -, rfl⟩ := Option.map_eq_some_iff.1 found
    simp only [Fault.after] at start
    omega
  revert found
  fun_cases fault? bytes with intro found
  | case1 => cases found
  | case2 | case5 | case8 | case13 => exact absurd found (later _ (by decide) _)
  | case3 | case6 | case9 | case10 | case14 | case15 | case16 =>
      cases found
      cases endless
  | case4 b₀ several possible =>
      cases announced : lead b₀ with
      | ascii => exact absurd announced several
      | two => exact .two announced
      | three => exact .three announced
      | four => exact .four announced
      | invalid => exact absurd announced possible
  | case7 b₀ b₁ three second => exact .threeSecond three second
  | case11 b₀ b₁ four second => exact .fourSecond four second
  | case12 b₀ b₁ four second b₂ third => exact .fourThird four second third

/-- Only no bytes at all decode to nothing. -/
theorem decodeLossy_eq_nil (nothing : decodeLossy bytes = []) : bytes = [] := by
  cases onset bytes with
  | nothing => rfl
  | character part c rest encodes => simp [encodes.decode] at nothing
  | broken part rest broken =>
      have read := broken.decode []
      rw [List.append_nil] at read
      simp [read] at nothing
  | unfinished bytes unfinished => simp [unfinished.opening.replaced] at nothing

namespace Truncated

theorem unfinished (truncated : Truncated bytes) : Unfinished bytes := by
  obtain ⟨c, more, lacking, whole⟩ := truncated.completable
  have read : decodeLossy (bytes ++ more) = [c] := by
    have alone := (encodes_utf8EncodeChar c).decode []
    rwa [List.append_nil, ← whole] at alone
  -- Nothing is read of the bytes alone, or what comes after it would be a second character.
  have single (letter : Char) (rest : List UInt8) :
      decodeLossy (bytes ++ more) ≠ letter :: decodeLossy (rest ++ more) := by
    intro early
    rw [read, List.cons.injEq] at early
    have none := decodeLossy_eq_nil early.2.symm
    exact lacking (List.append_eq_nil_iff.1 none).2
  cases onset bytes with
  | nothing => exact absurd rfl truncated.filled
  | character part letter rest encodes =>
      exact absurd (by rw [List.append_assoc, encodes.decode]) (single letter rest)
  | broken part rest broken =>
      exact absurd (by rw [List.append_assoc, broken.decode]) (single replacement rest)
  | unfinished bytes unfinished => exact unfinished

/-- Three bytes at most are truncated. -/
theorem length_le (truncated : Truncated bytes) : bytes.length ≤ 3 := by
  obtain ⟨c, more, lacking, whole⟩ := truncated.completable
  have size := congrArg List.length whole
  rw [List.length_append, String.length_utf8EncodeChar] at size
  have most := c.utf8Size_le_four
  have positive := List.length_pos_iff.2 lacking
  omega

theorem exists_eq_cons (truncated : Truncated bytes) :
    ∃ first rest, bytes = first :: rest ∧ isContinuation first = false := by
  obtain ⟨first, rest, rfl⟩ := List.exists_cons_of_ne_nil truncated.filled
  obtain ⟨c, more, -, whole⟩ := truncated.completable
  have encodes := encodes_utf8EncodeChar c
  rw [← whole] at encodes
  exact ⟨first, rest, rfl, encodes.fresh⟩

end Truncated

end VersionMatrix.Text.Utf8
