import VersionMatrix.Json.Token
import VersionMatrix.Json.Writer
import VersionMatrix.Proofs.Text.Span

/-! How numbers and strings may be spelled in JSON, and what a spelled string stands for. -/
namespace VersionMatrix.Json

/-- One digit or more. -/
structure AreDigits (chars : List Char) : Prop where
  filled : chars ≠ []
  all : ∀ c ∈ chars, c.isDigit = true

/-- The digits before the point: a zero alone, or digits that do not begin with one. -/
inductive IsWhole : List Char → Prop
  | zero : IsWhole ['0']
  | digits {first : Char} {rest : List Char} (plain : first ≠ '0') (all : AreDigits (first :: rest)) :
      IsWhole (first :: rest)

/-- Nothing, or a point and the digits after it. -/
inductive IsFraction : List Char → Prop
  | nothing : IsFraction []
  | digits {digits : List Char} (all : AreDigits digits) : IsFraction ('.' :: digits)

/-- Nothing, or an exponent with its mark and with or without a sign. -/
inductive IsExponent : List Char → Prop
  | nothing : IsExponent []
  | digits {mark : Char} {sign digits : List Char} (marked : mark = 'e' ∨ mark = 'E')
      (signed : sign = [] ∨ sign = ['+'] ∨ sign = ['-']) (all : AreDigits digits) :
      IsExponent (mark :: (sign ++ digits))

/-- The spelling of a number: a minus sign or none, whole digits, a fraction and an exponent. -/
inductive SpellsNumber : List Char → Prop
  | parts {sign whole fraction exponent : List Char} (signed : sign = [] ∨ sign = ['-'])
      (isWhole : IsWhole whole) (isFraction : IsFraction fraction) (isExponent : IsExponent exponent) :
      SpellsNumber (sign ++ (whole ++ (fraction ++ exponent)))

variable {chars : List Char}

/-- The check for digits does what its name says. -/
theorem isDigits_iff : isDigits chars = true ↔ AreDigits chars := by
  rw [isDigits, Bool.and_eq_true, List.all_eq_true, Bool.not_eq_true', List.isEmpty_eq_false_iff]
  exact ⟨fun ⟨filled, all⟩ => ⟨filled, all⟩, fun digits => ⟨digits.filled, digits.all⟩⟩

/-- The check for an exponent accepts just the spellings of one. -/
theorem isExponent_iff : isExponent chars = true ↔ IsExponent chars := by
  constructor
  · intro recognised
    cases chars with
    | nil => exact .nothing
    | cons mark rest =>
        simp only [isExponent, Bool.and_eq_true, Bool.or_eq_true, beq_iff_eq] at recognised
        obtain ⟨marked, digits⟩ := recognised
        split at digits
        next => exact .digits marked (.inr (.inl rfl)) (isDigits_iff.1 digits)
        next => exact .digits marked (.inr (.inr rfl)) (isDigits_iff.1 digits)
        next => exact .digits marked (.inl rfl) (isDigits_iff.1 digits)
  · rintro (_ | @⟨mark, sign, digits, marked, signed, all⟩)
    · rfl
    · have marked : (mark == 'e' || mark == 'E') = true := by rcases marked with rfl | rfl <;> rfl
      rw [isExponent.eq_def]
      simp only [marked, Bool.true_and]
      rcases signed with rfl | rfl | rfl
      · rw [List.nil_append]
        split
        next => cases all.all '+' List.mem_cons_self
        next => cases all.all '-' List.mem_cons_self
        next => exact isDigits_iff.2 all
      · exact isDigits_iff.2 all
      · exact isDigits_iff.2 all

theorem IsExponent.stopsAt (spelled : IsExponent chars) : Text.StopsAt Char.isDigit chars := by
  cases spelled with
  | nothing => exact Text.stopsAt_nil
  | digits marked signed all => exact Text.stopsAt_cons (by rcases marked with rfl | rfl <;> rfl)

theorem IsFraction.stopsAt {fraction exponent : List Char} (isFraction : IsFraction fraction)
    (isExponent : IsExponent exponent) : Text.StopsAt Char.isDigit (fraction ++ exponent) := by
  cases isFraction with
  | nothing => exact isExponent.stopsAt
  | digits all => exact Text.stopsAt_cons rfl

/-- The check for a fraction accepts just the spellings of one and of the exponent after it. -/
theorem isFraction_iff : isFraction chars = true ↔
    ∃ fraction exponent, chars = fraction ++ exponent ∧ IsFraction fraction ∧ IsExponent exponent := by
  constructor
  · intro recognised
    rw [isFraction.eq_def] at recognised
    split at recognised
    next rest =>
        rw [Bool.and_eq_true, isDigits_iff, isExponent_iff] at recognised
        refine ⟨'.' :: rest.takeWhile Char.isDigit, rest.dropWhile Char.isDigit, ?_, .digits recognised.1,
          recognised.2⟩
        rw [List.cons_append, List.takeWhile_append_dropWhile]
    next => exact ⟨[], chars, rfl, .nothing, isExponent_iff.1 recognised⟩
  · rintro ⟨_, exponent, rfl, _ | @⟨digits, all⟩, isExponent⟩
    · rw [List.nil_append, isFraction.eq_def]
      split
      next =>
          cases isExponent with
          | digits marked => rcases marked with same | same <;> cases same
      next => exact isExponent_iff.2 isExponent
    · rw [List.cons_append, isFraction, isExponent.stopsAt.takeWhile_append all.all,
        isExponent.stopsAt.dropWhile_append all.all, isDigits_iff.2 all, isExponent_iff.2 isExponent]
      rfl

/-- The check for a number without its sign accepts just the spellings of its three parts. -/
theorem isUnsignedNumber_iff : isUnsignedNumber chars = true ↔
    ∃ whole fraction exponent, chars = whole ++ (fraction ++ exponent) ∧ IsWhole whole ∧
      IsFraction fraction ∧ IsExponent exponent := by
  constructor
  · intro recognised
    rw [isUnsignedNumber.eq_def] at recognised
    split at recognised
    next rest =>
        obtain ⟨fraction, exponent, rfl, parts⟩ := isFraction_iff.1 recognised
        exact ⟨['0'], fraction, exponent, rfl, .zero, parts⟩
    next plain =>
        rw [Bool.and_eq_true, isDigits_iff, isFraction_iff] at recognised
        obtain ⟨all, fraction, exponent, same, parts⟩ := recognised
        have split := @List.takeWhile_append_dropWhile _ Char.isDigit chars
        refine ⟨chars.takeWhile Char.isDigit, fraction, exponent, ?_, ?_, parts⟩
        · rw [← same, split]
        · obtain ⟨first, rest, whole⟩ := List.exists_cons_of_ne_nil all.filled
          rw [whole] at all split ⊢
          refine .digits ?_ all
          rintro rfl
          exact plain _ split.symm
  · rintro ⟨_, fraction, exponent, rfl, _ | @⟨first, rest, plain, all⟩, isFraction, isExponent⟩
    · exact isFraction_iff.2 ⟨fraction, exponent, rfl, isFraction, isExponent⟩
    · have stops := isFraction.stopsAt isExponent
      rw [isUnsignedNumber.eq_def]
      split
      next same => exact absurd (List.cons.inj same).1 plain
      next =>
          rw [stops.takeWhile_append all.all, stops.dropWhile_append all.all, isDigits_iff.2 all,
            isFraction_iff.2 ⟨fraction, exponent, rfl, isFraction, isExponent⟩]
          rfl

theorem IsWhole.exists_eq_cons {whole : List Char} (isWhole : IsWhole whole) :
    ∃ first rest, whole = first :: rest ∧ AreDigits (first :: rest) := by
  cases isWhole with
  | zero => exact ⟨'0', [], rfl, nofun, List.forall_mem_singleton.2 rfl⟩
  | digits plain all => exact ⟨_, _, rfl, all⟩

/-- Just what is spelled as a number is recognised as one. -/
theorem isNumber_iff : isNumber chars = true ↔ SpellsNumber chars := by
  constructor
  · intro recognised
    rw [isNumber.eq_def] at recognised
    split at recognised
    next =>
        obtain ⟨whole, fraction, exponent, rfl, parts⟩ := isUnsignedNumber_iff.1 recognised
        exact .parts (.inr rfl) parts.1 parts.2.1 parts.2.2
    next =>
        obtain ⟨whole, fraction, exponent, rfl, parts⟩ := isUnsignedNumber_iff.1 recognised
        exact .parts (.inl rfl) parts.1 parts.2.1 parts.2.2
  · rintro @⟨sign, whole, fraction, exponent, signed, isWhole, isFraction, isExponent⟩
    have unsigned := isUnsignedNumber_iff.2 ⟨whole, fraction, exponent, rfl, isWhole, isFraction, isExponent⟩
    rcases signed with rfl | rfl
    · rw [List.nil_append, isNumber.eq_def]
      split
      next same =>
          obtain ⟨first, rest, rfl, all⟩ := isWhole.exists_eq_cons
          rw [(List.cons.inj same).1] at all
          cases all.all '-' List.mem_cons_self
      next => exact unsigned
    · exact unsigned

/-- What a string is made of: characters, and code units given by their numbers. -/
inductive Symbol where
  | char (c : Char)
  | unit (number : Nat)

def letterEscapes : List (Char × Char) :=
  [('"', '"'), ('\\', '\\'), ('/', '/'), ('b', '\x08'), ('f', '\x0c'), ('n', '\n'), ('r', '\r'),
    ('t', '\t')]

/-- A hexadecimal digit of either case, with its value. -/
def IsHexDigit (c : Char) (value : Nat) : Prop :=
  "0123456789abcdef".toList[value]? = some c ∨ "0123456789ABCDEF".toList[value]? = some c

/-- A character stands for itself, unless it is a quote, a backslash or a control character, or has a
letter that stands for it. A code unit has four hexadecimal digits. -/
inductive Symbol.Spelled : Symbol → List Char → Prop
  | plain {c : Char} (quote : c ≠ '"') (backslash : c ≠ '\\') (printable : 0x20 ≤ c.toNat) :
      Spelled (.char c) [c]
  | letter {letter c : Char} (known : (letter, c) ∈ letterEscapes) : Spelled (.char c) ['\\', letter]
  | unit {first second third fourth : Char} {a b d e : Nat} (isFirst : IsHexDigit first a)
      (isSecond : IsHexDigit second b) (isThird : IsHexDigit third d) (isFourth : IsHexDigit fourth e) :
      Spelled (.unit (((a * 16 + b) * 16 + d) * 16 + e)) ['\\', 'u', first, second, third, fourth]

inductive SpellsSymbols : List Symbol → List Char → Prop
  | nil : SpellsSymbols [] []
  | cons {symbol : Symbol} {symbols : List Symbol} {chars rest : List Char}
      (first : symbol.Spelled chars) (more : SpellsSymbols symbols rest) : SpellsSymbols (symbol :: symbols) (chars ++ rest)

def IsLeading (unit : Nat) : Prop := 0xD800 ≤ unit ∧ unit ≤ 0xDBFF

def IsTrailing (unit : Nat) : Prop := 0xDC00 ≤ unit ∧ unit ≤ 0xDFFF

instance (unit : Nat) : Decidable (IsLeading unit) := inferInstanceAs (Decidable (_ ∧ _))

instance (unit : Nat) : Decidable (IsTrailing unit) := inferInstanceAs (Decidable (_ ∧ _))

def pairOf (leading trailing : Nat) : Char :=
  Char.ofNat (0x10000 + (leading - 0xD800) * 0x400 + (trailing - 0xDC00))

/-- The characters that symbols stand for. Two code units of a pair are one character, and there is none
for a code unit that has lost its partner. -/
def decodeSymbols : List Symbol → Option (List Char)
  | [] => some []
  | .char c :: rest => (decodeSymbols rest).map (c :: ·)
  | .unit unit :: rest =>
    if IsLeading unit then
      match rest with
      | .unit partner :: rest =>
        if IsTrailing partner then (decodeSymbols rest).map (pairOf unit partner :: ·) else none
      | _ => none
    else if IsTrailing unit then none
    else (decodeSymbols rest).map (Char.ofNat unit :: ·)

section

variable {unit partner : Nat} {rest : List Symbol}

/-- Two code units of a pair are one character. -/
theorem decodeSymbols_pair (leading : IsLeading unit) (trailing : IsTrailing partner) :
    decodeSymbols (.unit unit :: .unit partner :: rest) =
      (decodeSymbols rest).map (pairOf unit partner :: ·) := by
  rw [decodeSymbols.eq_def]
  simp only [if_pos leading, if_pos trailing]

/-- The first unit of a pair without its partner is no character. -/
theorem decodeSymbols_lone (leading : IsLeading unit)
    (alone : ∀ partner more, rest = .unit partner :: more → ¬ IsTrailing partner) :
    decodeSymbols (.unit unit :: rest) = none := by
  rw [decodeSymbols.eq_def]
  simp only [if_pos leading]
  split
  next partner more => rw [if_neg (alone partner more rfl)]
  next => rfl

/-- Neither is the second one. -/
theorem decodeSymbols_trailing (leading : ¬ IsLeading unit) (trailing : IsTrailing unit) :
    decodeSymbols (.unit unit :: rest) = none := by
  rw [decodeSymbols.eq_def]
  simp only [if_neg leading, if_pos trailing]

/-- A code unit of no pair is a character. -/
theorem decodeSymbols_unit (leading : ¬ IsLeading unit) (trailing : ¬ IsTrailing unit) :
    decodeSymbols (.unit unit :: rest) = (decodeSymbols rest).map (Char.ofNat unit :: ·) := by
  rw [decodeSymbols.eq_def]
  simp only [if_neg leading, if_neg trailing]

end

/-- A string in quotes: a text, or `none` if a code unit in it has lost its partner. -/
inductive SpellsString : Option String → List Char → Prop
  | quoted {symbols : List Symbol} {chars : List Char} (spelled : SpellsSymbols symbols chars) :
      SpellsString ((decodeSymbols symbols).map String.ofList) ('"' :: (chars ++ ['"']))

theorem isHexDigit_hexDigit {n : Nat} (small : n < 16) : IsHexDigit (hexDigit n) n := by
  have lower : ∀ n < 16, "0123456789abcdef".toList[n]? = some (hexDigit n) := by decide
  exact .inl (lower n small)

/-- A character is written as itself, after a backslash, or as a code unit. -/
theorem exists_spelled_escape (c : Char) :
    ∃ symbol : Symbol, symbol.Spelled (escape c) ∧ ∀ symbols,
      decodeSymbols (symbol :: symbols) = (decodeSymbols symbols).map (c :: ·) := by
  rw [escape.eq_def]
  split
  iterate 7 exact ⟨.char _, .letter (by decide), fun _ => rfl⟩
  next quote backslash _ _ _ _ _ =>
      split
      next control =>
          have zero : IsHexDigit '0' 0 := .inl (by decide)
          refine ⟨_, .unit zero zero (isHexDigit_hexDigit (by omega)) (isHexDigit_hexDigit (by omega)),
            fun symbols => ?_⟩
          rw [show ((0 * 16 + 0) * 16 + c.toNat / 16) * 16 + c.toNat % 16 = c.toNat by omega,
            decodeSymbols_unit (by rw [IsLeading]; omega) (by rw [IsTrailing]; omega), Char.ofNat_toNat]
      next printable => exact ⟨.char c, .plain quote backslash (Nat.not_lt.1 printable), fun _ => rfl⟩

/-- The characters of a text are written as symbols that stand for them. -/
theorem exists_spelled_flatMap_escape (chars : List Char) :
    ∃ symbols, SpellsSymbols symbols (chars.flatMap escape) ∧ decodeSymbols symbols = some chars := by
  induction chars with
  | nil => exact ⟨[], .nil, rfl⟩
  | cons c chars ih =>
      obtain ⟨symbol, spelled, decoded⟩ := exists_spelled_escape c
      obtain ⟨symbols, more, text⟩ := ih
      refine ⟨symbol :: symbols, ?_, ?_⟩
      · rw [List.flatMap_cons]
        exact .cons spelled more
      · rw [decoded, text, Option.map_some]

/-- What is written of a string is one of its spellings. -/
theorem spellsString_quote (text : Option String) : SpellsString text (quote text) := by
  cases text with
  | some text =>
      obtain ⟨symbols, spelled, decoded⟩ := exists_spelled_flatMap_escape text.toList
      have quoted := SpellsString.quoted spelled
      rwa [decoded, Option.map_some, String.ofList_toList] at quoted
  | none =>
      have digit (n : Nat) (small : n < 16) := isHexDigit_hexDigit small
      exact .quoted (.cons (.unit (digit 0xd (by decide)) (digit 8 (by decide)) (digit 0 (by decide))
        (digit 0 (by decide))) .nil)

end VersionMatrix.Json
