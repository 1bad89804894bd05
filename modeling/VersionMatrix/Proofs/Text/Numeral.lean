import VersionMatrix.Text.Numeral
import Mathlib.Algebra.Group.Nat.Defs
import Mathlib.Data.List.TakeWhile

/-! Decimal digits and the numbers they write: a number has one spelling without leading zeros, reading
gives it back, and numerals compare by their lengths first and then character by character. -/
namespace VersionMatrix.Text

variable {c : Char} {digits others rest : List Char} {value n : Nat}

abbrev decimal (digits : List Char) : Nat := Nat.ofDigitChars 10 digits 0

theorem isDigit_iff : c.isDigit = true ↔ '0' ≤ c ∧ c ≤ '9' := by
  simp [Char.isDigit, Char.le_def]

theorem digit?_of_isDigit (isDigit : c.isDigit = true) : digit? c = some (c.toNat - '0'.toNat) :=
  if_pos (isDigit_iff.1 isDigit)

theorem digit?_of_not_isDigit (other : c.isDigit = false) : digit? c = none := by
  refine if_neg fun within => ?_
  rw [isDigit_iff.2 within] at other
  cases other

theorem toNat_le_of_isDigit (isDigit : c.isDigit = true) : 48 ≤ c.toNat ∧ c.toNat ≤ 57 := by
  simp only [Char.isDigit, Bool.and_eq_true, decide_eq_true_eq] at isDigit
  exact ⟨isDigit.1, isDigit.2⟩

theorem decimal_cons :
    decimal (c :: digits) = 10 ^ digits.length * (c.toNat - 48) + decimal digits := by
  rw [decimal, Nat.ofDigitChars_cons, Nat.ofDigitChars_eq_ofDigitChars_zero]
  simp

/-- Numerals in sequence, by the place of their digits. -/
theorem decimal_append :
    decimal (digits ++ others) = 10 ^ others.length * decimal digits + decimal others := by
  rw [decimal, Nat.ofDigitChars_append, Nat.ofDigitChars_eq_ofDigitChars_zero]

/-- A numeral is below the power of ten for its length. -/
theorem decimal_lt (all : ∀ c ∈ digits, c.isDigit = true) : decimal digits < 10 ^ digits.length := by
  induction digits with
  | nil => simp
  | cons c rest ih =>
      obtain ⟨first, all⟩ := List.forall_mem_cons.1 all
      have bound := toNat_le_of_isDigit first
      have below := ih all
      rw [decimal_cons, List.length_cons, Nat.pow_succ]
      have : 10 ^ rest.length * (c.toNat - 48) ≤ 10 ^ rest.length * 9 :=
        Nat.mul_le_mul_left _ (by omega)
      omega

theorem toDigits_of_isDigit (isDigit : c.isDigit = true) : Nat.toDigits 10 (c.toNat - 48) = [c] := by
  have bound := toNat_le_of_isDigit isDigit
  rw [Nat.toDigits_of_lt_base (by omega), List.singleton_inj, ← Char.toNat_inj,
    Nat.toNat_digitChar_of_lt_ten (by omega)]
  omega

/-- Digits that follow a number other than zero go on with its spelling. -/
theorem toDigits_append (all : ∀ c ∈ digits, c.isDigit = true) (positive : 0 < value) :
    Nat.toDigits 10 value ++ digits = Nat.toDigits 10 (Nat.ofDigitChars 10 digits value) := by
  induction digits generalizing value with
  | nil => simp
  | cons c rest ih =>
      obtain ⟨first, all⟩ := List.forall_mem_cons.1 all
      have bound := toNat_le_of_isDigit first
      rw [Nat.ofDigitChars_cons, ← ih all (by omega), show '0'.toNat = 48 from rfl,
        ← Nat.toDigits_append_toDigits (by decide) positive (show c.toNat - 48 < 10 by omega),
        toDigits_of_isDigit first]
      simp

/-- Digits without a leading zero are the spelling of their number. A zero may stand alone. -/
theorem toDigits_decimal (all : ∀ c ∈ digits, c.isDigit = true) (nonempty : digits ≠ [])
    (plain : digits.head? = some '0' → digits.length = 1) :
    Nat.toDigits 10 (decimal digits) = digits := by
  obtain ⟨c, rest, rfl⟩ := List.exists_cons_of_ne_nil nonempty
  obtain ⟨first, all⟩ := List.forall_mem_cons.1 all
  by_cases zero : c = '0'
  · subst zero
    obtain rfl : rest = [] := by simpa using plain rfl
    rfl
  · have positive : 0 < c.toNat - 48 := Nat.sub_pos_of_lt
      (lt_of_le_of_ne (toNat_le_of_isDigit first).1 fun same => zero (Char.toNat_inj.1 same.symm))
    rw [decimal, Nat.ofDigitChars_cons, Nat.mul_zero, Nat.zero_add, show '0'.toNat = 48 from rfl,
      ← toDigits_append all positive, toDigits_of_isDigit first, List.singleton_append]

theorem isDigit_of_mem_toDigits (member : c ∈ Nat.toDigits 10 n) : c.isDigit = true :=
  Nat.isDigit_of_mem_toDigits (by decide) (by decide) member

/-- The spelling of a number has no leading zero, unless the number is zero. -/
theorem plain_toDigits (n : Nat) :
    (Nat.toDigits 10 n).head? = some '0' → (Nat.toDigits 10 n).length = 1 := by
  cases spelled : Nat.toDigits 10 n with
  | nil => nofun
  | cons c rest =>
      intro first
      obtain rfl : c = '0' := Option.some.inj first
      have all : ∀ d ∈ rest, d.isDigit = true := fun d member =>
        isDigit_of_mem_toDigits (n := n) (spelled ▸ List.mem_cons_of_mem _ member)
      have small : n < 10 ^ rest.length := by
        rw [← @Nat.ofDigitChars_ten_toDigits n, spelled, ← decimal, decimal_cons]
        simpa using decimal_lt all
      -- More digits than one would be too many for so small a number.
      by_contra several
      have nonempty : 0 < rest.length := Nat.pos_of_ne_zero (by simpa using several)
      have short := (Nat.length_toDigits_le_iff (by decide) nonempty).2 small
      rw [spelled] at short
      exact absurd short (Nat.not_succ_le_self _)

theorem le_ofDigitChars (digits : List Char) (value : Nat) :
    value ≤ Nat.ofDigitChars 10 digits value := by
  rw [Nat.ofDigitChars_eq_ofDigitChars_zero]
  have : 1 * value ≤ 10 ^ digits.length * value :=
    Nat.mul_le_mul_right _ (Nat.pow_pos (by decide))
  omega

/-- Reading succeeds on digits whose number fits a word, and gives this number. -/
theorem readDigits_eq_ok_iff (fits : value < wordLimit) :
    readDigits value digits = .ok n ↔
      (∀ c ∈ digits, c.isDigit = true) ∧ Nat.ofDigitChars 10 digits value = n ∧ n < wordLimit := by
  induction digits generalizing value with
  | nil =>
      simp only [readDigits, Except.ok.injEq, List.not_mem_nil, false_imp_iff, implies_true, true_and,
        Nat.ofDigitChars_nil]
      exact ⟨fun same => ⟨same, same ▸ fits⟩, fun same => same.1⟩
  | cons c rest ih =>
      rw [readDigits]
      cases isDigit : c.isDigit with
      | false =>
          rw [digit?_of_not_isDigit isDigit]
          simp [isDigit]
      | true =>
          rw [digit?_of_isDigit isDigit, Nat.ofDigitChars_cons]
          simp only [List.forall_mem_cons, isDigit, true_and, Nat.mul_comm 10 value]
          split
          next below => exact ih below
          next above =>
              have grown := le_ofDigitChars rest (value * 10 + (c.toNat - '0'.toNat))
              refine iff_of_false (by simp) fun written => above ?_
              obtain ⟨-, same, small⟩ := written
              omega

/-- Digits are read as their number exactly if it fits a word. -/
theorem toOption_readDigits_eq_some_iff :
    (readDigits 0 digits).toOption = some n ↔
      (∀ c ∈ digits, c.isDigit = true) ∧ decimal digits = n ∧ n < wordLimit := by
  rw [← readDigits_eq_ok_iff (by decide)]
  cases readDigits 0 digits <;> simp [Except.toOption]

/-- The digits of a number that fits a word are read back. -/
theorem readDigits_toDigits (fits : n < wordLimit) : readDigits 0 (Nat.toDigits 10 n) = .ok n :=
  (readDigits_eq_ok_iff (by decide)).2
    ⟨fun _ => isDigit_of_mem_toDigits, Nat.ofDigitChars_ten_toDigits, fits⟩

/-- A text is one or more digits, behind a plus sign or not, and they write this number. -/
def WritesNumber (text : String) (n : Nat) : Prop :=
  ∃ digits : List Char, (text.toList = digits ∨ text.toList = '+' :: digits) ∧ digits ≠ [] ∧
    (∀ c ∈ digits, c.isDigit = true) ∧ decimal digits = n

/-- A numeral is read exactly if it writes a number that fits a word. -/
theorem readNumeral_eq_ok_iff {text : String} :
    readNumeral text = .ok n ↔ WritesNumber text n ∧ n < wordLimit := by
  have signless : ∀ digits : List Char, (∀ c ∈ '+' :: digits, c.isDigit = true) → False :=
    fun digits all => absurd (all '+' List.mem_cons_self) (by decide)
  unfold readNumeral WritesNumber
  split
  next spelled => simp [spelled]
  next spelled =>
      refine iff_of_false nofun ?_
      rintro ⟨⟨digits, same | same, filled, all, -⟩, -⟩
      · exact signless [] (same.symm.trans spelled ▸ all)
      · exact filled (List.cons.inj (same.symm.trans spelled)).2
  next digits several spelled =>
      rw [readDigits_eq_ok_iff (by decide)]
      constructor
      · rintro ⟨all, same, fits⟩
        exact ⟨⟨digits, .inr spelled, several, all, same⟩, fits⟩
      · rintro ⟨⟨other, same | same, filled, all, number⟩, fits⟩
        · exact (signless digits (same.symm.trans spelled ▸ all)).elim
        · obtain rfl := (List.cons.inj (same.symm.trans spelled)).2
          exact ⟨all, number, fits⟩
  next empty single unsigned =>
      rw [readDigits_eq_ok_iff (by decide)]
      constructor
      · rintro ⟨all, same, fits⟩
        exact ⟨⟨_, .inl rfl, empty, all, same⟩, fits⟩
      · rintro ⟨⟨other, rfl | same, filled, all, number⟩, fits⟩
        · exact ⟨all, number, fits⟩
        · exact (unsigned _ same).elim

/-- Of two numerals the longer one is the greater, if it has no leading zero. -/
theorem decimal_lt_of_length_lt (all : ∀ c ∈ digits, c.isDigit = true)
    (all' : ∀ c ∈ others, c.isDigit = true) (plain : others.head? ≠ some '0')
    (longer : digits.length < others.length) : decimal digits < decimal others := by
  cases others with
  | nil => simp at longer
  | cons c rest =>
      have bound := toNat_le_of_isDigit (List.forall_mem_cons.1 all').1
      have first : c.toNat ≠ 48 := fun same => plain (congrArg some (Char.toNat_inj.1 same))
      calc decimal digits < 10 ^ digits.length := decimal_lt all
        _ ≤ 10 ^ rest.length := Nat.pow_le_pow_right (by decide) (Nat.lt_succ_iff.1 longer)
        _ = 10 ^ rest.length * 1 := (Nat.mul_one _).symm
        _ ≤ 10 ^ rest.length * (c.toNat - 48) := Nat.mul_le_mul_left _ (by omega)
        _ ≤ decimal (c :: rest) := by rw [decimal_cons]; exact Nat.le_add_right _ _

/-- Numerals of one length are in the order of their characters. -/
theorem decimal_lt_iff (all : ∀ c ∈ digits, c.isDigit = true) (all' : ∀ c ∈ others, c.isDigit = true)
    (same : digits.length = others.length) : decimal digits < decimal others ↔ digits < others := by
  induction digits generalizing others with
  | nil =>
      obtain rfl := List.length_eq_zero_iff.1 same.symm
      simp
  | cons c rest ih =>
      obtain ⟨d, rest', rfl⟩ := List.exists_cons_of_length_eq_add_one same.symm
      obtain ⟨first, all⟩ := List.forall_mem_cons.1 all
      obtain ⟨first', all'⟩ := List.forall_mem_cons.1 all'
      have lengths : rest.length = rest'.length := Nat.succ.inj same
      have below := decimal_lt all
      have below' := decimal_lt all'
      have bound := toNat_le_of_isDigit first
      have bound' := toNat_le_of_isDigit first'
      rw [List.cons_lt_cons_iff, decimal_cons, decimal_cons, lengths, ← ih all all' lengths, Char.lt_def,
        UInt32.lt_iff_toNat_lt, ← Char.toNat_inj]
      rw [lengths] at below
      rcases Nat.lt_trichotomy c.toNat d.toNat with less | equal | more
      · refine iff_of_true ?_ (.inl less)
        have : 10 ^ rest'.length * (c.toNat - 48 + 1) ≤ 10 ^ rest'.length * (d.toNat - 48) :=
          Nat.mul_le_mul_left _ (by omega)
        rw [Nat.mul_add] at this
        omega
      · rw [equal, Nat.add_lt_add_iff_left]
        exact ⟨fun less => .inr ⟨rfl, less⟩,
          fun ordered => ordered.elim (fun less => absurd less equal.not_lt) (·.2)⟩
      · refine iff_of_false ?_ ?_
        · have : 10 ^ rest'.length * (d.toNat - 48 + 1) ≤ 10 ^ rest'.length * (c.toNat - 48) :=
            Nat.mul_le_mul_left _ (by omega)
          rw [Nat.mul_add] at this
          omega
        · rintro (less | ⟨equal, -⟩)
          · exact absurd less (Nat.not_lt.2 more.le)
          · exact absurd equal more.ne'

end VersionMatrix.Text
