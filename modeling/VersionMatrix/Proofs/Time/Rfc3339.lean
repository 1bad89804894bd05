import VersionMatrix.Time.Rfc3339
import VersionMatrix.Proofs.Text.Numeral
import VersionMatrix.Proofs.Text.Span
import VersionMatrix.Proofs.Time.Calendar
import Mathlib.Data.List.Basic
import Mathlib.Tactic.Linarith

/-! Instants in text. An instant has a spelling for every offset and with any number of digits in its
fraction. Each is read as the instant, and what is written of an instant is one of them. -/
namespace VersionMatrix.Instant

/-- A point in time whose year is one that dates may have. A leap second follows the last second of a
minute only, as every leap second does that is read. -/
structure IsValid (instant : Instant) : Prop where
  inYears : yearInRange (Date.ofDays (instant.seconds / secondsPerDay)).year = true
  nanoseconds : instant.nanoseconds < 1000000000 ∨
    instant.nanoseconds < 2000000000 ∧ instant.seconds % 60 = 59

/-- The fraction of a second in a text, cut off below the nanosecond. -/
inductive Fraction : List Char → Nat → Prop
  | none : Fraction [] 0
  | digits {digits : List Char} (nonempty : digits ≠ []) (all : ∀ c ∈ digits, c.isDigit = true) :
      Fraction ('.' :: digits) (Text.decimal digits * 1000000000 / 10 ^ digits.length)

/-- The seconds that local time is ahead of UTC in a text. -/
inductive Offset : List Char → Int → Prop
  | utc {mark : Char} (spelled : mark = 'Z' ∨ mark = 'z') : Offset [mark] 0
  | ahead {hours minutes : Nat} (hour : hours < 24) (minute : minutes < 60) :
      Offset ('+' :: (padded 2 hours ++ ':' :: padded 2 minutes)) (hours * 3600 + minutes * 60 : Nat)
  | behind {hours minutes : Nat} (hour : hours < 24) (minute : minutes < 60) :
      Offset ('-' :: (padded 2 hours ++ ':' :: padded 2 minutes)) (-(hours * 3600 + minutes * 60 : Nat))

/-- An instant as local time with an offset. -/
structure Spelling where
  date : Date
  separator : Char
  hour : Nat
  minute : Nat
  second : Nat
  fraction : List Char
  nanoseconds : Nat
  zone : List Char
  offset : Int

namespace Spelling

/-- The sixtieth second of a minute is a leap second. -/
structure IsValid (spelling : Spelling) : Prop where
  date : spelling.date.isValid = true
  separator : spelling.separator ∈ ['T', 't', ' ']
  hour : spelling.hour < 24
  minute : spelling.minute < 60
  second : spelling.second ≤ 60
  fraction : Fraction spelling.fraction spelling.nanoseconds
  offset : Offset spelling.zone spelling.offset

def text (spelling : Spelling) : String :=
  String.ofList <|
    yearText spelling.date.year ++ '-' :: (padded 2 spelling.date.month ++ '-' ::
      (padded 2 spelling.date.day ++ spelling.separator :: (padded 2 spelling.hour ++ ':' ::
        (padded 2 spelling.minute ++ ':' :: (padded 2 spelling.second ++
          (spelling.fraction ++ spelling.zone))))))

def instant (spelling : Spelling) : Instant where
  seconds := spelling.date.toDays * secondsPerDay +
    (spelling.hour * 3600 + spelling.minute * 60 + min spelling.second 59 : Nat) - spelling.offset
  nanoseconds := spelling.nanoseconds + if spelling.second = 60 then 1000000000 else 0

end Spelling

variable {c mark : Char} {digits rest text zone : List Char} {width least greatest n hours minutes : Nat}
  {year offset : Int}

theorem isBlankChar_of_isDigit (isDigit : c.isDigit = true) : Text.isBlankChar c = false := by
  have bound := Text.toNat_le_of_isDigit isDigit
  simp [Text.isBlankChar]
  omega

theorem digitsValue_eq (digits : List Char) : digitsValue digits = Text.decimal digits := by
  rw [digitsValue, Text.decimal, Nat.ofDigitChars_eq_foldl]
  simp only [Nat.mul_comm 10]

theorem isDigit_of_mem_padded (width n : Nat) : ∀ c ∈ padded width n, c.isDigit = true := by
  intro c member
  rcases List.mem_append.1 member with zero | digit
  · rw [List.eq_of_mem_replicate zero]
    rfl
  · exact Text.isDigit_of_mem_toDigits digit

/-- A padded number is as wide as it is meant to be. -/
theorem length_padded (positive : 0 < width) (lt : n < 10 ^ width) : (padded width n).length = width := by
  have short := (Nat.length_toDigits_le_iff (by decide) positive).2 lt
  rw [padded, List.length_append, List.length_replicate, Nat.sub_add_cancel short]

theorem padded_ne_nil (width n : Nat) : padded width n ≠ [] := by
  simp [padded, Nat.toDigits_ne_nil]

/-- Padding does not change a number. -/
@[simp]
theorem decimal_padded : Text.decimal (padded width n) = n := by
  rw [Text.decimal, padded, Nat.ofDigitChars_append, Nat.ofDigitChars_replicate_zero, Nat.mul_zero,
    Nat.ofDigitChars_ten_toDigits]

theorem skipBlank_cons (visible : Text.isBlankChar c = false) : skipBlank (c :: rest) = c :: rest := by
  rw [skipBlank, List.dropWhile_cons_of_neg (by simp [visible])]

/-- Digits in front are not skipped. -/
theorem skipBlank_append (nonempty : digits ≠ []) (all : ∀ c ∈ digits, c.isDigit = true) :
    skipBlank (digits ++ rest) = digits ++ rest := by
  obtain ⟨c, digits, rfl⟩ := List.exists_cons_of_ne_nil nonempty
  exact skipBlank_cons (isBlankChar_of_isDigit (List.forall_mem_cons.1 all).1)

theorem skipBlank_padded : skipBlank (padded width n ++ rest) = padded width n ++ rest :=
  skipBlank_append (padded_ne_nil width n) (isDigit_of_mem_padded width n)

/-- As many digits are read as the width allows, whatever follows. -/
theorem number?_append (rest : List Char) (nonempty : digits ≠ [])
    (all : ∀ c ∈ digits, c.isDigit = true) :
    number? (some digits.length) (digits ++ rest) = some (Text.decimal digits, rest) := by
  rw [number?, List.takeWhile_append_of_pos all]
  simp [nonempty, digitsValue_eq]

/-- Without a width, digits are read up to another character. -/
theorem number?_none_append (nonempty : digits ≠ []) (all : ∀ c ∈ digits, c.isDigit = true)
    (stops : Text.StopsAt Char.isDigit rest) :
    number? none (digits ++ rest) = some (Text.decimal digits, rest) := by
  rw [number?, stops.takeWhile_append all]
  simp [nonempty, digitsValue_eq]

/-- A padded number is read back. -/
theorem number?_padded (positive : 0 < width) (lt : n < 10 ^ width) :
    number? (some width) (padded width n ++ rest) = some (n, rest) := by
  have read := number?_append rest (padded_ne_nil width n) (isDigit_of_mem_padded width n)
  rwa [length_padded positive lt, decimal_padded] at read

/-- A part of two digits is read back if it is within its bounds. -/
theorem part?_padded (atLeast : least ≤ n) (atMost : n ≤ greatest) (lt : n < 100) :
    part? least greatest (padded 2 n ++ rest) = some (n, rest) := by
  rw [part?, skipBlank_padded, number?_padded (by decide) lt]
  exact if_pos ⟨atLeast, atMost⟩

theorem afterMark?_cons (visible : Text.isBlankChar mark = false) :
    afterMark? mark (mark :: rest) = some rest := by
  rw [afterMark?, skipBlank_cons visible]
  exact if_pos rfl

theorem exists_padded_eq_cons (width n : Nat) :
    ∃ c rest, padded width n = c :: rest ∧ c.isDigit = true := by
  obtain ⟨c, rest, spelled⟩ := List.exists_cons_of_ne_nil (padded_ne_nil width n)
  exact ⟨c, rest, spelled, isDigit_of_mem_padded width n c (spelled ▸ List.mem_cons_self)⟩

/-- A year is read up to the mark after it. -/
theorem year?_yearText (year : Int) : year? (yearText year ++ '-' :: rest) = some (year, '-' :: rest) := by
  have signed : number? none (padded 4 year.natAbs ++ '-' :: rest) = some (year.natAbs, '-' :: rest) := by
    rw [number?_none_append (padded_ne_nil 4 _) (isDigit_of_mem_padded 4 _) (Text.stopsAt_cons rfl),
      decimal_padded]
  rw [yearText]
  split
  next within =>
      have read : number? (some 4) (padded 4 year.toNat ++ '-' :: rest) = some (year.toNat, '-' :: rest) :=
        number?_padded (by decide) (by omega)
      obtain ⟨c, digits, spelled, first⟩ := exists_padded_eq_cons 4 year.toNat
      rw [year?.eq_def, skipBlank_padded, spelled, List.cons_append]
      split
      next same => cases List.cons.inj same |>.1 ▸ first
      next same => cases List.cons.inj same |>.1 ▸ first
      next =>
          rw [← List.cons_append, ← spelled, read]
          simp [within.1]
  next outside =>
      rcases Int.lt_or_le year 0 with negative | positive
      · rw [if_pos negative, List.cons_append, year?.eq_def, skipBlank_cons rfl]
        simp only [signed, Option.map_some]
        rw [Int.ofNat_natAbs_of_nonpos negative.le, Int.neg_neg]
      · rw [if_neg (Int.not_lt.2 positive), List.cons_append, year?.eq_def, skipBlank_cons rfl]
        simp only [signed, Option.map_some]
        rw [Int.natAbs_of_nonneg positive]

/-- Nine digits of a fraction are its nanoseconds. The digits that follow count for less than one. -/
theorem nanoseconds_eq (all : ∀ c ∈ digits, c.isDigit = true) :
    Text.decimal (digits.take 9) * 10 ^ (9 - (digits.take 9).length) =
      Text.decimal digits * 1000000000 / 10 ^ digits.length := by
  rcases Nat.le_total digits.length 9 with short | long
  · rw [List.take_of_length_le short, show 1000000000 = 10 ^ (9 - digits.length) * 10 ^ digits.length by
        rw [← Nat.pow_add, Nat.sub_add_cancel short], ← Nat.mul_assoc,
      Nat.mul_div_cancel _ (Nat.pow_pos (by decide))]
  · have below := Text.decimal_lt fun c member => all c (List.mem_of_mem_drop (i := 9) member)
    have nine : (digits.take 9).length = 9 := List.length_take_of_le long
    rw [← List.take_append_drop 9 digits, List.take_left' nine, List.length_append, nine, Nat.pow_add,
      Text.decimal_append, Nat.mul_comm (10 ^ 9), Nat.mul_div_mul_right _ _ (by decide),
      Nat.mul_add_div (Nat.pow_pos (by decide)), Nat.div_eq_of_lt below]
    simp

/-- A fraction is read up to the offset after it. -/
theorem fraction?_append (spelled : Fraction text n) (digit : Text.StopsAt Char.isDigit rest)
    (point : rest.head? ≠ some '.') : fraction? (text ++ rest) = some (n, rest) := by
  cases spelled with
  | none =>
      rw [List.nil_append, fraction?.eq_def]
      split
      next => exact absurd rfl point
      next => rfl
  | digits nonempty all =>
      rw [List.cons_append, fraction?]
      simp only [digit.takeWhile_append all, digit.dropWhile_append all, digitsValue_eq, Nat.pow_eq,
        nanoseconds_eq all]
      exact if_neg (by simp [nonempty])

theorem exists_padded_eq_pair (lt : n < 100) :
    ∃ c d, padded 2 n = [c, d] ∧ c.isDigit = true ∧ d.isDigit = true := by
  have two : (padded 2 n).length = 2 := length_padded (by decide) lt
  obtain ⟨c, d, spelled⟩ := List.length_eq_two.1 two
  have all := isDigit_of_mem_padded 2 n
  rw [spelled] at all
  exact ⟨c, d, spelled, by simp_all⟩

/-- The hours and minutes of an offset are read back. -/
theorem offsetParts?_padded (hour : hours < 24) (minute : minutes < 60) :
    offsetParts? (padded 2 hours ++ ':' :: padded 2 minutes) =
      some (((hours * 3600 + minutes * 60 : Nat) : Int), []) := by
  obtain ⟨h₁, h₂, hourText, digit₁, digit₂⟩ := exists_padded_eq_pair (show hours < 100 by omega)
  obtain ⟨m₁, m₂, minuteText, digit₃, digit₄⟩ := exists_padded_eq_pair (show minutes < 100 by omega)
  have hourValue := @decimal_padded 2 hours
  have minuteValue := @decimal_padded 2 minutes
  rw [hourText] at hourValue ⊢
  rw [minuteText] at minuteValue ⊢
  have skipped : ([':', m₁, m₂].dropWhile fun c => c == ':' || Text.isBlankChar c) = [m₁, m₂] := by
    have colon : (m₁ == ':') = false := beq_eq_false_iff_ne.2 fun same => by cases same ▸ digit₃
    rw [List.dropWhile_cons_of_pos rfl, List.dropWhile_cons_of_neg]
    simp [colon, isBlankChar_of_isDigit digit₃]
  rw [offsetParts?]
  simp [digit₁, digit₂, digit₃, digit₄, digitsValue_eq, skipped, hourValue, minuteValue, minute]

/-- An offset is read to its end. -/
theorem offset?_eq (spelled : Offset zone offset) : offset? zone = some (offset, []) := by
  cases spelled with
  | utc spelled => rcases spelled with rfl | rfl <;> rfl
  | ahead hour minute =>
      rw [offset?.eq_def]
      simp [offsetParts?_padded hour minute]
  | behind hour minute =>
      rw [offset?.eq_def]
      simp [offsetParts?_padded hour minute]

/-- An offset begins with none of the characters that may precede it. -/
theorem Offset.exists_eq_cons (spelled : Offset zone offset) :
    ∃ c rest, zone = c :: rest ∧ c.isDigit = false ∧ c ≠ '.' ∧ Text.isBlankChar c = false := by
  cases spelled with
  | utc spelled => exact ⟨_, [], rfl, by rcases spelled with rfl | rfl <;> decide⟩
  | ahead => exact ⟨'+', _, rfl, by decide⟩
  | behind => exact ⟨'-', _, rfl, by decide⟩

/-- An offset is less than a day. -/
theorem Offset.natAbs_lt (spelled : Offset zone offset) : offset.natAbs < 86400 := by
  cases spelled <;> omega

def separated? : List Char → Option (List Char)
  | 'T' :: rest | 't' :: rest | ' ' :: rest => some rest
  | _ => none

/-- The instant of the parts that are read of a text, and what the text has left. -/
def assemble? (date : Date) (hour minute second nanoseconds : Nat) (offset : Int) (rest : List Char) :
    Option Instant :=
  let seconds := date.toDays * secondsPerDay + (hour * 3600 + minute * 60 + min second 59 : Nat) - offset
  if !rest.all Text.isBlankChar || !date.isValid || !yearInRange date.year || offset.natAbs ≥ 86400 then
    none
  else if !yearInRange (Date.ofDays (seconds / secondsPerDay)).year then none
  else some { seconds, nanoseconds := nanoseconds + if second = 60 then 1000000000 else 0 }

/-- A time is read part by part. -/
theorem read?_eq (text : String) : read? text = (do
    let (year, rest) ← year? text.toList
    let (month, rest) ← part? 1 12 (← afterMark? '-' rest)
    let (day, rest) ← part? 1 31 (← afterMark? '-' rest)
    let (hour, rest) ← part? 0 23 (← separated? rest)
    let (minute, rest) ← part? 0 59 (← afterMark? ':' rest)
    let (second, rest) ← part? 0 60 (← afterMark? ':' rest)
    let (nanoseconds, rest) ← fraction? rest
    let (offset, rest) ← offset? (skipBlank rest)
    assemble? { year, month, day } hour minute second nanoseconds offset rest) := by
  refine bind_congr fun (year, rest) => bind_congr fun rest => bind_congr fun (month, rest) =>
    bind_congr fun rest => bind_congr fun (day, rest) => ?_
  dsimp only
  split
  next => rfl
  next => rfl
  next => rfl
  next upper lower space =>
      rw [separated?]
      · rfl
      · exact upper
      · exact lower
      · exact space

namespace Spelling

variable {spelling : Spelling}

/-- A spelling is read as its instant, if both its local date and the one in UTC are in years that dates
may have. -/
theorem read?_text (valid : spelling.IsValid) (inYears : yearInRange spelling.date.year = true)
    (inYears' : yearInRange (Date.ofDays (spelling.instant.seconds / secondsPerDay)).year = true) :
    read? spelling.text = some spelling.instant := by
  obtain ⟨dates, separators, hours, minutes, seconds, fractions, offsets⟩ := valid
  obtain ⟨⟨positive, atMost⟩, positive', atMost'⟩ := Date.isValid_iff.1 dates
  have atMost' := Nat.le_trans atMost' (Date.daysInMonth_le _ _)
  have dash (rest : List Char) : afterMark? '-' ('-' :: rest) = some rest := afterMark?_cons rfl
  have colon (rest : List Char) : afterMark? ':' (':' :: rest) = some rest := afterMark?_cons rfl
  have month (rest : List Char) : part? 1 12 (padded 2 spelling.date.month ++ rest) = some (_, rest) :=
    part?_padded positive atMost (by omega)
  have day (rest : List Char) : part? 1 31 (padded 2 spelling.date.day ++ rest) = some (_, rest) :=
    part?_padded positive' atMost' (by omega)
  have separator (rest : List Char) : separated? (spelling.separator :: rest) = some rest := by
    simp only [List.mem_cons, List.not_mem_nil, or_false] at separators
    rcases separators with known | known | known <;> rw [known] <;> rfl
  have hour (rest : List Char) : part? 0 23 (padded 2 spelling.hour ++ rest) = some (_, rest) :=
    part?_padded (Nat.zero_le _) (by omega) (by omega)
  have minute (rest : List Char) : part? 0 59 (padded 2 spelling.minute ++ rest) = some (_, rest) :=
    part?_padded (Nat.zero_le _) (by omega) (by omega)
  have second (rest : List Char) : part? 0 60 (padded 2 spelling.second ++ rest) = some (_, rest) :=
    part?_padded (Nat.zero_le _) seconds (by omega)
  obtain ⟨c, rest, zone, digit, point, visible⟩ := offsets.exists_eq_cons
  have fraction : fraction? (spelling.fraction ++ spelling.zone) =
      some (spelling.nanoseconds, spelling.zone) := by
    rw [zone]
    exact fraction?_append fractions (Text.stopsAt_cons digit) fun first => point (Option.some.inj first)
  have offset : offset? (skipBlank spelling.zone) = some (spelling.offset, []) := by
    rw [zone, skipBlank_cons visible, ← zone, offset?_eq offsets]
  rw [read?_eq, text, String.toList_ofList, year?_yearText]
  simp only [Option.bind_eq_bind, Option.bind_some, dash]
  simp only [month, day, dash, Option.bind_some]
  simp only [separator, hour, minute, second, colon, Option.bind_some]
  simp only [fraction, offset, Option.bind_some]
  rw [assemble?, if_neg, if_neg]
  · rfl
  · simpa [instant] using inYears'
  · simpa [inYears, dates] using offsets.natAbs_lt

end Spelling

/-- A fraction is read as less than a second. -/
theorem fraction?_lt (read : fraction? text = some (n, rest)) : n < 1000000000 := by
  rw [fraction?.eq_def] at read
  split at read
  next digits =>
      have all : ∀ c ∈ (digits.takeWhile Char.isDigit).take 9, c.isDigit = true := fun c member =>
        List.mem_takeWhile_imp (List.mem_of_mem_take member)
      have short : ((digits.takeWhile Char.isDigit).take 9).length ≤ 9 := List.length_take_le ..
      have below := Text.decimal_lt all
      dsimp only at read
      split at read
      next => cases read
      next =>
          obtain ⟨rfl, -⟩ := Prod.mk.inj (Option.some.inj read)
          rw [digitsValue_eq, Nat.pow_eq]
          calc _ < 10 ^ ((digits.takeWhile Char.isDigit).take 9).length *
                10 ^ (9 - ((digits.takeWhile Char.isDigit).take 9).length) :=
              Nat.mul_lt_mul_of_pos_right below (Nat.pow_pos (by decide))
            _ = 1000000000 := by rw [← Nat.pow_add, Nat.add_sub_cancel' short]
  next =>
      obtain ⟨rfl, -⟩ := Prod.mk.inj (Option.some.inj read)
      decide

/-- Offsets are of whole minutes. -/
theorem offsetParts?_emod (read : offsetParts? text = some (offset, rest)) : offset % 60 = 0 := by
  simp only [offsetParts?] at read
  repeat' split at read
  all_goals simp at read
  omega

theorem offsetParts?_neg_emod
    (read : (offsetParts? text).map (fun (seconds, rest) => (-seconds, rest)) = some (offset, rest)) :
    offset % 60 = 0 := by
  obtain ⟨⟨seconds, left⟩, parts, same⟩ := Option.map_eq_some_iff.1 read
  obtain ⟨rfl, -⟩ := Prod.mk.inj same
  have whole := offsetParts?_emod parts
  omega

/-- Offsets are whole minutes, so the last second of a local minute is the last of one in UTC. -/
theorem offset?_emod (read : offset? text = some (offset, rest)) : offset % 60 = 0 := by
  have utc {left : List Char} (read : some ((0 : Int), left) = some (offset, rest)) : offset % 60 = 0 := by
    obtain ⟨rfl, -⟩ := Prod.mk.inj (Option.some.inj read)
    rfl
  rw [offset?.eq_def] at read
  dsimp only at read
  repeat' split at read
  · exact utc read
  · exact utc read
  · exact utc read
  · exact offsetParts?_emod read
  · exact offsetParts?_neg_emod read
  · exact offsetParts?_neg_emod read
  · cases read

/-- An instant that is read is valid, whatever its text. -/
theorem isValid_of_read? {text : String} {instant : Instant} (read : read? text = some instant) :
    instant.IsValid := by
  simp only [read?_eq, Option.bind_eq_bind, Option.bind_eq_some_iff, Prod.exists] at read
  obtain ⟨year, _, -, _, -, month, _, -, _, -, day, _, -, _, -, hour, _, -, _, -, minute, _, -, _, -,
    second, _, -, nanoseconds, _, fraction, offset, rest, offsets, read⟩ := read
  have below := fraction?_lt fraction
  have whole := offset?_emod offsets
  rw [assemble?] at read
  split at read
  next => cases read
  next =>
      split at read
      next => cases read
      next inYears =>
          obtain rfl := Option.some.inj read
          refine ⟨by simpa using inYears, ?_⟩
          by_cases leap : second = 60
          · refine .inr ⟨?_, ?_⟩
            · simp only [leap, ↓reduceIte]
              omega
            · simp only [leap, secondsPerDay]
              omega
          · simp only [leap, ↓reduceIte]
            exact .inl below

variable {instant : Instant}

/-- The local time of an instant, as precise as it is written. -/
def spelled (instant : Instant) (zone : List Char) (offset : Int) : Spelling :=
  let second := ((instant.seconds + offset) % secondsPerDay).toNat
  let leap := if instant.isLeap then 1 else 0
  { date := Date.ofDays ((instant.seconds + offset) / secondsPerDay)
    separator := 'T'
    hour := second / 3600
    minute := second / 60 % 60
    second := second % 60 + leap
    fraction := fractionText (instant.nanoseconds - leap * 1000000000)
    nanoseconds := instant.nanoseconds - leap * 1000000000
    zone, offset }

/-- An instant is written as one of its spellings. -/
theorem write_eq (instant : Instant) : instant.write = (instant.spelled ['Z'] 0).text := by
  simp only [write, spelled, Spelling.text, secondOfDay, Int.add_zero, List.append_assoc, List.cons_append]

/-- Digits behind the point are a fraction, by their number. -/
theorem fraction_padded (positive : 0 < width) (lt : n < 10 ^ width) :
    Fraction ('.' :: padded width n) (n * 1000000000 / 10 ^ width) := by
  have digits := Fraction.digits (padded_ne_nil width n) (isDigit_of_mem_padded width n)
  rwa [decimal_padded, length_padded positive lt] at digits

/-- The fraction is written in full. -/
theorem fraction_fractionText (lt : n < 1000000000) : Fraction (fractionText n) n := by
  rw [fractionText]
  split_ifs with none three six
  · exact none ▸ .none
  · have digits := @fraction_padded 3 (n / 1000000) (by decide) (by omega)
    rwa [show n / 1000000 * 1000000000 / 10 ^ 3 = n by omega] at digits
  · have digits := @fraction_padded 6 (n / 1000) (by decide) (by omega)
    rwa [show n / 1000 * 1000000000 / 10 ^ 6 = n by omega] at digits
  · have digits := @fraction_padded 9 n (by decide) (by omega)
    rwa [show n * 1000000000 / 10 ^ 9 = n by omega] at digits

/-- The spellings of a valid instant are valid. -/
theorem isValid_spelled (valid : instant.IsValid) (known : Offset zone offset) :
    (instant.spelled zone offset).IsValid := by
  have precise := valid.nanoseconds
  have day : 0 ≤ (instant.seconds + offset) % secondsPerDay ∧
      (instant.seconds + offset) % secondsPerDay < 86400 := by
    rw [secondsPerDay]
    omega
  refine ⟨Date.isValid_ofDays _, by simp [spelled], ?_, ?_, ?_, fraction_fractionText ?_, known⟩
  · simp only [spelled]
    omega
  · simp only [spelled]
    omega
  · simp only [spelled]
    split <;> omega
  · cases leap : instant.isLeap <;> simp [isLeap] at leap ⊢ <;> omega

/-- A clock shows the seconds of a day. The sixtieth second is told apart from the one before. -/
theorem clock_eq {second leap : Nat} (last : leap = 0 ∨ second % 60 = 59 ∧ leap = 1) :
    second / 3600 * 3600 + second / 60 % 60 * 60 + min (second % 60 + leap) 59 = second ∧
      (second % 60 + leap = 60 ↔ leap = 1) := by
  omega

/-- A spelling stands for the instant it is one of. -/
theorem instant_spelled (valid : instant.IsValid) (known : Offset zone offset) :
    (instant.spelled zone offset).instant = instant := by
  have whole := offset?_emod (offset?_eq known)
  obtain ⟨day, days⟩ : ∃ day, day = (instant.seconds + offset) / 86400 := ⟨_, rfl⟩
  obtain ⟨second, seconds⟩ : ∃ second, second = ((instant.seconds + offset) % 86400).toNat := ⟨_, rfl⟩
  have counted : day * 86400 + second - offset = instant.seconds := by omega
  have minute : second % 60 = 59 ↔ instant.seconds % 60 = 59 := by omega
  obtain ⟨leap, leaps⟩ : ∃ leap, leap = if instant.isLeap then 1 else 0 := ⟨_, rfl⟩
  have precise : leap = 0 ∧ instant.nanoseconds < 1000000000 ∨
      leap = 1 ∧ 1000000000 ≤ instant.nanoseconds ∧ second % 60 = 59 := by
    have bound := valid.nanoseconds
    simp only [leaps, isLeap, decide_eq_true_eq]
    split <;> omega
  obtain ⟨clock, sixty⟩ := @clock_eq second leap (by omega)
  rw [Spelling.instant, spelled, Date.toDays_ofDays]
  simp only [secondsPerDay, ← days, ← seconds, ← leaps, clock, sixty, counted]
  congr 1
  split <;> omega

/-- What is written of an instant is read as the instant. -/
theorem read?_write (valid : instant.IsValid) : read? instant.write = some instant := by
  have utc : Offset ['Z'] 0 := .utc (.inl rfl)
  have same := instant_spelled valid utc
  rw [write_eq, Spelling.read?_text (isValid_spelled valid utc), same]
  · simpa [spelled] using valid.inYears
  · rw [same]
    exact valid.inYears

/-- A text is local time with an offset as the standard has it, with a year of four digits, and stands for
this instant. -/
def Spells (text : String) (instant : Instant) : Prop :=
  ∃ spelling : Spelling, spelling.IsValid ∧ (0 ≤ spelling.date.year ∧ spelling.date.year ≤ 9999) ∧
    spelling.text = text ∧ spelling.instant = instant

/-- An instant is read from each of its spellings. -/
theorem Spells.read?_eq_some {text : String} (spells : Spells text instant) :
    read? text = some instant := by
  obtain ⟨spelling, valid, fourDigits, rfl, rfl⟩ := spells
  refine Spelling.read?_text valid ?_ ?_
  · simp [yearInRange]
    omega
  · have days := Date.toDays_of_fourDigits valid.date fourDigits
    have ahead := valid.offset.natAbs_lt
    have hour := valid.hour
    have minute := valid.minute
    obtain ⟨least, most⟩ : -721000 ≤ spelling.instant.seconds / secondsPerDay ∧
        spelling.instant.seconds / secondsPerDay ≤ 2941000 := by
      simp only [Spelling.instant, secondsPerDay]
      omega
    have year := Date.year_ofDays least most
    simp [yearInRange]
    omega

example : read? "2024-02-29T21:29:60.5000000009-02:30" = read? "2024-03-01t09:29:60.5+09:30" := by
  decide +kernel

/-- An instant has a spelling for every offset that leaves its local year four digits. -/
theorem spells_spelled (valid : instant.IsValid) (known : Offset zone offset)
    (fourDigits : 0 ≤ (Date.ofDays ((instant.seconds + offset) / secondsPerDay)).year ∧
      (Date.ofDays ((instant.seconds + offset) / secondsPerDay)).year ≤ 9999) :
    Spells (instant.spelled zone offset).text instant :=
  ⟨_, isValid_spelled valid known, fourDigits, rfl, instant_spelled valid known⟩

end VersionMatrix.Instant
