import VersionMatrix.Version.Basic
import VersionMatrix.Proofs.Text.Numeral
import VersionMatrix.Proofs.Text.Span

/-! The notation of versions. Reading accepts what writing produces for the versions that the standard
allows, and nothing else, so that each of them has one spelling. -/
namespace VersionMatrix.Version

variable {identifier : String} {identifiers preRelease build : List String} {text rest : List Char}
  {n : Nat} {mark : Char} {v w : Version} {a b : String}

/-- An identifier is made of ASCII letters, digits and hyphens. -/
structure IsIdentifier (identifier : String) : Prop where
  nonempty : identifier ≠ ""
  chars : ∀ c ∈ identifier.toList, isIdentifierChar c = true

/-- A numeric identifier of a pre-release has no leading zero. A zero may stand alone. -/
def IsPlain (identifier : String) : Prop :=
  isNumeric identifier = true → identifier.toList.head? = some '0' → identifier.length = 1

/-- What the standard asks of a version, with numbers of 64 bits. -/
structure IsStrict (v : Version) : Prop where
  major : v.major < Text.wordLimit
  minor : v.minor < Text.wordLimit
  patch : v.patch < Text.wordLimit
  preRelease : ∀ identifier ∈ v.preRelease, IsIdentifier identifier ∧ IsPlain identifier
  build : ∀ identifier ∈ v.build, IsIdentifier identifier

def joined (identifiers : List String) : List Char :=
  ['.'].intercalate (identifiers.map String.toList)

/-- Identifiers after their mark, or nothing if there are none. -/
def suffix (mark : Char) (identifiers : List String) : List Char :=
  if identifiers = [] then [] else mark :: joined identifiers

def write (v : Version) : String :=
  String.ofList <|
    Nat.toDigits 10 v.major ++ '.' :: Nat.toDigits 10 v.minor ++ '.' :: Nat.toDigits 10 v.patch ++
      suffix '-' v.preRelease ++ suffix '+' v.build

/-- A number is read exactly from its digits, without leading zeros, if it fits a word. -/
theorem number?_eq_some_iff :
    number? text = some (n, rest) ↔
      n < Text.wordLimit ∧ text = Nat.toDigits 10 n ++ rest ∧ Text.StopsAt Char.isDigit rest := by
  rw [number?]
  constructor
  · intro read
    split at read
    next => cases read
    next plain =>
        simp only [Bool.or_eq_true, not_or, Bool.and_eq_true, not_and, List.isEmpty_iff, beq_iff_eq,
          bne_iff_ne, not_not] at plain
        obtain ⟨m, digits, same⟩ := Option.map_eq_some_iff.1 read
        obtain ⟨rfl, rfl⟩ := Prod.mk.inj same
        obtain ⟨all, rfl, fits⟩ := Text.toOption_readDigits_eq_some_iff.1 digits
        refine ⟨fits, ?_, Text.stopsAt_dropWhile _ _⟩
        rw [Text.toDigits_decimal all plain.1 plain.2, List.takeWhile_append_dropWhile]
  · rintro ⟨fits, rfl, stops⟩
    have all : ∀ c ∈ Nat.toDigits 10 n, c.isDigit = true := fun _ => Text.isDigit_of_mem_toDigits
    rw [stops.takeWhile_append all, stops.dropWhile_append all, if_neg ?_, Text.readDigits_toDigits fits]
    · rfl
    · simpa [Nat.toDigits_ne_nil] using Text.plain_toDigits n

theorem afterPoint?_eq_some_iff : afterPoint? text = some rest ↔ text = '.' :: rest := by
  cases text with
  | nil => simp [afterPoint?]
  | cons c tail =>
      by_cases point : c = '.'
      · simp [afterPoint?, point]
      · simp [afterPoint?, point]

theorem IsIdentifier.notMem (proper : IsIdentifier identifier) (other : isIdentifierChar mark = false) :
    mark ∉ identifier.toList := by
  intro member
  rw [proper.chars mark member] at other
  cases other

/-- Identifiers are read exactly from a text that joins them with points. -/
theorem identifiers?_eq_some_iff :
    identifiers? text = some identifiers ↔
      text = joined identifiers ∧ identifiers ≠ [] ∧
        ∀ identifier ∈ identifiers, IsIdentifier identifier := by
  rw [identifiers?]
  constructor
  · intro read
    split at read
    next proper =>
        obtain rfl := Option.some.inj read
        refine ⟨?_, by simp, fun identifier member => ?_⟩
        · rw [joined, List.map_map]
          simp [Function.comp_def, List.intercalate_splitOn]
        · obtain ⟨part, listed, rfl⟩ := List.mem_map.1 member
          have := List.all_eq_true.1 proper part listed
          simp only [Bool.and_eq_true, Bool.not_eq_true', List.isEmpty_eq_false_iff,
            List.all_eq_true] at this
          exact ⟨by simpa using this.1, by simpa using this.2⟩
    next => cases read
  · rintro ⟨rfl, nonempty, proper⟩
    have parts : (joined identifiers).splitOn '.' = identifiers.map String.toList := by
      refine List.splitOn_intercalate '.' (fun part member => ?_) (by simpa using nonempty)
      obtain ⟨identifier, listed, rfl⟩ := List.mem_map.1 member
      exact (proper identifier listed).notMem rfl
    rw [parts, if_pos ?_, List.map_map]
    · simp [Function.comp_def]
    · rw [List.all_map, List.all_eq_true]
      intro identifier member
      obtain ⟨nonempty, chars⟩ := proper identifier member
      simpa [nonempty] using chars

/-- The identifiers of a pre-release are read in the same way, none of them a number with leading
zeros. -/
theorem preRelease?_eq_some_iff :
    preRelease? text = some identifiers ↔
      text = joined identifiers ∧ identifiers ≠ [] ∧
        ∀ identifier ∈ identifiers, IsIdentifier identifier ∧ IsPlain identifier := by
  have plain : (identifiers.all fun part =>
      !(isNumeric part && part.length != 1 && part.toList.head? == some '0')) = true ↔
        ∀ identifier ∈ identifiers, IsPlain identifier := by
    simp only [List.all_eq_true, IsPlain, Bool.not_eq_true', Bool.and_eq_false_imp, Bool.and_eq_true,
      bne_iff_ne, beq_eq_false_iff_ne]
    exact forall₂_congr fun identifier _ =>
      ⟨fun strict numeric zero => of_not_not fun long => strict ⟨numeric, long⟩ zero,
        fun plain numeral zero => numeral.2 (plain numeral.1 zero)⟩
  rw [preRelease?]
  constructor
  · intro read
    obtain ⟨parts, parsed, checked⟩ := Option.bind_eq_some_iff.1 read
    split at checked
    next checks =>
        obtain rfl := Option.some.inj checked
        obtain ⟨spelled, nonempty, proper⟩ := identifiers?_eq_some_iff.1 parsed
        exact ⟨spelled, nonempty, fun identifier member =>
          ⟨proper identifier member, plain.1 checks identifier member⟩⟩
    next => cases checked
  · rintro ⟨spelled, nonempty, proper⟩
    refine Option.bind_eq_some_iff.2 ⟨identifiers, identifiers?_eq_some_iff.2
      ⟨spelled, nonempty, fun identifier member => (proper identifier member).1⟩, if_pos ?_⟩
    exact plain.2 fun identifier member => (proper identifier member).2

theorem joined_cons (identifiers : List String) :
    joined (identifier :: identifiers) = identifier.toList ++ suffix '.' identifiers := by
  cases identifiers with
  | nil => simp [joined, suffix]
  | cons next rest => simp [joined, suffix]

/-- Joined identifiers have no character but theirs and points. -/
theorem notMem_joined (proper : ∀ identifier ∈ identifiers, IsIdentifier identifier)
    (other : isIdentifierChar mark = false) (point : mark ≠ '.') : mark ∉ joined identifiers := by
  induction identifiers with
  | nil => simp [joined]
  | cons identifier rest ih =>
      obtain ⟨first, proper⟩ := List.forall_mem_cons.1 proper
      rw [joined_cons, suffix]
      split <;> simp [first.notMem other, point, ih proper]

theorem stopsAt_suffix {p : Char → Bool} (other : p mark = false) :
    Text.StopsAt p (suffix mark identifiers) := by
  rw [suffix]
  split
  next => exact Text.stopsAt_nil
  next => exact Text.stopsAt_cons other

theorem suffix_of_ne_nil (nonempty : identifiers ≠ []) :
    suffix mark identifiers = mark :: joined identifiers :=
  if_neg nonempty

/-- What is read as suffixes is written so. -/
theorem of_suffixes?_eq_some (read : suffixes? text = some (preRelease, build)) :
    text = suffix '-' preRelease ++ suffix '+' build ∧
      (∀ identifier ∈ preRelease, IsIdentifier identifier ∧ IsPlain identifier) ∧
      ∀ identifier ∈ build, IsIdentifier identifier := by
  rw [suffixes?.eq_def] at read
  split at read
  next =>
      obtain ⟨rfl, rfl⟩ := Prod.mk.inj (Option.some.inj read)
      exact ⟨rfl, nofun, nofun⟩
  next tail =>
      obtain ⟨ids, parsed, same⟩ := Option.map_eq_some_iff.1 read
      obtain ⟨rfl, rfl⟩ := Prod.mk.inj same
      obtain ⟨rfl, nonempty, proper⟩ := identifiers?_eq_some_iff.1 parsed
      exact ⟨by simp [suffix, nonempty], nofun, proper⟩
  next tail =>
      obtain ⟨pre, parsed, read⟩ := Option.bind_eq_some_iff.1 read
      obtain ⟨spelled, nonempty, proper⟩ := preRelease?_eq_some_iff.1 parsed
      have whole : tail = joined pre ++ tail.dropWhile (· != '+') := by
        rw [← spelled, List.takeWhile_append_dropWhile]
      have stops := Text.stopsAt_dropWhile (· != '+') tail
      split at read
      next done =>
          obtain ⟨rfl, rfl⟩ := Prod.mk.inj (Option.some.inj read)
          rw [done, List.append_nil] at whole
          exact ⟨by simp [suffix, nonempty, whole], proper, nofun⟩
      next c more went =>
          obtain ⟨ids, parsed, same⟩ := Option.map_eq_some_iff.1 read
          obtain ⟨rfl, rfl⟩ := Prod.mk.inj same
          obtain ⟨rfl, filled, proper'⟩ := identifiers?_eq_some_iff.1 parsed
          rw [went] at stops whole
          obtain rfl : c = '+' := by simpa using stops c rfl
          exact ⟨by simp [suffix, nonempty, filled, whole], proper, proper'⟩
  next => cases read

/-- Suffixes that are written are read back. -/
theorem suffixes?_append (proper : ∀ identifier ∈ preRelease, IsIdentifier identifier ∧ IsPlain identifier)
    (proper' : ∀ identifier ∈ build, IsIdentifier identifier) :
    suffixes? (suffix '-' preRelease ++ suffix '+' build) = some (preRelease, build) := by
  have metadata (filled : build ≠ []) : identifiers? (joined build) = some build :=
    identifiers?_eq_some_iff.2 ⟨rfl, filled, proper'⟩
  by_cases released : preRelease = []
  · subst released
    by_cases bare : build = []
    · subst bare
      rfl
    · rw [suffix_of_ne_nil bare]
      simp [suffix, suffixes?, metadata bare]
  · have kept : ∀ c ∈ joined preRelease, (c != '+') = true := by
      intro c member
      have absent : '+' ∉ joined preRelease :=
        notMem_joined (fun identifier listed => (proper identifier listed).1) rfl (by decide)
      exact bne_iff_ne.2 fun same => absent (same ▸ member)
    have stops : Text.StopsAt (· != '+') (suffix '+' build) := stopsAt_suffix (by decide)
    rw [suffix_of_ne_nil released, List.cons_append, suffixes?, stops.takeWhile_append kept,
      stops.dropWhile_append kept, preRelease?_eq_some_iff.2 ⟨rfl, released, proper⟩]
    by_cases bare : build = []
    · subst bare
      rfl
    · rw [suffix_of_ne_nil bare]
      simp [metadata bare]

/-- Suffixes are read exactly from how they are written. -/
theorem suffixes?_eq_some_iff :
    suffixes? text = some (preRelease, build) ↔
      text = suffix '-' preRelease ++ suffix '+' build ∧
        (∀ identifier ∈ preRelease, IsIdentifier identifier ∧ IsPlain identifier) ∧
        ∀ identifier ∈ build, IsIdentifier identifier := by
  refine ⟨of_suffixes?_eq_some, fun written => ?_⟩
  obtain ⟨rfl, proper, proper'⟩ := written
  exact suffixes?_append proper proper'

/-- Reading gives a version exactly for the text that writes it, if the standard allows the version. -/
theorem parse?_eq_some_iff : parse? a = some v ↔ v.IsStrict ∧ v.write = a := by
  have split : parse? a = some v ↔ ∃ afterMajor afterMinor afterPatch,
      number? a.toList = some (v.major, '.' :: afterMajor) ∧
      number? afterMajor = some (v.minor, '.' :: afterMinor) ∧
      number? afterMinor = some (v.patch, afterPatch) ∧
      suffixes? afterPatch = some (v.preRelease, v.build) := by
    simp only [parse?, Option.bind_eq_bind, Option.bind_eq_some_iff, Prod.exists, afterPoint?_eq_some_iff]
    constructor
    · rintro ⟨major, _, first, _, rfl, minor, _, second, _, rfl, patch, afterPatch, third, pre, build, last,
        same⟩
      obtain rfl := Option.some.inj same
      exact ⟨_, _, _, first, second, third, last⟩
    · rintro ⟨afterMajor, afterMinor, afterPatch, first, second, third, last⟩
      exact ⟨_, _, first, _, rfl, _, _, second, _, rfl, _, _, third, _, _, last, rfl⟩
  simp only [split, number?_eq_some_iff, suffixes?_eq_some_iff]
  constructor
  · rintro ⟨_, _, _, ⟨major, whole, -⟩, ⟨minor, rfl, -⟩, ⟨patch, rfl, -⟩, rfl, proper, proper'⟩
    refine ⟨⟨major, minor, patch, proper, proper'⟩, ?_⟩
    rw [write, ← String.toList_inj, whole, String.toList_ofList]
    simp
  · rintro ⟨⟨major, minor, patch, proper, proper'⟩, rfl⟩
    refine ⟨_, _, _, ⟨major, ?_, Text.stopsAt_cons rfl⟩, ⟨minor, rfl, Text.stopsAt_cons rfl⟩,
      ⟨patch, rfl, ?_⟩, rfl, proper, proper'⟩
    · rw [write, String.toList_ofList]
      simp
    · rw [suffix]
      split
      next => exact stopsAt_suffix rfl
      next => exact Text.stopsAt_cons rfl

/-- No two texts are read as the same version. -/
theorem eq_of_parse? (first : parse? a = some v) (second : parse? b = some v) : a = b :=
  (parse?_eq_some_iff.1 first).2.symm.trans (parse?_eq_some_iff.1 second).2

end VersionMatrix.Version
