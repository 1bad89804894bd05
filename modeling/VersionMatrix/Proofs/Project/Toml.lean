import VersionMatrix.Proofs.Json.Spelling
import Mathlib.Data.List.Forall2

/-! How a TOML document is written: statements on lines of their own, which are blank, open a table or
give a value under a key. What the value of a key is plays no part here, and only keys are decoded. -/
namespace VersionMatrix.Toml

/-- The white space that may stand between the parts of a line. -/
def isGap (c : Char) : Bool := c == ' ' || c == '\t'

def IsGap (chars : List Char) : Prop := ∀ c ∈ chars, isGap c = true

instance (chars : List Char) : Decidable (IsGap chars) :=
  decidable_of_iff (chars.all isGap = true) List.all_eq_true

/-- A line feed, with or without a carriage return before it. -/
inductive IsNewline : List Char → Prop
  | feed : IsNewline ['\n']
  | returned : IsNewline ['\r', '\n']

/-- Any character but the control characters, of which only the tab is left. -/
def isPrintable (c : Char) : Bool := c == '\t' || (decide (0x20 ≤ c.toNat) && c != '\x7f')

/-- A comment up to the end of its line, or none. -/
inductive IsRemark : List Char → Prop
  | none : IsRemark []
  | comment {words : List Char} (printable : ∀ c ∈ words, isPrintable c = true) :
      IsRemark ('#' :: words)

/-- What may stand between the elements of an array: white space, line ends and comments. -/
inductive IsFiller : List Char → Prop
  | nil : IsFiller []
  | gap {c : Char} {rest : List Char} (blank : isGap c = true) (more : IsFiller rest) :
      IsFiller (c :: rest)
  | line {remark ending rest : List Char} (isRemark : IsRemark remark) (ended : IsNewline ending)
      (more : IsFiller rest) : IsFiller (remark ++ (ending ++ rest))

def apostrophe : Char := '\x27'

/-- A character that stands for itself between double quotes. -/
def isPlain (c : Char) : Bool := isPrintable c && c != '"' && c != '\\'

/-- A character that may stand between single quotes, where every one stands for itself. -/
def isLiteral (c : Char) : Bool := isPrintable c && c != apostrophe

def letterEscapes : List (Char × Char) :=
  [('"', '"'), ('\\', '\\'), ('b', '\x08'), ('f', '\x0c'), ('n', '\n'), ('r', '\r'), ('t', '\t')]

/-- A backslash with a letter, or with a mark and the number of a character in hexadecimal digits, as
many as the mark says. -/
inductive SpellsEscape : Char → List Char → Prop
  | letter {letter c : Char} (known : (letter, c) ∈ letterEscapes) : SpellsEscape c ['\\', letter]
  | number {mark : Char} {digits : List Char} {values : List Nat}
      (sized : (mark, digits.length) ∈ [('u', 4), ('U', 8)])
      (read : List.Forall₂ Json.IsHexDigit digits values)
      (valid : (values.foldl (fun number digit => number * 16 + digit) 0).isValidChar) :
      SpellsEscape (Char.ofNat (values.foldl (fun number digit => number * 16 + digit) 0))
        ('\\' :: mark :: digits)

/-- The text between double quotes, decoded. -/
inductive SpellsText : List Char → List Char → Prop
  | nil : SpellsText [] []
  | plain {c : Char} {text chars : List Char} (isPlain : isPlain c = true)
      (more : SpellsText text chars) : SpellsText (c :: text) (c :: chars)
  | escape {c : Char} {escape text chars : List Char} (escaped : SpellsEscape c escape)
      (more : SpellsText text chars) : SpellsText (c :: text) (escape ++ chars)

/-- What a string over several lines is made of between its double quotes. A backslash at the end of a
line takes the white space after it away. -/
inductive IsFolded : List Char → Prop
  | plain {c : Char} (isPlain : isPlain c = true) : IsFolded [c]
  | escape {c : Char} {escape : List Char} (escaped : SpellsEscape c escape) : IsFolded escape
  | newline {ending : List Char} (ended : IsNewline ending) : IsFolded ending
  | joined {gap ending : List Char} (isGap : IsGap gap) (ended : IsNewline ending) :
      IsFolded ('\\' :: (gap ++ ending))

/-- What a string over several lines is made of between its single quotes. -/
inductive IsVerbatim : List Char → Prop
  | literal {c : Char} (isLiteral : isLiteral c = true) : IsVerbatim [c]
  | newline {ending : List Char} (ended : IsNewline ending) : IsVerbatim ending

/-- The text of a string over several lines, after `count` quotes in a row. Two quotes in a row are the
most that it may hold. -/
inductive IsLongText (quote : Char) (IsPiece : List Char → Prop) : Nat → List Char → Prop
  | nil {count : Nat} : IsLongText quote IsPiece count []
  | quote {count : Nat} {chars : List Char} (room : count < 2)
      (more : IsLongText quote IsPiece (count + 1) chars) :
      IsLongText quote IsPiece count (quote :: chars)
  | piece {count : Nat} {piece chars : List Char} (isPiece : IsPiece piece)
      (more : IsLongText quote IsPiece 0 chars) : IsLongText quote IsPiece count (piece ++ chars)

/-- A string over several lines stands between three quotes and three. -/
inductive IsLongString : List Char → Prop
  | folded {text : List Char} (isText : IsLongText '"' IsFolded 0 text) :
      IsLongString (List.replicate 3 '"' ++ (text ++ List.replicate 3 '"'))
  | verbatim {text : List Char} (isText : IsLongText apostrophe IsVerbatim 0 text) :
      IsLongString (List.replicate 3 apostrophe ++ (text ++ List.replicate 3 apostrophe))

/-- The letters, digits and marks that a key needs no quotes for. -/
def isBare (c : Char) : Bool := c.isAlphanum || c == '-' || c == '_'

/-- One name of a key, bare or in quotes. -/
inductive SpellsName : String → List Char → Prop
  | bare {name : List Char} (filled : name ≠ []) (all : ∀ c ∈ name, isBare c = true) :
      SpellsName (String.ofList name) name
  | quoted {text chars : List Char} (spelled : SpellsText text chars) :
      SpellsName (String.ofList text) ('"' :: (chars ++ ['"']))
  | literal {name : List Char} (all : ∀ c ∈ name, isLiteral c = true) :
      SpellsName (String.ofList name) (apostrophe :: (name ++ [apostrophe]))

/-- The names of a key with dots between them. -/
inductive SpellsKey : List String → List Char → Prop
  | single {name : String} {chars : List Char} (spelled : SpellsName name chars) :
      SpellsKey [name] chars
  | dotted {name : String} {names : List String} {chars before after rest : List Char}
      (spelled : SpellsName name chars) (isBefore : IsGap before) (isAfter : IsGap after)
      (more : SpellsKey names rest) :
      SpellsKey (name :: names) (chars ++ (before ++ '.' :: (after ++ rest)))

/-- The characters that numbers, booleans, dates and times are written with. -/
def isScalar (c : Char) : Bool := isBare c || c == '+' || c == '.' || c == ':'

/-- A number, a boolean, a date or a time. Among the words of such characters, the ones that are none of
these are not told apart. -/
inductive IsScalar : List Char → Prop
  | word {chars : List Char} (filled : chars ≠ []) (all : ∀ c ∈ chars, isScalar c = true) :
      IsScalar chars
  | moment {date time : List Char} (isDate : IsScalar date) (isTime : IsScalar time) :
      IsScalar (date ++ ' ' :: time)

mutual

inductive IsValue : List Char → Prop
  | text {text chars : List Char} (spelled : SpellsText text chars) :
      IsValue ('"' :: (chars ++ ['"']))
  | literal {chars : List Char} (all : ∀ c ∈ chars, isLiteral c = true) :
      IsValue (apostrophe :: (chars ++ [apostrophe]))
  | long {chars : List Char} (isLong : IsLongString chars) : IsValue chars
  | scalar {chars : List Char} (isScalar : IsScalar chars) : IsValue chars
  | array {elements : List Char} (areElements : AreElements elements) :
      IsValue ('[' :: (elements ++ [']']))
  | emptyTable {gap : List Char} (isGap : IsGap gap) : IsValue ('{' :: (gap ++ ['}']))
  | table {before fields after : List Char} (isBefore : IsGap before) (areFields : AreFields fields)
      (isAfter : IsGap after) : IsValue ('{' :: (before ++ (fields ++ (after ++ ['}']))))

/-- The elements of an array, with commas between them. One more comma may stand after the last. -/
inductive AreElements : List Char → Prop
  | none {filler : List Char} (isFiller : IsFiller filler) : AreElements filler
  | last {before value after : List Char} (isBefore : IsFiller before) (isValue : IsValue value)
      (isAfter : IsFiller after) : AreElements (before ++ (value ++ after))
  | more {before value after rest : List Char} (isBefore : IsFiller before)
      (isValue : IsValue value) (isAfter : IsFiller after) (areMore : AreElements rest) :
      AreElements (before ++ (value ++ (after ++ ',' :: rest)))

/-- The keys of a table inside one line, with their values and with commas between them. -/
inductive AreFields : List Char → Prop
  | last {names : List String} {key before after value : List Char} (spelled : SpellsKey names key)
      (isBefore : IsGap before) (isAfter : IsGap after) (isValue : IsValue value) :
      AreFields (key ++ (before ++ '=' :: (after ++ value)))
  | more {names : List String} {key before after value front back rest : List Char}
      (spelled : SpellsKey names key) (isBefore : IsGap before) (isAfter : IsGap after)
      (isValue : IsValue value) (isFront : IsGap front) (isBack : IsGap back)
      (areMore : AreFields rest) :
      AreFields (key ++ (before ++ '=' :: (after ++ (value ++ (front ++ ',' :: (back ++ rest))))))

end

/-- What a statement is: nothing, a key with its value, or the header of a table or of an element of an
array of tables. -/
inductive Entry where
  | blank
  | pair (key : List String)
  | table (path : List String)
  | element (path : List String)
deriving DecidableEq

/-- Whether what comes after the statement belongs to another table than what stands before it. -/
def Entry.isHeader : Entry → Bool
  | .table _ => true
  | .element _ => true
  | _ => false

/-- The spelling of a statement without the line end after it. -/
inductive Entry.Spelled : Entry → List Char → Prop
  | blank {lead remark : List Char} (isLead : IsGap lead) (isRemark : IsRemark remark) :
      Spelled .blank (lead ++ remark)
  | pair {names : List String} {lead key before after value trail remark : List Char}
      (isLead : IsGap lead) (spelled : SpellsKey names key) (isBefore : IsGap before)
      (isAfter : IsGap after) (isValue : IsValue value) (isTrail : IsGap trail)
      (isRemark : IsRemark remark) :
      Spelled (.pair names)
        (lead ++ (key ++ (before ++ '=' :: (after ++ (value ++ (trail ++ remark))))))
  | table {path : List String} {lead before key after trail remark : List Char}
      (isLead : IsGap lead) (isBefore : IsGap before) (spelled : SpellsKey path key)
      (isAfter : IsGap after) (isTrail : IsGap trail) (isRemark : IsRemark remark) :
      Spelled (.table path)
        (lead ++ '[' :: (before ++ (key ++ (after ++ ']' :: (trail ++ remark)))))
  | element {path : List String} {lead before key after trail remark : List Char}
      (isLead : IsGap lead) (isBefore : IsGap before) (spelled : SpellsKey path key)
      (isAfter : IsGap after) (isTrail : IsGap trail) (isRemark : IsRemark remark) :
      Spelled (.element path)
        (lead ++ '[' :: '[' :: (before ++ (key ++ (after ++ ']' :: ']' :: (trail ++ remark)))))

/-- A line that gives a text in double quotes under a key, and in the text every character stands for
itself. -/
inductive GivesText (names : List String) (text : List Char) : List Char → Prop
  | line {lead key before after trail remark : List Char} (isLead : IsGap lead)
      (spelled : SpellsKey names key) (isBefore : IsGap before) (isAfter : IsGap after)
      (plain : ∀ c ∈ text, isPlain c = true) (isTrail : IsGap trail) (isRemark : IsRemark remark) :
      GivesText names text
        (lead ++ (key ++ (before ++ '=' :: (after ++ ('"' :: (text ++ ['"']) ++ (trail ++ remark))))))

theorem spellsText_of_isPlain {text : List Char} (plain : ∀ c ∈ text, isPlain c = true) :
    SpellsText text text := by
  induction text with
  | nil => exact .nil
  | cons c text ih =>
      obtain ⟨first, others⟩ := List.forall_mem_cons.1 plain
      exact .plain first (ih others)

theorem GivesText.spelled {names : List String} {text chars : List Char}
    (given : GivesText names text chars) : (Entry.pair names).Spelled chars := by
  cases given with
  | line isLead spelled isBefore isAfter plain isTrail isRemark =>
      exact .pair isLead spelled isBefore isAfter (.text (spellsText_of_isPlain plain)) isTrail isRemark

theorem GivesText.plain {names : List String} {text chars : List Char}
    (given : GivesText names text chars) : ∀ c ∈ text, isPlain c = true := by
  cases given with
  | line _ _ _ _ plain => exact plain

structure Statement where
  entry : Entry
  chars : List Char
  spelled : entry.Spelled chars

/-- The lines of a statement. Only a value goes on over more than one. -/
def Statement.lines (statement : Statement) : List (List Char) := statement.chars.splitOn '\n'

/-- Statements one after the other, with a line end between any two. -/
inductive IsDocument : List Statement → List Char → Prop
  | last (statement : Statement) : IsDocument [statement] statement.chars
  | more (statement : Statement) {statements : List Statement} {ending text : List Char}
      (ended : IsNewline ending) (rest : IsDocument statements text) :
      IsDocument (statement :: statements) (statement.chars ++ (ending ++ text))

def joined : List Statement → List Char
  | [] => []
  | [statement] => statement.chars
  | statement :: next :: rest => statement.chars ++ '\n' :: joined (next :: rest)

theorem isDocument_joined (statement : Statement) (rest : List Statement) :
    IsDocument (statement :: rest) (joined (statement :: rest)) := by
  induction rest generalizing statement with
  | nil => exact .last statement
  | cons next rest ih => exact .more statement .feed (ih next)

section

variable {names path : List String} {key value text gap trail remark : List Char}

theorem isGap_nil : IsGap [] := List.forall_mem_nil _

theorem isGap_space : IsGap [' '] := by decide

theorem spellsKey_bare {word : List Char} (filled : word ≠ []) (bare : word.all isBare = true) :
    SpellsKey [String.ofList word] word :=
  .single (.bare filled (List.all_eq_true.1 bare))

/-- A header of a table without white space in front. -/
def headerLine (isGap : IsGap gap) (spelled : SpellsKey path key) (isTrail : IsGap trail)
    (isRemark : IsRemark remark) : Statement :=
  ⟨.table path, _, .table isGap_nil isGap spelled isGap isTrail isRemark⟩

/-- A key and its value, with a space on either side of the equals sign. -/
def valueLine (spelled : SpellsKey names key) (isValue : IsValue value) : Statement :=
  ⟨.pair names, _, .pair isGap_nil spelled isGap_space isGap_space isValue isGap_nil .none⟩

theorem givesText_line (spelled : SpellsKey names key) (plain : ∀ c ∈ text, isPlain c = true)
    (isTrail : IsGap trail) (isRemark : IsRemark remark) :
    GivesText names text
      (key ++ ([' '] ++ '=' :: ([' '] ++ ('"' :: (text ++ ['"']) ++ (trail ++ remark))))) :=
  .line isGap_nil spelled isGap_space isGap_space plain isTrail isRemark

theorem isLongText_append {rest : List Char} (plain : ∀ c ∈ text, isPlain c = true)
    (more : IsLongText '"' IsFolded 0 rest) : IsLongText '"' IsFolded 0 (text ++ rest) := by
  induction text with
  | nil => exact more
  | cons c text ih =>
      obtain ⟨first, others⟩ := List.forall_mem_cons.1 plain
      have piece : IsLongText '"' IsFolded 0 ([c] ++ (text ++ rest)) := .piece (.plain first) (ih others)
      exact piece

/-- Lines of a text between three double quotes and three, with a line feed before each. -/
theorem isValue_lines (lines : List (List Char)) (plain : ∀ line ∈ lines, line.all isPlain = true) :
    IsValue (List.replicate 3 '"' ++ (lines.flatMap ('\n' :: ·) ++ List.replicate 3 '"')) := by
  refine .long (.folded ?_)
  induction lines with
  | nil => exact .nil
  | cons line lines ih =>
      obtain ⟨first, others⟩ := List.forall_mem_cons.1 plain
      rw [List.flatMap_cons, List.cons_append, ← List.singleton_append]
      exact .piece (.newline .feed) (isLongText_append (List.all_eq_true.1 first) (ih others))

end

section

variable {c : Char} {chars key tail tail' word : List Char} {names : List String}

/-- The characters that a name of a key begins with. -/
def startsName (c : Char) : Bool := isBare c || c == '"' || c == apostrophe

theorem isGap_iff : isGap c = true ↔ c = ' ' ∨ c = '\t' := by simp [isGap]

theorem isBare_of_isGap (gap : isGap c = true) : isBare c = false := by
  rcases isGap_iff.1 gap with rfl | rfl <;> rfl

theorem stopsAt_isBare_append {gap rest : List Char} (blank : IsGap gap) (other : isBare c = false) :
    Text.StopsAt isBare (gap ++ c :: rest) :=
  (Text.stopsAt_cons other).append fun c member => isBare_of_isGap (blank c member)

/-- Such a character is no white space. -/
theorem isGap_of_startsName (starts : startsName c = true) : isGap c = false := by
  refine Bool.eq_false_iff.2 fun gap => ?_
  rcases isGap_iff.1 gap with rfl | rfl <;> cases starts

theorem SpellsName.exists_eq_cons {name : String} (spelled : SpellsName name chars) :
    ∃ c rest, chars = c :: rest ∧ startsName c = true := by
  cases spelled with
  | bare filled all =>
      obtain ⟨c, rest, rfl⟩ := List.exists_cons_of_ne_nil filled
      exact ⟨c, rest, rfl, by simp [startsName, all c List.mem_cons_self]⟩
  | quoted spelled => exact ⟨_, _, rfl, rfl⟩
  | literal all => exact ⟨_, _, rfl, rfl⟩

theorem SpellsKey.exists_eq_cons (spelled : SpellsKey names key) :
    ∃ c rest, key = c :: rest ∧ startsName c = true := by
  cases spelled with
  | single spelled => exact spelled.exists_eq_cons
  | dotted spelled =>
      obtain ⟨c, rest, rfl, starts⟩ := spelled.exists_eq_cons
      exact ⟨c, _, rfl, starts⟩

/-- A name that a bare word stands in front of is that word. -/
theorem SpellsName.eq_of_append_eq {name : String} (spelled : SpellsName name chars)
    (filled : word ≠ []) (bare : ∀ c ∈ word, isBare c = true) (stops : Text.StopsAt isBare tail)
    (stops' : Text.StopsAt isBare tail') (same : chars ++ tail = word ++ tail') :
    name = String.ofList word ∧ tail = tail' := by
  cases spelled with
  | bare _ all =>
      obtain ⟨rfl, rest⟩ := stops.append_inj stops' all bare same
      exact ⟨rfl, rest⟩
  | quoted spelled =>
      obtain ⟨c, rest, rfl⟩ := List.exists_cons_of_ne_nil filled
      cases (List.cons.inj same).1
      cases bare _ List.mem_cons_self
  | literal all =>
      obtain ⟨c, rest, rfl⟩ := List.exists_cons_of_ne_nil filled
      cases (List.cons.inj same).1
      cases bare _ List.mem_cons_self

/-- A key that a bare word stands in front of is that word, or a dot comes next. -/
theorem SpellsKey.eq_of_append_eq (spelled : SpellsKey names key) (filled : word ≠ [])
    (bare : ∀ c ∈ word, isBare c = true) (stops : Text.StopsAt isBare tail)
    (stops' : Text.StopsAt isBare tail') (same : key ++ tail = word ++ tail') :
    names = [String.ofList word] ∨ ∃ gap rest, IsGap gap ∧ tail' = gap ++ '.' :: rest := by
  cases spelled with
  | single spelled =>
      obtain ⟨rfl, -⟩ := spelled.eq_of_append_eq filled bare stops stops' same
      exact .inl rfl
  | dotted spelled isBefore isAfter more =>
      rw [List.append_assoc, List.append_assoc, List.cons_append] at same
      obtain ⟨-, rfl⟩ := spelled.eq_of_append_eq filled bare
        (stopsAt_isBare_append isBefore (by rfl)) stops' same
      exact .inr ⟨_, _, isBefore, rfl⟩

end

end VersionMatrix.Toml
