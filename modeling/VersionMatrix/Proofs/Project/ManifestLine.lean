import VersionMatrix.Project.Manifest
import VersionMatrix.Proofs.Project.Toml
import VersionMatrix.Proofs.Text.Numeral
import VersionMatrix.Proofs.Text.Occurrence
import VersionMatrix.Proofs.Text.Trim

/-! What the lines of a crate manifest are taken for. They are trimmed and read one by one. Only few of them
make a difference, and what these look like is set against the spelling of statements. -/
namespace VersionMatrix.Manifest

open Toml

variable {c : Char} {chars line lead trail text : List Char} {more : List String} {inPackage : Bool}

def packageWord : List Char := ['p', 'a', 'c', 'k', 'a', 'g', 'e']

def nameWord : List Char := ['n', 'a', 'm', 'e']

def packageHeader : List Char := '[' :: (packageWord ++ [']'])

def IsBlank (chars : List Char) : Prop := ∀ c ∈ chars, Text.isBlankChar c = true

/-- A text that begins with these characters, white space left aside. -/
def Begins (start text : List Char) : Prop :=
  ∃ lead rest, text = lead ++ (start ++ rest) ∧ IsBlank lead

/-- A line with the header of the package table and nothing else. -/
def IsHeader (line : List Char) : Prop :=
  ∃ lead trail, line = lead ++ (packageHeader ++ trail) ∧ IsBlank lead ∧ IsBlank trail

/-- A text that begins with the word `name` and an equals sign. -/
def Assigns (text : List Char) : Prop :=
  ∃ lead trail rest, text = lead ++ (nameWord ++ (trail ++ '=' :: rest)) ∧
    IsBlank lead ∧ IsBlank trail

theorem IsBlank.append {first second : List Char} (blank : IsBlank first) (blank' : IsBlank second) :
    IsBlank (first ++ second) :=
  fun c member => (List.mem_append.1 member).elim (blank c) (blank' c)

theorem Begins.append {start : List Char} (begins : Begins start text) (rest : List Char) :
    Begins start (text ++ rest) := by
  obtain ⟨lead, others, rfl, blank⟩ := begins
  exact ⟨lead, others ++ rest, by simp, blank⟩

theorem Assigns.append (assigns : Assigns text) (rest : List Char) : Assigns (text ++ rest) := by
  obtain ⟨lead, trail, others, rfl, blanks⟩ := assigns
  exact ⟨lead, trail, others ++ rest, by simp, blanks⟩

theorem IsHeader.begins (header : IsHeader line) : Begins packageHeader line := by
  obtain ⟨lead, trail, rfl, blank, -⟩ := header
  exact ⟨lead, trail, rfl, blank⟩

theorem Begins.opens (begins : Begins packageHeader text) : Begins ['['] text := by
  obtain ⟨lead, rest, rfl, blank⟩ := begins
  exact ⟨lead, (packageWord ++ [']']) ++ rest, rfl, blank⟩

theorem isBlankChar_of_isGap (gap : isGap c = true) : Text.isBlankChar c = true := by
  rcases isGap_iff.1 gap with rfl | rfl <;> rfl

/-- What may stand between the parts of a line is white space. -/
theorem isBlank_of_isGap (gap : IsGap chars) : IsBlank chars :=
  fun c member => isBlankChar_of_isGap (gap c member)

theorem isBlankChar_of_startsName (starts : startsName c = true) : Text.isBlankChar c = false := by
  have alphanum : c.isAlphanum = ((c.isUpper || c.isLower) || c.isDigit) := rfl
  have bound : 34 ≤ c.toNat ∧ c.toNat ≤ 122 := by
    simp only [startsName, isBare, alphanum, Bool.or_eq_true, beq_iff_eq] at starts
    rcases starts with (((((upper | lower) | digit) | rfl) | rfl) | rfl) | rfl
    · have bounds : 'A'.val ≤ c.val ∧ c.val ≤ 'Z'.val := of_decide_eq_true upper
      exact ⟨Nat.le_trans (by decide) bounds.1, Nat.le_trans bounds.2 (by decide)⟩
    · obtain ⟨first, last⟩ := Bool.and_eq_true_iff.1 lower
      have least : 'a'.val ≤ c.val := of_decide_eq_true first
      have greatest : c.val ≤ 'z'.val := of_decide_eq_true last
      exact ⟨Nat.le_trans (by decide) least, Nat.le_trans greatest (by decide)⟩
    · have bounds := Text.toNat_le_of_isDigit digit
      omega
    · decide
    · decide
    · decide
    · decide
  simp [Text.isBlankChar]
  omega

theorem isBare_of_isBlankChar (blank : Text.isBlankChar c = true) : isBare c = false := by
  refine Bool.eq_false_iff.2 fun bare => ?_
  have starts : startsName c = true := by simp [startsName, bare]
  cases (isBlankChar_of_startsName starts).symm.trans blank

/-- White space in front says nothing about what a text begins with. -/
theorem Begins.exists_eq {first : Char} {start : List Char}
    (begins : Begins (first :: start) (lead ++ text)) (gap : IsGap lead)
    (stops : Text.StopsAt Text.isBlankChar text) (visible : Text.isBlankChar first = false) :
    ∃ rest, text = first :: (start ++ rest) := by
  obtain ⟨lead', rest, same, blank⟩ := begins
  obtain ⟨-, rfl⟩ := stops.append_inj (Text.stopsAt_cons visible) (isBlank_of_isGap gap) blank same
  exact ⟨rest, rfl⟩

/-- What assigns the name begins with the word, blanks, and an equals sign. -/
theorem Assigns.exists_eq (assigns : Assigns (lead ++ text)) (gap : IsGap lead)
    (stops : Text.StopsAt Text.isBlankChar text) :
    ∃ trail rest, text = nameWord ++ (trail ++ '=' :: rest) ∧ IsBlank trail := by
  obtain ⟨lead', trail, rest, same, blank, blank'⟩ := assigns
  obtain ⟨-, rfl⟩ :=
    stops.append_inj (Text.stopsAt_cons (by rfl)) (isBlank_of_isGap gap) blank same
  exact ⟨trail, rest, rfl, blank'⟩

variable {entry : Toml.Entry} {names : List String} {key : List Char}

theorem stopsAt_of_isRemark {remark : List Char} (isRemark : IsRemark remark) :
    Text.StopsAt Text.isBlankChar remark := by
  cases isRemark with
  | none => exact Text.stopsAt_nil
  | comment => exact Text.stopsAt_cons (by rfl)

/-- A key does not begin with white space. -/
theorem stopsAt_of_spellsKey (spelled : SpellsKey names key) (tail : List Char) :
    Text.StopsAt Text.isBlankChar (key ++ tail) := by
  obtain ⟨c, rest, rfl, starts⟩ := spelled.exists_eq_cons
  exact Text.stopsAt_cons (isBlankChar_of_startsName starts)

theorem stopsAt_isGap_of_spellsKey (spelled : SpellsKey names key) (tail : List Char) :
    Text.StopsAt isGap (key ++ tail) := by
  obtain ⟨c, rest, rfl, starts⟩ := spelled.exists_eq_cons
  exact Text.stopsAt_cons (isGap_of_startsName starts)

/-- A key is one bare word if that stands there with a mark behind it, since a dot would come first. -/
theorem eq_of_word_mark {word tail rest : List Char} {mark : Char} (spelled : SpellsKey names key)
    (filled : word ≠ []) (bare : word.all isBare = true) (stops : Text.StopsAt isBare tail)
    (blank : IsBlank trail) (visible : Text.isBlankChar mark = false) (other : isBare mark = false)
    (undotted : mark ≠ '.') (same : key ++ tail = word ++ (trail ++ mark :: rest)) :
    names = [String.ofList word] := by
  have stops' : Text.StopsAt isBare (trail ++ mark :: rest) :=
    (Text.stopsAt_cons other).append fun c member => isBare_of_isBlankChar (blank c member)
  rcases spelled.eq_of_append_eq filled (List.all_eq_true.1 bare) stops stops' same
    with single | ⟨gap, more, isGap, dot⟩
  · exact single
  · obtain ⟨-, differ⟩ := (Text.stopsAt_cons visible).append_inj (Text.stopsAt_cons (by rfl)) blank
      (isBlank_of_isGap isGap) dot
    exact absurd (List.cons.inj differ).1 undotted

/-- No statement but a header begins with a bracket. -/
theorem isHeader_of_begins (spelled : entry.Spelled chars) (begins : Begins ['['] chars) :
    entry.isHeader = true := by
  cases spelled with
  | blank isLead isRemark =>
      obtain ⟨rest, bracket⟩ := begins.exists_eq isLead (stopsAt_of_isRemark isRemark) (by rfl)
      cases isRemark <;> cases bracket
  | pair isLead spelled =>
      obtain ⟨rest, bracket⟩ := begins.exists_eq isLead (stopsAt_of_spellsKey spelled _) (by rfl)
      obtain ⟨c, others, rfl, starts⟩ := spelled.exists_eq_cons
      cases (List.cons.inj bracket).1
      cases starts
  | table => rfl
  | element => rfl

/-- No statement begins with the header of the package table but that header. -/
theorem eq_table_of_begins (spelled : entry.Spelled chars)
    (begins : Begins packageHeader chars) : entry = .table ["package"] := by
  have header := isHeader_of_begins spelled begins.opens
  cases spelled with
  | blank => cases header
  | pair => cases header
  | table isLead isBefore spelled isAfter =>
      obtain ⟨rest, same⟩ := begins.exists_eq isLead (Text.stopsAt_cons (by rfl)) (by rfl)
      rw [List.append_assoc, List.singleton_append, List.cons.injEq] at same
      -- Inside the bracket no white space comes first, as the word has none in front.
      have word : Text.StopsAt isGap (packageWord ++ ']' :: rest) := Text.stopsAt_cons (by rfl)
      obtain ⟨-, same⟩ :=
        (stopsAt_isGap_of_spellsKey spelled _).append_inj word isBefore (List.forall_mem_nil _) same.2
      have single := eq_of_word_mark spelled (by decide) (by decide)
        (stopsAt_isBare_append isAfter (by rfl)) (List.forall_mem_nil _) (by rfl) (by rfl) (by decide)
        same
      rw [single]
      rfl
  | element isLead =>
      obtain ⟨rest, same⟩ := begins.exists_eq isLead (Text.stopsAt_cons (by rfl)) (by rfl)
      cases (List.cons.inj (List.cons.inj same).2).1

/-- No statement begins with the word `name` and an equals sign but one that gives it a value. -/
theorem eq_pair_of_assigns (spelled : entry.Spelled chars) (assigns : Assigns chars) :
    entry = .pair ["name"] := by
  cases spelled with
  | blank isLead isRemark =>
      obtain ⟨trail, rest, same, -⟩ := assigns.exists_eq isLead (stopsAt_of_isRemark isRemark)
      cases isRemark <;> cases same
  | pair isLead spelled isBefore =>
      obtain ⟨trail, rest, same, blank⟩ := assigns.exists_eq isLead (stopsAt_of_spellsKey spelled _)
      have single := eq_of_word_mark spelled (by decide) (by decide)
        (stopsAt_isBare_append isBefore (by rfl)) blank (by rfl) (by rfl) (by decide) same
      rw [single]
      rfl
  | table isLead =>
      obtain ⟨trail, rest, same, -⟩ := assigns.exists_eq isLead (Text.stopsAt_cons (by rfl))
      cases same
  | element isLead =>
      obtain ⟨trail, rest, same, -⟩ := assigns.exists_eq isLead (Text.stopsAt_cons (by rfl))
      cases same

def trimmed (line : List Char) : String := Text.trim (String.ofList line)

theorem toList_trimmed (line : List Char) :
    (trimmed line).toList = Text.stripWhile Text.isBlankChar line := by
  rw [trimmed, Text.trim, String.toList_ofList, String.toList_ofList]

/-- White space at the end of a line is not read. -/
theorem trimmed_append (blank : IsBlank trail) (line : List Char) :
    trimmed (line ++ trail) = trimmed line := by
  rw [← String.toList_inj, toList_trimmed, toList_trimmed, Text.stripWhile_append_right blank]

/-- A line that makes a difference where it stands. Outside the package table this is its header, and
inside it any header and a line that gives a name. -/
def Counts : Bool → List Char → Prop
  | false, line => IsHeader line
  | true, line => Begins ['['] line ∨ Assigns line

/-- What a line is read to begin with stands there behind white space. -/
theorem begins_of_trimmed {first : Char} (opens : (trimmed line).toList.head? = some first) :
    Begins [first] line := by
  obtain ⟨lead, trail, whole, front, -⟩ := Text.exists_append_stripWhile Text.isBlankChar line
  rw [toList_trimmed] at opens
  obtain ⟨rest, kept⟩ := List.head?_eq_some_iff.1 opens
  refine ⟨lead, rest ++ trail, ?_, front⟩
  rw [List.singleton_append, ← List.cons_append, ← kept, ← List.append_assoc, ← whole]

/-- A line that is read as the header of the package table is one. -/
theorem isHeader_of_trimmed (same : trimmed line = "[package]") : IsHeader line := by
  obtain ⟨lead, trail, whole, front, back⟩ := Text.exists_append_stripWhile Text.isBlankChar line
  have kept : Text.stripWhile Text.isBlankChar line = packageHeader := by
    rw [← toList_trimmed, same]
    decide
  exact ⟨lead, trail, by rw [← kept, ← List.append_assoc, ← whole], front, back⟩

/-- The header of the package table is read as one. -/
theorem trimmed_of_isHeader (header : IsHeader line) : trimmed line = "[package]" := by
  obtain ⟨lead, trail, rfl, front, back⟩ := header
  rw [← String.toList_inj, toList_trimmed, Text.stripWhile_append_left front,
    Text.stripWhile_append_right back]
  decide

theorem head?_trimmed (begins : Begins ['['] line) : (trimmed line).toList.head? = some '[' := by
  obtain ⟨lead, rest, rfl, front⟩ := begins
  rw [toList_trimmed, Text.stripWhile_append_left front, List.singleton_append,
    Text.stripWhile_cons (by rfl), List.head?_cons]

/-- A line that gives a name assigns one. -/
theorem assigns_of_nameOfLine? {name : String} (given : nameOfLine? (trimmed line) = some name) :
    Assigns line := by
  simp only [nameOfLine?, Option.bind_eq_bind, Option.bind_eq_some_iff] at given
  obtain ⟨⟨key, value⟩, split, given⟩ := given
  dsimp only at given
  split at given
  next named =>
      have cut := Text.eq_of_splitOnce?_eq_some split
      obtain ⟨lead, trail, whole, front, back⟩ :=
        Text.exists_append_stripWhile Text.isBlankChar line
      obtain ⟨lead', trail', key', front', back'⟩ :=
        Text.exists_append_stripWhile Text.isBlankChar key.toList
      have word : Text.stripWhile Text.isBlankChar key.toList = nameWord := by
        have same := congrArg String.toList named.1
        rw [Text.trim, String.toList_ofList] at same
        exact same.trans (by decide)
      rw [toList_trimmed] at cut
      rw [word] at key'
      refine ⟨lead ++ lead', trail', value.toList ++ trail, ?_, IsBlank.append front front', back'⟩
      rw [whole, cut, key']
      simp
  next => cases given

/-- A line that makes no difference is passed over. -/
theorem nameInTable?_cons (idle : ¬ Counts inPackage line) :
    nameInTable? inPackage (trimmed line :: more) = nameInTable? inPackage more := by
  rw [nameInTable?]
  split
  next opens =>
      cases inPackage with
      | false =>
          have other : (trimmed line == "[package]") = false :=
            beq_eq_false_iff_ne.2 fun same => idle (isHeader_of_trimmed same)
          rw [other]
      | true => exact absurd (.inl (begins_of_trimmed opens)) idle
  next =>
      cases inPackage with
      | false => rfl
      | true =>
          cases given : nameOfLine? (trimmed line) with
          | none => simp
          | some name => exact absurd (.inr (assigns_of_nameOfLine? given)) idle

/-- The header of the package table opens it, also when it is open. -/
theorem nameInTable?_of_isHeader (header : IsHeader line) :
    nameInTable? inPackage (trimmed line :: more) = nameInTable? true more := by
  rw [nameInTable?, if_pos (head?_trimmed header.begins.opens), trimmed_of_isHeader header, beq_self_eq_true]

/-- It makes no difference to a header which table it ends. -/
theorem nameInTable?_of_begins (begins : Begins ['['] line) :
    nameInTable? true (trimmed line :: more) = nameInTable? false (trimmed line :: more) := by
  rw [nameInTable?, nameInTable?, if_pos (head?_trimmed begins), if_pos (head?_trimmed begins)]

/-- Lines that make no difference are passed over. -/
theorem nameInTable?_append {lines : List (List Char)} (idle : ∀ line ∈ lines, ¬ Counts inPackage line) :
    nameInTable? inPackage (lines.map trimmed ++ more) = nameInTable? inPackage more := by
  induction lines with
  | nil => rfl
  | cons line lines ih =>
      obtain ⟨first, others⟩ := List.forall_mem_cons.1 idle
      rw [List.map_cons, List.cons_append, nameInTable?_cons first, ih others]

variable {name : List Char}

/-- A line with the header of the package table, without a comment and without white space inside. -/
inductive OpensPlainly : List Char → Prop
  | line {lead trail : List Char} (isLead : IsGap lead) (isTrail : IsGap trail) :
      OpensPlainly (lead ++ (packageHeader ++ trail))

def quote (name : List Char) : List Char := '"' :: (name ++ ['"'])

/-- A line with a name in double quotes under the bare key, without a comment. -/
inductive NamesPlainly (name : List Char) : List Char → Prop
  | line {lead before after trail : List Char} (isLead : IsGap lead) (isBefore : IsGap before)
      (isAfter : IsGap after) (isTrail : IsGap trail) :
      NamesPlainly name (lead ++ (nameWord ++ (before ++ '=' :: (after ++ (quote name ++ trail)))))

theorem notMem_of_isGap (gap : IsGap chars) : '\n' ∉ chars :=
  fun member => Bool.noConfusion (gap _ member)

/-- The header without a comment is read as the header. -/
theorem OpensPlainly.isHeader (opens : OpensPlainly line) : IsHeader line := by
  obtain @⟨lead, trail, isLead, isTrail⟩ := opens
  exact ⟨lead, trail, rfl, isBlank_of_isGap isLead, isBlank_of_isGap isTrail⟩

theorem OpensPlainly.notMem (opens : OpensPlainly line) : '\n' ∉ line := by
  obtain ⟨isLead, isTrail⟩ := opens
  exact List.not_mem_append (notMem_of_isGap isLead)
    (List.not_mem_append (by decide) (notMem_of_isGap isTrail))

theorem NamesPlainly.notMem (named : NamesPlainly name line) (plain : ∀ c ∈ name, isPlain c = true) :
    '\n' ∉ line := by
  obtain ⟨isLead, isBefore, isAfter, isTrail⟩ := named
  have unbroken : '\n' ∉ name := fun member => Bool.noConfusion (plain _ member)
  simp [notMem_of_isGap isLead, notMem_of_isGap isBefore, notMem_of_isGap isAfter,
    notMem_of_isGap isTrail, unbroken, nameWord, quote]

theorem stopsAt_quote : Text.StopsAt Text.isBlankChar (quote name) := Text.stopsAt_cons (by rfl)

theorem stopsAt_reverse_quote : Text.StopsAt Text.isBlankChar (quote name).reverse := by
  rw [quote, List.reverse_cons, List.reverse_concat]
  exact Text.stopsAt_cons (by rfl)

/-- How a line with a plain name is read: the key, the equals sign between blanks, and the quoted
name. -/
theorem trimmed_of_namesPlainly (named : NamesPlainly name line) :
    ∃ before after, IsGap before ∧ IsGap after ∧
      trimmed line = String.ofList (nameWord ++ before ++ '=' :: (after ++ quote name)) := by
  obtain @⟨lead, before, after, trail, isLead, isBefore, isAfter, isTrail⟩ := named
  refine ⟨before, after, isBefore, isAfter, ?_⟩
  have whole : lead ++ (nameWord ++ (before ++ '=' :: (after ++ (quote name ++ trail)))) =
      lead ++ ((nameWord ++ before ++ '=' :: (after ++ quote name)) ++ trail) := by simp
  have first : Text.StopsAt Text.isBlankChar (nameWord ++ before ++ '=' :: (after ++ quote name)) :=
    Text.stopsAt_cons (by rfl)
  have last : Text.StopsAt Text.isBlankChar
      (nameWord ++ before ++ '=' :: (after ++ quote name)).reverse := by
    simpa [quote] using Text.stopsAt_cons (by rfl)
  rw [whole, ← String.toList_inj, toList_trimmed, String.toList_ofList,
    Text.stripWhile_append (isBlank_of_isGap isLead) (isBlank_of_isGap isTrail) first last]

/-- The quotes around a plain name are taken off, and nothing of the name with them. -/
theorem unquoted_quote (plain : ∀ c ∈ name, isPlain c = true) :
    Text.stripWhile (· == '"') (quote name) = name := by
  have other : ∀ c ∈ name, (c == '"') = false := by
    intro c member
    have plain := plain c member
    simp [isPlain] at plain
    simp [plain]
  have quotes : ∀ c ∈ ['"'], (c == '"') = true := List.forall_mem_singleton.2 rfl
  exact Text.stripWhile_append quotes quotes (fun c first => other c (List.mem_of_head? first))
    fun c last => other c (List.mem_reverse.1 (List.mem_of_head? last))

/-- The name of a line is read as it stands there, unless it is empty. -/
theorem nameOfLine?_of_namesPlainly (named : NamesPlainly name line)
    (plain : ∀ c ∈ name, isPlain c = true) :
    nameOfLine? (trimmed line) = if name = [] then none else some (String.ofList name) := by
  obtain ⟨before, after, isBefore, isAfter, kept⟩ := trimmed_of_namesPlainly named
  have unequal : '=' ∉ nameWord ++ before :=
    List.not_mem_append (by decide) fun member => Bool.noConfusion (isBefore _ member)
  have key : Text.trim (String.ofList (nameWord ++ before)) = "name" := by
    rw [Text.trim, String.toList_ofList, Text.stripWhile_append_right (isBlank_of_isGap isBefore)]
    decide
  have value : Text.trim (String.ofList (after ++ quote name)) = String.ofList (quote name) := by
    rw [Text.trim, String.toList_ofList, Text.stripWhile_append_left (isBlank_of_isGap isAfter),
      Text.stripWhile_eq_self stopsAt_quote stopsAt_reverse_quote]
  rw [nameOfLine?, kept, Text.splitOnce?_eq_some unequal]
  simp only [Option.bind_eq_bind, Option.bind_some, key, value, String.toList_ofList,
    unquoted_quote plain]
  cases name with
  | nil => rfl
  | cons c rest => simp

/-- The first plain name in the package table is found; an empty one is passed over. -/
theorem nameInTable?_of_namesPlainly (named : NamesPlainly name line)
    (plain : ∀ c ∈ name, isPlain c = true) :
    nameInTable? true (trimmed line :: more) =
      if name = [] then nameInTable? true more else some (String.ofList name) := by
  have word : (trimmed line).toList.head? ≠ some '[' := by
    obtain ⟨before, after, -, -, kept⟩ := trimmed_of_namesPlainly named
    rw [kept, String.toList_ofList]
    nofun
  rw [nameInTable?, if_neg word, if_pos rfl, nameOfLine?_of_namesPlainly named plain]
  by_cases empty : name = []
  · rw [if_pos empty, if_pos empty]
  · rw [if_neg empty, if_neg empty]

end VersionMatrix.Manifest
