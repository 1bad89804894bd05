import VersionMatrix.Proofs.Project.ManifestLine
import VersionMatrix.Proofs.Text.Lines

/-! The name of a crate as its manifest gives it. The manifest is read line by line, without regard to
where a value of several lines ends or a comment begins, and this finds the name that the package table
gives, as long as no such line looks like one that counts. -/
namespace VersionMatrix.Manifest

open Toml

variable {chars line text : List Char} {inPackage : Bool}

/-- A carriage return at the end of a line is trimmed off with other white space. -/
theorem trim_dropReturn (line : List Char) :
    Text.trim (String.ofList (Text.dropReturn line)) = trimmed line := by
  rw [Text.dropReturn]
  split
  next returned =>
      obtain ⟨before, rfl⟩ := List.getLast?_eq_some_iff.1 returned
      rw [List.dropLast_concat, trimmed_append (List.forall_mem_singleton.2 (by rfl)), trimmed]
  next => rfl

theorem nameInTable?_concat (lines : List String) :
    nameInTable? inPackage (lines ++ [trimmed []]) = nameInTable? inPackage lines := by
  induction lines generalizing inPackage with
  | nil => cases inPackage <;> rfl
  | cons line lines ih =>
      rw [List.cons_append, nameInTable?, nameInTable?]
      simp only [ih]

/-- Neither line ends nor the piece after the last of them make a difference. -/
theorem crateName?_eq_nameInTable? (text : String) :
    crateName? text = nameInTable? false ((text.toList.splitOn '\n').map trimmed) := by
  obtain ⟨before, last, pieces, -⟩ := Text.exists_splitOn_eq text.toList
  have ended : (before.map fun line => String.ofList (Text.dropReturn line)).map Text.trim =
      before.map trimmed := by
    rw [List.map_map]
    exact List.map_congr_left fun line _ => trim_dropReturn line
  rw [crateName?, Text.lines, pieces, List.dropLast_concat, List.getLastD_concat, List.map_append, ended,
    List.map_append]
  cases last with
  | nil =>
      rw [List.isEmpty_nil, if_pos rfl, List.map_nil, List.append_nil, List.map_singleton,
        nameInTable?_concat]
  | cons c last => rfl

theorem map_trimmed_splitOn_concat (text : List Char) :
    ((text ++ ['\r']).splitOn '\n').map trimmed = (text.splitOn '\n').map trimmed := by
  obtain ⟨before, last, pieces, ends⟩ := Text.exists_splitOn_eq text
  have whole : '\n' ∉ last ++ ['\r'] := List.not_mem_append ends (by decide)
  rw [Text.splitOn_append, pieces, List.getLastD_concat, List.dropLast_concat,
    List.splitOn_eq_singleton whole, List.map_append, List.map_append, List.map_singleton,
    List.map_singleton, trimmed_append (List.forall_mem_singleton.2 (by rfl))]

/-- The trimmed lines of a document are those of its statements. -/
theorem map_trimmed_splitOn {statements : List Statement} (document : IsDocument statements text) :
    (text.splitOn '\n').map trimmed = (statements.flatMap Statement.lines).map trimmed := by
  induction document with
  | last statement => simp [Statement.lines]
  | @more statement statements ending text ended document ih =>
      rw [List.flatMap_cons, List.map_append, ← ih]
      cases ended with
      | feed =>
          rw [List.singleton_append, List.splitOn_append_cons_self, List.map_append, Statement.lines]
      -- The carriage return is left at the end of the last line, where it is trimmed.
      | returned =>
          rw [List.cons_append, List.singleton_append, List.append_cons, List.splitOn_append_cons_self,
            List.map_append, map_trimmed_splitOn_concat, Statement.lines]

theorem forall_mem_lines {P : List Char → Prop} {statement : Statement}
    (first : ∀ line rest, statement.chars = line ++ rest → P line)
    (later : ∀ line ∈ statement.lines.tail, P line) : ∀ line ∈ statement.lines, P line := by
  obtain ⟨line, rest, lines, whole, cut⟩ :=
    Text.exists_splitOn_append List.not_mem_nil statement.chars
  rw [List.nil_append, List.nil_append, ← Statement.lines] at cut
  rw [cut] at later ⊢
  exact List.forall_mem_cons.2 ⟨first line rest whole, later⟩

/-- Outside the package table, the first line of a statement counts only if it is the header. -/
theorem not_counts_outside {statement : Statement} (other : statement.entry ≠ .table ["package"])
    (idle : ∀ line ∈ statement.lines.tail, ¬ Counts false line) :
    ∀ line ∈ statement.lines, ¬ Counts false line := by
  refine forall_mem_lines (fun line rest whole header => other ?_) idle
  exact eq_table_of_begins statement.spelled (whole ▸ header.begins.append rest)

/-- Inside it, such a line counts only if it is a header or gives the name. -/
theorem not_counts_inside {statement : Statement} (within : statement.entry.isHeader = false)
    (other : statement.entry ≠ .pair ["name"])
    (idle : ∀ line ∈ statement.lines.tail, ¬ Counts true line) :
    ∀ line ∈ statement.lines, ¬ Counts true line := by
  refine forall_mem_lines (fun line rest whole counts => ?_) idle
  rcases counts with opens | assigns
  · have header := isHeader_of_begins statement.spelled (whole ▸ opens.append rest)
    exact Bool.noConfusion (header.symm.trans within)
  · exact other (eq_pair_of_assigns statement.spelled (whole ▸ assigns.append rest))

/-- The first line of a header begins with a bracket. -/
theorem exists_lines_eq {statement : Statement} (header : statement.entry.isHeader = true) :
    ∃ first later, statement.lines = first :: later ∧ Begins ['['] first := by
  obtain ⟨entry, chars, spelled⟩ := statement
  have bracket : ∃ lead rest, chars = lead ++ '[' :: rest ∧ IsGap lead := by
    cases spelled with
    | blank => cases header
    | pair => cases header
    | table isLead => exact ⟨_, _, rfl, isLead⟩
    | element isLead => exact ⟨_, _, rfl, isLead⟩
  obtain ⟨lead, rest, rfl, isLead⟩ := bracket
  have ends : '\n' ∉ lead ++ ['['] :=
    List.not_mem_append (notMem_of_isGap isLead) (by decide)
  obtain ⟨line, more, later, -, cut⟩ := Text.exists_splitOn_append ends rest
  rw [← List.append_cons] at cut
  refine ⟨_, later, cut, lead, line, ?_, isBlank_of_isGap isLead⟩
  rw [List.append_assoc]

/-- A manifest whose package table is opened by a header and gives the name as a text in double quotes in
which every character stands for itself. The table goes up to the next header. There is no other header
of it and no other name in it. -/
structure CrateManifest where
  before : List Statement
  header : Statement
  inside : List Statement
  name : List Char
  naming : List Char
  rest : List Statement
  others : List Statement
  opened : header.entry = .table ["package"]
  named : GivesText ["name"] name naming
  within : ∀ statement ∈ inside ++ rest,
    statement.entry.isHeader = false ∧ statement.entry ≠ .pair ["name"]
  closed : ∀ statement, others.head? = some statement → statement.entry.isHeader = true
  once : ∀ statement ∈ before ++ others, statement.entry ≠ .table ["package"]

/-- Behind a header that ends the package table no name is found. -/
theorem nameInTable?_of_closed {others : List Statement}
    (closed : ∀ statement, others.head? = some statement → statement.entry.isHeader = true)
    (idle : ∀ line ∈ others.flatMap Statement.lines, ¬ Counts false line) :
    nameInTable? true ((others.flatMap Statement.lines).map trimmed) = none := by
  have outside : nameInTable? false ((others.flatMap Statement.lines).map trimmed ++ []) = none :=
    nameInTable?_append idle
  rw [List.append_nil] at outside
  cases others with
  | nil => rfl
  | cons statement others =>
      obtain ⟨first, later, cut, begins⟩ := exists_lines_eq (closed statement rfl)
      rw [List.flatMap_cons, cut, List.cons_append, List.map_cons] at outside ⊢
      rw [nameInTable?_of_begins begins, outside]

namespace CrateManifest

def statements (manifest : CrateManifest) : List Statement :=
  manifest.before ++ manifest.header :: (manifest.inside ++
    ⟨.pair ["name"], manifest.naming, manifest.named.spelled⟩ :: (manifest.rest ++ manifest.others))

/-- A manifest that can be read line by line. The header and the name have their lines for themselves, and
no later line of a value is like one that counts. What comes after the name matters only if the name is
empty. -/
structure IsPlain (manifest : CrateManifest) : Prop where
  header : OpensPlainly manifest.header.chars
  naming : NamesPlainly manifest.name manifest.naming
  before : ∀ statement ∈ manifest.before, ∀ line ∈ statement.lines.tail, ¬ Counts false line
  inside : ∀ statement ∈ manifest.inside, ∀ line ∈ statement.lines.tail, ¬ Counts true line
  rest : manifest.name = [] →
    ∀ statement ∈ manifest.rest, ∀ line ∈ statement.lines.tail, ¬ Counts true line
  others : manifest.name = [] →
    ∀ statement ∈ manifest.others, ∀ line ∈ statement.lines.tail, ¬ Counts false line

variable {manifest : CrateManifest}

/-- The header and the name are read as one line each. -/
theorem map_trimmed_statements (plain : manifest.IsPlain) :
    (manifest.statements.flatMap Statement.lines).map trimmed =
      (manifest.before.flatMap Statement.lines).map trimmed ++ trimmed manifest.header.chars ::
        ((manifest.inside.flatMap Statement.lines).map trimmed ++ trimmed manifest.naming ::
          ((manifest.rest.flatMap Statement.lines).map trimmed ++
            (manifest.others.flatMap Statement.lines).map trimmed)) := by
  have header : manifest.header.lines = [manifest.header.chars] :=
    List.splitOn_eq_singleton plain.header.notMem
  have naming : Statement.lines ⟨.pair ["name"], manifest.naming, manifest.named.spelled⟩ =
      [manifest.naming] :=
    List.splitOn_eq_singleton (plain.naming.notMem manifest.named.plain)
  simp only [statements, List.flatMap_append, List.flatMap_cons, header, naming, List.map_append,
    List.map_cons, List.singleton_append]

/-- The name of a manifest is found, unless it is empty: an empty name is passed over. -/
theorem crateName?_eq {text : String} (plain : manifest.IsPlain)
    (document : IsDocument manifest.statements text.toList) :
    crateName? text = if manifest.name = [] then none else some (String.ofList manifest.name) := by
  obtain ⟨once, once'⟩ := List.forall_mem_append.1 manifest.once
  obtain ⟨within, within'⟩ := List.forall_mem_append.1 manifest.within
  have before : ∀ line ∈ manifest.before.flatMap Statement.lines, ¬ Counts false line :=
    List.forall_mem_flatMap.2 fun statement member =>
      not_counts_outside (once statement member) (plain.before statement member)
  have inside : ∀ line ∈ manifest.inside.flatMap Statement.lines, ¬ Counts true line :=
    List.forall_mem_flatMap.2 fun statement member =>
      not_counts_inside (within statement member).1 (within statement member).2
        (plain.inside statement member)
  rw [crateName?_eq_nameInTable?, map_trimmed_splitOn document, map_trimmed_statements plain,
    nameInTable?_append before, nameInTable?_of_isHeader plain.header.isHeader,
    nameInTable?_append inside, nameInTable?_of_namesPlainly plain.naming manifest.named.plain]
  split
  -- Behind an empty name the scan goes on, through the rest of the table and all others.
  next empty =>
      have rest : ∀ line ∈ manifest.rest.flatMap Statement.lines, ¬ Counts true line :=
        List.forall_mem_flatMap.2 fun statement member =>
          not_counts_inside (within' statement member).1 (within' statement member).2
            (plain.rest empty statement member)
      have others : ∀ line ∈ manifest.others.flatMap Statement.lines, ¬ Counts false line :=
        List.forall_mem_flatMap.2 fun statement member =>
          not_counts_outside (once' statement member) (plain.others empty statement member)
      rw [nameInTable?_append rest, nameInTable?_of_closed manifest.closed others]
  next => rfl

end CrateManifest

def demo : List Char := ['d', 'e', 'm', 'o']

theorem plain_demo : ∀ c ∈ demo, isPlain c = true := List.all_eq_true.1 (by decide)

theorem isRemark_demo : IsRemark ('#' :: demo) := .comment (List.all_eq_true.1 (by decide))

theorem isValue_demo : IsValue ('"' :: (demo ++ ['"'])) := .text (spellsText_of_isPlain plain_demo)

theorem spellsName_package : SpellsName "package" packageWord :=
  .bare (by decide) (List.all_eq_true.1 (by decide))

theorem spellsKey_name : SpellsKey ["name"] nameWord := spellsKey_bare (by decide) (by decide)

theorem spellsKey_demo : SpellsKey ["demo"] demo := spellsKey_bare (by decide) (by decide)

theorem isValue_other : IsValue ['"', 'x', '"'] :=
  .text (.plain (by rfl) .nil)

theorem isGap_tab : IsGap ['\t'] := by decide

/-- The package table between others that give names too. In one of these is a text of several lines, the
last of which looks like a name. -/
def sample : CrateManifest where
  before := [
    ⟨.blank, _, .blank isGap_nil isRemark_demo⟩,
    headerLine isGap_nil spellsKey_demo isGap_space isRemark_demo,
    valueLine spellsKey_demo (isValue_lines [demo, nameWord ++ ['=', 'x']] (by decide)),
    valueLine spellsKey_name isValue_other]
  header := ⟨.table ["package"], _,
    .table isGap_tab isGap_nil (.single spellsName_package) isGap_nil isGap_space .none⟩
  inside := [valueLine spellsKey_demo isValue_demo]
  name := demo
  naming := _
  rest := [⟨.blank, _, .blank isGap_nil .none⟩]
  others := [
    headerLine isGap_nil (.dotted spellsName_package isGap_nil isGap_nil spellsKey_demo) isGap_nil .none,
    valueLine spellsKey_name isValue_other,
    ⟨.element ["demo"], _, .element isGap_nil isGap_nil spellsKey_demo isGap_nil isGap_nil .none⟩,
    valueLine spellsKey_name isValue_other]
  opened := rfl
  named := .line isGap_space spellsKey_name isGap_nil isGap_tab plain_demo isGap_tab .none
  within := by decide
  closed := by rintro _ ⟨⟩; rfl
  once := by decide

/-- The sample can be read line by line. -/
theorem isPlain_sample : sample.IsPlain where
  header := .line isGap_tab isGap_space
  naming := .line isGap_space isGap_nil isGap_tab isGap_tab
  before statement member line later header := by
    have other : ∀ statement ∈ sample.before, ∀ line ∈ statement.lines.tail,
        trimmed line ≠ "[package]" := by decide
    exact other statement member line later (trimmed_of_isHeader header)
  inside statement member line later := by
    have single : ∀ statement ∈ sample.inside, statement.lines.tail = [] := by decide
    rw [single statement member] at later
    cases later
  rest := nofun
  others := nofun

def sampleText : String :=
  "#demo\n[demo] #demo\ndemo = \"\"\"\ndemo\nname=x\"\"\"\nname = \"x\"\n" ++
  "\t[package] \ndemo = \"demo\"\n name=\t\"demo\"\t\n\n" ++
  "[package.demo]\nname = \"x\"\n[[demo]]\nname = \"x\""

theorem crateName?_sampleText : crateName? sampleText = some "demo" := by
  have laidOut : sampleText.toList = joined sample.statements := by decide +kernel
  exact sample.crateName?_eq isPlain_sample (laidOut ▸ isDocument_joined _ _)

/-- A text that is a manifest with this name, but another name is found or none. -/
def Misread (text name : String) (found : Option String) : Prop :=
  (∃ manifest : CrateManifest, IsDocument manifest.statements text.toList ∧
    String.ofList manifest.name = name) ∧ crateName? text = found ∧ found ≠ some name

/-- A text with statements before the package table, one table of that name, and the name in it is a
manifest, whatever is found in it. -/
theorem misread_of_table {text : String} {found : Option String} {naming name : List Char}
    (before : List Statement) (header : Statement) (inside : List Statement)
    (named : GivesText ["name"] name naming) (opened : header.entry = .table ["package"])
    (once : ∀ statement ∈ before, statement.entry ≠ .table ["package"])
    (within : ∀ statement ∈ inside,
      statement.entry.isHeader = false ∧ statement.entry ≠ .pair ["name"])
    (same : text.toList =
      joined (before ++ header :: (inside ++ [⟨.pair ["name"], naming, named.spelled⟩])))
    (read : crateName? text = found) (wrong : found ≠ some (String.ofList name)) :
    Misread text (String.ofList name) found := by
  let manifest : CrateManifest := {
    before
    header
    inside
    name
    naming
    rest := []
    others := []
    opened
    named
    within := by simpa using within
    closed := nofun
    once := by simpa using once }
  refine ⟨⟨manifest, ?_, rfl⟩, read, wrong⟩
  rw [same]
  cases before with
  | nil => exact isDocument_joined _ _
  | cons => exact isDocument_joined _ _

def plainHeader : Statement := headerLine isGap_nil (.single spellsName_package) isGap_nil .none

theorem spellsKey_quoted {word : List Char} (plain : word.all isPlain = true) :
    SpellsKey [String.ofList word] ('"' :: (word ++ ['"'])) :=
  .single (.quoted (spellsText_of_isPlain (List.all_eq_true.1 plain)))

theorem spellsKey_quoted_package : SpellsKey ["package"] ('"' :: (packageWord ++ ['"'])) :=
  spellsKey_quoted (by decide)

theorem spellsKey_quoted_name : SpellsKey ["name"] ('"' :: (nameWord ++ ['"'])) :=
  spellsKey_quoted (by decide)

theorem givesText_demo : GivesText ["name"] demo
    (nameWord ++ ([' '] ++ '=' :: ([' '] ++ ('"' :: (demo ++ ['"']) ++ ([] ++ []))))) :=
  givesText_line spellsKey_name plain_demo isGap_nil .none

/-- A list in a list, with the inner one on a line of its own. -/
theorem isValue_nested : IsValue ['[', '\n', '[', ']', ',', '\n', ']'] :=
  have newline : IsFiller ['\n'] := .line .none .feed .nil
  .array (.more newline (.array (.none .nil)) .nil (.none newline))

/-- An empty name is passed over. A name is missed or misread after a comment behind the header, white space
in it or quotes in it, before a comment behind the name, and under a key in quotes. Lines inside a value
are taken for a name, for the end of the table and for its header.

The crate is to be called by the first name inside its package table, and only the empty name is passed
over on purpose. The other eight manifests have such a name and are read against that: comments, quoted
keys and values over several lines are slips of a reading that goes line by line. -/
theorem crateName?_misreads :
    Misread "[package]\nname = \"\"" "" none ∧
    Misread "[package] #demo\nname = \"demo\"" "demo" none ∧
    Misread "[ package ]\nname = \"demo\"" "demo" none ∧
    Misread "[\"package\"]\nname = \"demo\"" "demo" none ∧
    Misread "[package]\nname = \"demo\" #demo" "demo" (some "demo\" #demo") ∧
    Misread "[package]\n\"name\" = \"demo\"" "demo" none ∧
    Misread "[package]\ndemo = \"\"\"\nname=1\"\"\"\nname = \"demo\"" "demo" (some "1") ∧
    Misread "[package]\ndemo = [\n[],\n]\nname = \"demo\"" "demo" none ∧
    Misread "demo = \"\"\"\n[package]\nname=1\"\"\"\n[package]\nname = \"demo\"" "demo" (some "1") := by
  refine ⟨?_, ?_, ?_, ?_, ?_, ?_, ?_, ?_, ?_⟩
  · exact misread_of_table [] plainHeader []
      (givesText_line spellsKey_name (List.forall_mem_nil _) isGap_nil .none)
      rfl nofun nofun (by decide) (by decide) (by decide)
  · exact misread_of_table []
      (headerLine isGap_nil (.single spellsName_package) isGap_space isRemark_demo) []
      givesText_demo rfl nofun nofun (by decide) (by decide) (by decide)
  · exact misread_of_table [] (headerLine isGap_space (.single spellsName_package) isGap_nil .none) []
      givesText_demo rfl nofun nofun (by decide) (by decide) (by decide)
  · exact misread_of_table [] (headerLine isGap_nil spellsKey_quoted_package isGap_nil .none) []
      givesText_demo rfl nofun nofun (by decide) (by decide) (by decide)
  · exact misread_of_table [] plainHeader []
      (givesText_line spellsKey_name plain_demo isGap_space isRemark_demo)
      rfl nofun nofun (by decide) (by decide) (by decide)
  · exact misread_of_table [] plainHeader []
      (givesText_line spellsKey_quoted_name plain_demo isGap_nil .none)
      rfl nofun nofun (by decide) (by decide) (by decide)
  · exact misread_of_table [] plainHeader
      [valueLine spellsKey_demo (isValue_lines [nameWord ++ ['=', '1']] (by decide))]
      givesText_demo rfl nofun (by decide) (by decide) (by decide) (by decide)
  · exact misread_of_table [] plainHeader [valueLine spellsKey_demo isValue_nested]
      givesText_demo rfl nofun (by decide) (by decide) (by decide) (by decide)
  · exact misread_of_table
      [valueLine spellsKey_demo (isValue_lines [packageHeader, nameWord ++ ['=', '1']] (by decide))]
      plainHeader [] givesText_demo rfl (by decide) nofun (by decide) (by decide) (by decide)

end VersionMatrix.Manifest
