import VersionMatrix.CommandLine.Parser
import VersionMatrix.Proofs.CommandLine.Spelling
import VersionMatrix.Proofs.CommandLine.Verdict
import VersionMatrix.Proofs.Text.Occurrence

/-! Reading a command line back. Whatever way the arguments of a test run are written, the reader takes
from the words what each part gives, one after the other. -/
namespace VersionMatrix

namespace CommandOption

variable {option : CommandOption} {letter : Char}

theorem longName_ne_empty (option : CommandOption) : option.longName ≠ "" := by
  cases option with
  | value option => cases option <;> decide
  | switch switch => cases switch <;> decide
  | help => decide
  | version => decide

/-- A long name ends where an equals sign stands. -/
theorem equals_notMem_longName (option : CommandOption) : '=' ∉ option.longName.toList := by
  cases option with
  | value option => cases option <;> decide
  | switch switch => cases switch <;> decide
  | help => decide
  | version => decide

theorem letter_ne_dash (named : option.letter? = some letter) : letter ≠ '-' := by
  rintro rfl
  cases option with
  | value option => cases option <;> exact absurd named (by decide)
  | switch switch => cases switch <;> exact absurd named (by decide)
  | help => exact absurd named (by decide)
  | version => exact absurd named (by decide)

/-- No two options share a letter. -/
theorem ofLetter?_eq (named : option.letter? = some letter) :
    Scope.test.ofLetter? letter = some option := by
  rw [Scope.ofLetter?, ← named]
  cases option with
  | value option => cases option <;> first | decide | cases named
  | switch switch => cases switch <;> first | decide | cases named
  | help => decide
  | version => decide

end CommandOption

namespace ArgumentReader

variable {reader settled next : ArgumentReader} {option : ValueOption} {switch : Switch} {text word : String}
  {letters rest : List Char} {part given : List Given} {words : List String}

/-- What a reader makes of a part that is given. -/
def give (reader : ArgumentReader) : Given → Except UsageFault ArgumentReader
  | .version word =>
    .ok { reader with
      arguments := { reader.arguments with versions := reader.arguments.versions ++ [word] } }
  | .value option text => reader.store option text
  | .flag switch => reader.raise switch

/-- Neither the pending value nor what comes after two dashes matters to a value that is stored. -/
theorem store_with (reader : ArgumentReader) (option : ValueOption) (text : String)
    (pending : Option (ValueOption × Option String)) (onlyVersions : Bool) :
    store { reader with pending, onlyVersions } option text =
      (store reader option text).map fun stored => { stored with pending, onlyVersions } := by
  unfold store mark
  by_cases repeated : CommandOption.value option ∈ reader.given
  · simp only [if_pos repeated]
    rfl
  · simp only [if_neg repeated, bind, Except.bind]
    cases option with
    | concurrency => cases Text.readNumeral text <;> rfl
    | template => cases pathValue text <;> rfl
    | path => cases pathValue text <;> rfl
    | _ => rfl

theorem kept_of_store (stored : reader.store option text = .ok next) :
    next.pending = reader.pending ∧ next.onlyVersions = reader.onlyVersions := by
  have same := store_with reader option text reader.pending reader.onlyVersions
  rw [stored] at same
  have eq := Except.ok.inj same
  rw [eq]
  exact ⟨rfl, rfl⟩

theorem settle_of_pending (idle : reader.pending = none) : reader.settle = .ok reader := by
  rw [settle, idle]

/-- A reader that has looked at its pending value has none. -/
theorem kept_of_settle (settles : reader.settle = .ok settled) :
    settled.pending = none ∧ settled.onlyVersions = reader.onlyVersions := by
  unfold settle at settles
  split at settles
  next idle =>
      obtain rfl := Except.ok.inj settles
      exact ⟨idle, rfl⟩
  next => cases settles
  next => exact kept_of_store settles

theorem settle_settled (settles : reader.settle = .ok settled) : settled.settle = .ok settled :=
  settle_of_pending (kept_of_settle settles).1

/-- Two dashes do not matter to the pending value. -/
theorem settle_onlyVersions (settles : reader.settle = .ok settled) (onlyVersions : Bool) :
    ({ reader with onlyVersions } : ArgumentReader).settle = .ok { settled with onlyVersions } := by
  obtain ⟨arguments, logLevel, given, pending, before⟩ := settled
  obtain rfl : pending = none := (kept_of_settle settles).1
  unfold settle at settles ⊢
  split at settles
  next idle =>
      obtain rfl := Except.ok.inj settles
      rfl
  next => cases settles
  next option text due =>
      have stored := store_with { reader with pending := none } option text none onlyVersions
      rw [settles] at stored
      simp only [due]
      exact stored

section

variable (settles : reader.settle = .ok settled)

include settles

/-- A switch is set as if the pending value had been looked at before. -/
theorem raise_eq (switch : Switch) : reader.raise switch = settled.raise switch := by
  rw [raise, raise, settles, settle_settled settles]

/-- A word that is taken for a version is added to the versions. -/
theorem takePlain_eq (word : String) : reader.takePlain .test word = settled.give (.version word) := by
  unfold takePlain
  split
  next option due _ =>
      rw [settle, due] at settles
      cases settles
  next =>
      simp only [settles]
      rfl

/-- A value in the word of its option is stored after the pending value has been looked at. -/
theorem takeValue_eq (option : ValueOption) (text : String) :
    reader.takeValue option (some text) = settled.store option text := by
  rw [takeValue, settles]
  rfl

theorem takeValue_none (option : ValueOption) :
    reader.takeValue option none = .ok { settled with pending := some (option, none) } := by
  rw [takeValue, settles]
  rfl

end

section

variable (only : reader.onlyVersions = false)

include only

theorem take_of_plain (scope : Scope) (plain : IsPlainWord word) :
    reader.take scope word = reader.takePlain scope word := by
  rw [take, only, if_neg Bool.false_ne_true]
  split
  next dashes => exact absurd (by rw [dashes]; rfl) plain
  next dashes => exact absurd (by rw [dashes]; rfl) plain
  next => rfl
  next dash => exact absurd (by rw [dash]; rfl) plain
  next => rfl

theorem take_of_long (scope : Scope) (filled : word ≠ "") :
    reader.take scope ("--" ++ word) = reader.takeLong scope word := by
  have dashes : ("--" ++ word).toList = '-' :: '-' :: word.toList := by
    rw [String.toList_append]
    rfl
  obtain ⟨first, rest, spelled⟩ := List.exists_cons_of_ne_nil
    fun empty => filled (String.toList_eq_nil_iff.1 empty)
  rw [take, only, if_neg Bool.false_ne_true, dashes, spelled]
  simp only
  rw [← spelled, String.ofList_toList]

theorem take_of_letters (scope : Scope) {first : Char} (proper : first ≠ '-') (rest : List Char) :
    reader.take scope (String.ofList ('-' :: first :: rest)) =
      reader.takeLetters scope (first :: rest) := by
  rw [take, only, if_neg Bool.false_ne_true, String.toList_ofList]
  simp [proper]

end

/-- A reader among options. Once it has looked at its pending value it is as the other one. -/
structure Stands (reader settled : ArgumentReader) : Prop where
  settles : reader.settle = .ok settled
  only : reader.onlyVersions = false

def withSwitch (arguments : RunArguments) : Switch → RunArguments
  | .verbose => { arguments with verbose := true }
  | .cleanStaging => { arguments with cleanStaging := true }
  | .json => { arguments with json := true }

/-- A switch may be set once. -/
theorem raise_of_pending (idle : reader.pending = none) (switch : Switch) :
    reader.raise switch =
      if .switch switch ∈ reader.given then .error .repeated
      else .ok { reader with
        arguments := withSwitch reader.arguments switch
        given := reader.given ++ [.switch switch] } := by
  rw [raise, settle_of_pending idle]
  by_cases repeated : CommandOption.switch switch ∈ reader.given
  · simp only [bind, Except.bind, mark, if_pos repeated]
  · simp only [bind, Except.bind, mark, if_neg repeated]
    cases switch <;> rfl

theorem kept_of_raise (idle : reader.pending = none) (raised : reader.raise switch = .ok next) :
    next.pending = none ∧ next.onlyVersions = reader.onlyVersions := by
  rw [raise_of_pending idle] at raised
  split at raised
  next => cases raised
  next =>
      obtain rfl := Except.ok.inj raised
      exact ⟨idle, rfl⟩

theorem kept_of_give {part : Given} (idle : reader.pending = none) (gives : reader.give part = .ok next) :
    next.pending = none ∧ next.onlyVersions = reader.onlyVersions := by
  cases part with
  | version word =>
      obtain rfl := Except.ok.inj gives
      exact ⟨idle, rfl⟩
  | value option text =>
      obtain ⟨pending, only⟩ := kept_of_store gives
      exact ⟨pending.trans idle, only⟩
  | flag switch => exact kept_of_raise idle gives

theorem Stands.of_give {part : Given} (stands : Stands reader settled)
    (gives : settled.give part = .ok next) : Stands next next := by
  obtain ⟨idle, same⟩ := kept_of_settle stands.settles
  obtain ⟨idle', same'⟩ := kept_of_give idle gives
  exact ⟨settle_of_pending idle', same'.trans (same.trans stands.only)⟩

/-- The value of an option that waits for it is kept to be looked at later. -/
theorem Stands.due (stands : Stands reader settled) (stored : settled.store option text = .ok next) :
    Stands { settled with pending := some (option, some text) } next := by
  obtain ⟨idle, same⟩ := kept_of_settle stands.settles
  refine ⟨?_, same.trans stands.only⟩
  obtain ⟨arguments, logLevel, given, pending, onlyVersions⟩ := settled
  obtain rfl : pending = none := idle
  exact stored

/-- An option that waits for its value gets it with the next word. -/
theorem Stands.take_value (stands : Stands reader settled) (plain : IsPlainWord text) :
    take .test { settled with pending := some (option, none) } text =
      .ok { settled with pending := some (option, some text) } := by
  have only := (kept_of_settle stands.settles).2.trans stands.only
  rw [take_of_plain (by exact only) .test plain, takePlain]
  simp only [only]

/-- What words make of a reader that stands somewhere: it stands somewhere else. -/
def Reads (words : List String) (settled next : ArgumentReader) : Prop :=
  ∀ ⦃reader⦄, Stands reader settled →
    ∃ taken, words.foldlM (take .test) reader = .ok taken ∧ Stands taken next

theorem reads_single (taken : ∀ ⦃reader⦄, Stands reader settled →
    ∃ taken, take .test reader word = .ok taken ∧ Stands taken next) :
    Reads [word] settled next := by
  intro reader stands
  obtain ⟨taken, takes, stands⟩ := taken stands
  refine ⟨taken, ?_, stands⟩
  rw [List.foldlM_cons, takes]
  rfl

/-- A switch is raised when its letter is read. -/
theorem takeLetters_cluster {switches : List Switch} (cluster : Cluster switches letters)
    (stands : Stands reader settled) (gives : (switches.map Given.flag).foldlM give settled = .ok next)
    (rest : List Char) :
    ∃ taken, takeLetters .test reader (letters ++ rest) = takeLetters .test taken rest ∧
      Stands taken next := by
  induction cluster generalizing reader settled with
  | nil =>
      obtain rfl := Except.ok.inj gives
      exact ⟨reader, rfl, stands⟩
  | @cons switch letter switches letters named more ih =>
      rw [List.map_cons, List.foldlM_cons] at gives
      obtain ⟨middle, raised, gives⟩ := exists_of_bind_eq_ok gives
      obtain ⟨taken, same, stands'⟩ := ih (stands.of_give raised) gives
      refine ⟨taken, ?_, stands'⟩
      rw [List.cons_append, takeLetters, CommandOption.ofLetter?_eq named]
      have raises : reader.raise switch = .ok middle := (raise_eq stands.settles switch).trans raised
      simp only [raises]
      exact same

theorem dash_notMem_cluster {switches : List Switch} (cluster : Cluster switches letters) :
    '-' ∉ letters := by
  induction cluster with
  | nil => exact List.not_mem_nil
  | cons named more ih =>
      rw [List.mem_cons, not_or]
      exact ⟨(CommandOption.letter_ne_dash named).symm, ih⟩

/-- A word of letters starts with a letter of an option. -/
theorem take_letters (only : reader.onlyVersions = false) (proper : '-' ∉ letters) (filled : letters ≠ [])
    (rest : List Char) :
    take .test reader (String.ofList ('-' :: (letters ++ rest))) =
      takeLetters .test reader (letters ++ rest) := by
  obtain ⟨first, others, rfl⟩ := List.exists_cons_of_ne_nil filled
  have first_ne : first ≠ '-' := fun dash => proper (dash ▸ List.mem_cons_self)
  exact take_of_letters only .test first_ne (others ++ rest)

/-- In a word of letters an option with a value comes after the switches, and takes the rest of the word. -/
theorem exists_take_valueLetter {switches : List Switch} {middle : ArgumentReader} {letter : Char}
    (cluster : Cluster switches letters) (named : (CommandOption.value option).letter? = some letter)
    (stands : Stands reader settled) (gives : (switches.map Given.flag).foldlM give settled = .ok middle)
    (rest : List Char) :
    ∃ taken, take .test reader (String.ofList ('-' :: (letters ++ letter :: rest))) =
      taken.takeValue option (attached rest) ∧ Stands taken middle := by
  obtain ⟨taken, same, stands'⟩ := takeLetters_cluster cluster stands gives (letter :: rest)
  refine ⟨taken, ?_, stands'⟩
  have proper : '-' ∉ letters ++ [letter] := by
    rw [List.mem_append, List.mem_singleton, not_or]
    exact ⟨dash_notMem_cluster cluster, (CommandOption.letter_ne_dash named).symm⟩
  have takes := take_letters stands.only proper (by simp) rest
  rw [List.append_assoc, List.singleton_append] at takes
  rw [takes, same, takeLetters, CommandOption.ofLetter?_eq named]

/-- The long name of a switch sets it. -/
theorem takeLong_switch (reader : ArgumentReader) (switch : Switch) :
    reader.takeLong .test (CommandOption.switch switch).longName = reader.raise switch := by
  cases switch <;> rfl

/-- The long name of an option that takes a value waits for it. -/
theorem takeLong_value (reader : ArgumentReader) (option : ValueOption) :
    reader.takeLong .test (CommandOption.value option).longName = reader.takeValue option none := by
  cases option <;> rfl

/-- A value may stand behind the long name of its option and an equals sign. -/
theorem takeLong_equals (reader : ArgumentReader) (option : ValueOption) (text : String) :
    reader.takeLong .test ((CommandOption.value option).longName ++ "=" ++ text) =
      reader.takeValue option (some text) := by
  have spelled : (CommandOption.value option).longName ++ "=" ++ text =
      String.ofList ((CommandOption.value option).longName.toList ++ '=' :: text.toList) := by
    rw [← String.toList_inj, String.toList_ofList]
    simp
  rw [takeLong, spelled, Text.splitOnce?_eq_some (CommandOption.equals_notMem_longName _),
    String.ofList_toList, String.ofList_toList]
  simp only [Scope.ofLongName?_longName]

/-- A value behind a letter is taken as it is, unless it begins with an equals sign. -/
theorem attached_eq (filled : text ≠ "") (unequal : text.toList.head? ≠ some '=') :
    attached text.toList = some text := by
  unfold attached
  split
  next empty => exact absurd (String.toList_eq_nil_iff.1 empty) filled
  next equals => exact absurd (by rw [equals]; rfl) unequal
  next => rw [String.ofList_toList]

/-- An option that waits for its value has it after the next word. -/
theorem exists_take_value (stands : Stands reader settled) (plain : IsPlainWord text)
    (stored : settled.store option text = .ok next) :
    ∃ taken, [text].foldlM (take .test) { settled with pending := some (option, none) } = .ok taken ∧
      Stands taken next := by
  refine ⟨_, ?_, stands.due stored⟩
  rw [List.foldlM_cons, stands.take_value plain]
  rfl

theorem give_of_single {part : Given} (gives : [part].foldlM give settled = .ok next) :
    settled.give part = .ok next := by
  simpa using gives

theorem exists_of_foldlM_snoc {part : Given} (gives : (given ++ [part]).foldlM give settled = .ok next) :
    ∃ middle, given.foldlM give settled = .ok middle ∧ middle.give part = .ok next := by
  rw [List.foldlM_append] at gives
  obtain ⟨middle, before, gives⟩ := exists_of_bind_eq_ok gives
  exact ⟨middle, before, give_of_single gives⟩

/-- Each part of a command line is read for what it gives. -/
theorem reads_phrase (phrase : Phrase part words) (gives : part.foldlM give settled = .ok next) :
    Reads words settled next := by
  cases phrase with
  | version plain =>
      have added := give_of_single gives
      refine reads_single fun reader stands => ⟨next, ?_, stands.of_give added⟩
      rw [take_of_plain stands.only .test plain, takePlain_eq stands.settles, added]
  | longSwitch switch =>
      have raised := give_of_single gives
      refine reads_single fun reader stands => ⟨next, ?_, stands.of_give raised⟩
      rw [take_of_long stands.only .test (CommandOption.longName_ne_empty _), takeLong_switch,
        raise_eq stands.settles]
      exact raised
  | longEquals option text =>
      have stored := give_of_single gives
      refine reads_single fun reader stands => ⟨next, ?_, stands.of_give stored⟩
      rw [String.append_assoc, String.append_assoc, take_of_long stands.only .test (by simp),
        ← String.append_assoc, takeLong_equals, takeValue_eq stands.settles]
      exact stored
  | longApart option plain =>
      have stored := give_of_single gives
      intro reader stands
      rw [List.foldlM_cons, take_of_long stands.only .test (CommandOption.longName_ne_empty _),
        takeLong_value, takeValue_none stands.settles]
      exact exists_take_value stands plain stored
  | @letters switches letters cluster filled =>
      refine reads_single fun reader stands => ?_
      obtain ⟨taken, same, stands'⟩ := takeLetters_cluster cluster stands gives []
      have takes := take_letters stands.only (dash_notMem_cluster cluster) (cluster.ne_nil filled) []
      rw [List.append_nil] at takes same
      exact ⟨taken, takes.trans same, stands'⟩
  | letterEquals cluster named text =>
      obtain ⟨middle, raised, stored⟩ := exists_of_foldlM_snoc gives
      refine reads_single fun reader stands => ?_
      obtain ⟨taken, takes, stands'⟩ := exists_take_valueLetter cluster named stands raised _
      refine ⟨next, ?_, stands'.of_give stored⟩
      rw [takes, attached, String.ofList_toList, takeValue_eq stands'.settles]
      exact stored
  | letterAttached cluster named filled unequal =>
      obtain ⟨middle, raised, stored⟩ := exists_of_foldlM_snoc gives
      refine reads_single fun reader stands => ?_
      obtain ⟨taken, takes, stands'⟩ := exists_take_valueLetter cluster named stands raised _
      refine ⟨next, ?_, stands'.of_give stored⟩
      rw [takes, attached_eq filled unequal, takeValue_eq stands'.settles]
      exact stored
  | letterApart cluster named plain =>
      obtain ⟨middle, raised, stored⟩ := exists_of_foldlM_snoc gives
      intro reader stands
      obtain ⟨taken, takes, stands'⟩ := exists_take_valueLetter cluster named stands raised []
      rw [List.foldlM_cons, takes, attached, takeValue_none stands'.settles]
      exact exists_take_value stands' plain stored

/-- Versions may be given without end. -/
theorem give_versions (settled : ArgumentReader) (words : List String) :
    (words.map Given.version).foldlM give settled =
      .ok { settled with
        arguments := { settled.arguments with versions := settled.arguments.versions ++ words } } := by
  induction words generalizing settled with
  | nil =>
      rw [List.append_nil]
      rfl
  | cons word words ih =>
      rw [List.map_cons, List.foldlM_cons]
      exact (ih _).trans (by rw [List.append_assoc, List.singleton_append])

/-- Behind two dashes every word is a version. -/
theorem exists_take_versions (settles : reader.settle = .ok settled) (only : reader.onlyVersions = true)
    (gives : (words.map Given.version).foldlM give settled = .ok next) :
    ∃ taken, words.foldlM (take .test) reader = .ok taken ∧ taken.settle = .ok next := by
  induction words generalizing reader settled with
  | nil =>
      obtain rfl := Except.ok.inj gives
      exact ⟨reader, rfl, settles⟩
  | cons word words ih =>
      rw [List.map_cons, List.foldlM_cons] at gives
      obtain ⟨middle, added, gives⟩ := exists_of_bind_eq_ok gives
      have takes : take .test reader word = .ok middle := by
        rw [take, if_pos only, takePlain_eq settles, added]
      obtain ⟨idle, same⟩ := kept_of_settle settles
      obtain ⟨idle', same'⟩ := kept_of_give idle added
      obtain ⟨taken, takes', settles'⟩ :=
        ih (settle_of_pending idle') (same'.trans (same.trans only)) gives
      refine ⟨taken, ?_, settles'⟩
      rw [List.foldlM_cons, takes]
      exact takes'

/-- A command line is read for what its parts give, one after the other. -/
theorem exists_take_line (line : Line given words) (stands : Stands reader settled)
    (gives : given.foldlM give settled = .ok next) :
    ∃ taken onlyVersions, words.foldlM (take .test) reader = .ok taken ∧
      taken.settle = .ok { next with onlyVersions } := by
  induction line generalizing reader settled with
  | nil =>
      obtain rfl := Except.ok.inj gives
      exact ⟨reader, settled.onlyVersions, rfl, stands.settles⟩
  | versions words =>
      rw [give_versions] at gives
      obtain rfl := Except.ok.inj gives
      have dashes : take .test reader "--" = .ok { reader with onlyVersions := true } := by
        rw [take, stands.only]
        rfl
      obtain ⟨taken, takes, settles⟩ :=
        exists_take_versions (settle_onlyVersions stands.settles true) rfl (give_versions _ words)
      refine ⟨taken, true, ?_, settles⟩
      rw [List.foldlM_cons, dashes]
      exact takes
  | @phrase part given words rest first more ih =>
      rw [List.foldlM_append] at gives
      obtain ⟨middle, before, after⟩ := exists_of_bind_eq_ok gives
      obtain ⟨taken, takes, stands'⟩ := reads_phrase first before stands
      obtain ⟨last, onlyVersions, takes', settles⟩ := ih stands' after
      refine ⟨last, onlyVersions, ?_, settles⟩
      rw [List.foldlM_append, takes]
      exact takes'

/-- From the start on, a command line is read for what its parts give. -/
theorem exists_takeAll (line : Line given words) (gives : given.foldlM give {} = .ok next) :
    ∃ onlyVersions, takeAll .test {} words = .ok { next with onlyVersions } := by
  have stands : Stands {} {} := ⟨rfl, rfl⟩
  obtain ⟨taken, onlyVersions, takes, settles⟩ := exists_take_line line stands gives
  refine ⟨onlyVersions, ?_⟩
  rw [takeAll, takes]
  exact settles

end ArgumentReader

end VersionMatrix
