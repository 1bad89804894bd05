import VersionMatrix.Proofs.CommandLine.Reading
import Mathlib.Data.List.Count

/-! Parsing a command line. Any spelling of the arguments of a test run is parsed to these arguments and no
others. Two things meet in this: the reader takes in the parts of a spelling one after the other, and what
it has taken in adds up, part by part, to the arguments it holds. -/
namespace VersionMatrix

variable {given before : List Given} {part : Given} {arguments others : RunArguments}
  {logLevel other text : String} {texts : List String} {option : ValueOption} {switch : Switch}
  {words : List String} {reader : ArgumentReader}

/-- A numeral denotes one number at most. -/
theorem Denotes.eq {n m : Nat} (first : Denotes text n) (second : Denotes text m) : n = m :=
  Except.ok.inj ((Text.readNumeral_eq_ok_iff.2 first).symm.trans (Text.readNumeral_eq_ok_iff.2 second))

/-- No option is given twice. -/
theorem HasValues.length_le (values : HasValues arguments logLevel option texts) : texts.length ≤ 1 := by
  cases option with
  | concurrency => exact (List.Forall₂.length_eq values).trans_le Option.length_toList_le
  | baseImage => exact values ▸ Option.length_toList_le
  | testCommand => exact values ▸ Option.length_toList_le
  | template => exact values ▸ Option.length_toList_le
  | path => rcases values with rfl | ⟨rfl, -⟩ <;> simp
  | logLevel => rcases values with rfl | ⟨rfl, -⟩ <;> simp

theorem eq_of_toList {α : Type} {first second : Option α} (same : first.toList = second.toList) :
    first = second := by
  rw [← first.head?_toList, same, Option.head?_toList]

/-- The numeral that is given for a number tells the number. -/
theorem eq_of_forall₂_denotes {n m : Option Nat} (first : List.Forall₂ Denotes texts n.toList)
    (second : List.Forall₂ Denotes texts m.toList) : n = m := by
  cases n with
  | none =>
      obtain rfl := List.forall₂_nil_right_iff.1 first
      exact eq_of_toList (List.forall₂_nil_left_iff.1 second).symm
  | some n =>
      obtain ⟨text, rest, denotes, none, rfl⟩ := List.forall₂_cons_right_iff.1 first
      cases m with
      | none => cases second
      | some m => exact congrArg some (denotes.eq (List.forall₂_cons.1 second).1)

theorem eq_of_toNat {first second : Bool} (same : first.toNat = second.toNat) : first = second := by
  cases first <;> cases second <;> first | rfl | cases same

/-- The value that is given tells the value, and so does that none is given. -/
theorem eq_of_given_or_default {value same default : String}
    (first : texts = [value] ∨ texts = [] ∧ value = default)
    (second : texts = [same] ∨ texts = [] ∧ same = default) : value = same := by
  rcases first with rfl | ⟨rfl, rfl⟩
  · rcases second with equal | ⟨empty, -⟩
    · exact List.singleton_inj.1 equal
    · exact absurd empty (List.cons_ne_nil _ _)
  · rcases second with equal | ⟨-, equal⟩
    · exact absurd equal.symm (List.cons_ne_nil _ _)
    · exact equal.symm

/-- The versions of a command line are those of its parts, one part after the other. -/
theorem versionsOf_append (before after : List Given) :
    versionsOf (before ++ after) = versionsOf before ++ versionsOf after :=
  List.filterMap_append

theorem valuesOf_append (before after : List Given) (option : ValueOption) :
    valuesOf (before ++ after) option = valuesOf before option ++ valuesOf after option :=
  List.filterMap_append

theorem valuesOf_value (option other : ValueOption) (text : String) :
    valuesOf [.value option text] other = if option = other then [text] else [] := by
  by_cases same : option = other <;> simp [valuesOf, Given.value?, same]

/-- As many values are given for an option as it is given. -/
theorem length_valuesOf (given : List Given) (option : ValueOption) :
    (valuesOf given option).length = (given.filterMap Given.option?).count (.value option) := by
  rw [valuesOf, List.length_filterMap_eq_countP, List.count_filterMap]
  refine List.countP_congr fun part _ => ?_
  cases part <;> simp [Given.value?, Given.option?]

/-- An option that is not given has no values. -/
theorem valuesOf_eq_nil (absent : .value option ∉ given.filterMap Given.option?) :
    valuesOf given option = [] := by
  rw [← List.length_eq_zero_iff, length_valuesOf, List.count_eq_zero_of_not_mem absent]

/-- A switch is set as often as its option is given. -/
theorem count_flag (given : List Given) (switch : Switch) :
    given.count (.flag switch) = (given.filterMap Given.option?).count (.switch switch) := by
  rw [List.count_filterMap]
  refine List.countP_congr fun part _ => ?_
  cases part <;> simp [Given.option?]

theorem mem_valuesOf : text ∈ valuesOf given option ↔ .value option text ∈ given := by
  unfold valuesOf
  rw [List.mem_filterMap]
  constructor
  · rintro ⟨part, mem, value⟩
    cases part with
    | version word => cases value
    | value other text =>
        obtain ⟨rfl, same⟩ := Option.ite_none_right_eq_some.1 value
        exact Option.some.inj same ▸ mem
    | flag switch => cases value
  · exact fun mem => ⟨_, mem, if_pos rfl⟩

/-- A part that can be taken in for itself: a number is one, and a path is not empty. -/
def Acceptable : Given → Prop
  | .value .concurrency text => ∃ n, Denotes text n
  | .value .template text => text ≠ ""
  | .value .path text => text ≠ ""
  | _ => True

namespace AddsUp

/-- What is given adds up to one thing only. -/
theorem unique (first : AddsUp given arguments logLevel) (second : AddsUp given others other) :
    arguments = others ∧ logLevel = other := by
  have switches : ∀ switch, arguments.isSet switch = others.isSet switch := fun switch =>
    eq_of_toNat ((first.switches switch).symm.trans (second.switches switch))
  have concurrency := eq_of_forall₂_denotes (first.values .concurrency) (second.values .concurrency)
  have baseImage := eq_of_toList ((first.values .baseImage).symm.trans (second.values .baseImage))
  have testCommand :=
    eq_of_toList ((first.values .testCommand).symm.trans (second.values .testCommand))
  have template := eq_of_toList ((first.values .template).symm.trans (second.values .template))
  have path := eq_of_given_or_default (first.values .path) (second.values .path)
  have logLevel := eq_of_given_or_default (first.values .logLevel) (second.values .logLevel)
  refine ⟨?_, logLevel⟩
  cases arguments
  cases others
  rw [RunArguments.mk.injEq]
  exact ⟨first.versions.symm.trans second.versions, concurrency, baseImage, testCommand, template, path,
    switches .verbose, switches .cleanStaging, switches .json⟩

/-- Each option is given once. -/
theorem nodup (adds : AddsUp given arguments logLevel) : (given.filterMap Given.option?).Nodup := by
  rw [List.nodup_iff_count_le_one]
  intro option
  have never : ∀ other, (∀ part, Given.option? part ≠ some other) →
      (given.filterMap Given.option?).count other ≤ 1 := fun other none => by
    rw [List.count_eq_zero_of_not_mem fun mem => ?_]
    · exact Nat.zero_le 1
    · obtain ⟨part, -, named⟩ := List.mem_filterMap.1 mem
      exact none part named
  cases option with
  | value option => exact length_valuesOf given option ▸ (adds.values option).length_le
  | switch switch => exact count_flag given switch ▸ adds.switches switch ▸ Bool.toNat_le _
  | help => exact never .help fun part => by cases part <;> nofun
  | version => exact never .version fun part => by cases part <;> nofun

/-- Arguments whose paths are not empty are given by parts that can be taken in. -/
theorem acceptable (adds : AddsUp given arguments logLevel) (path : arguments.path ≠ "")
    (template : arguments.template ≠ some "") : ∀ part ∈ given, Acceptable part := by
  intro part mem
  cases part with
  | version word => exact trivial
  | flag switch => exact trivial
  | value option text =>
      have value := mem_valuesOf.2 mem
      have values := adds.values option
      cases option with
      | concurrency =>
          rw [HasValues] at values
          cases number : arguments.concurrency with
          | none =>
              rw [number, Option.toList_none, List.forall₂_nil_right_iff] at values
              rw [values] at value
              cases value
          | some n =>
              rw [number, Option.toList_some, List.forall₂_cons_right_iff] at values
              obtain ⟨only, rest, denotes, none, same⟩ := values
              obtain rfl := List.forall₂_nil_right_iff.1 none
              rw [same, List.mem_singleton] at value
              exact ⟨n, value ▸ denotes⟩
      | template =>
          rintro rfl
          rw [values, Option.mem_toList] at value
          exact template value
      | path =>
          rintro rfl
          rcases values with same | ⟨none, -⟩
          · rw [same, List.mem_singleton] at value
            exact path value.symm
          · rw [none] at value
            cases value
      | _ => exact trivial

end AddsUp

namespace ArgumentReader

/-- The option is noted, its value is the text, and nothing else changes. -/
structure Stores (reader : ArgumentReader) (option : ValueOption) (text : String)
    (next : ArgumentReader) : Prop where
  own : HasValues next.arguments next.logLevel option [text]
  others : ∀ other ≠ option, ∀ texts, HasValues reader.arguments reader.logLevel other texts →
    HasValues next.arguments next.logLevel other texts
  versions : next.arguments.versions = reader.arguments.versions
  switches : ∀ switch, next.arguments.isSet switch = reader.arguments.isSet switch
  given : next.given = reader.given ++ [.value option]

/-- A value that can be taken in is stored, if its option has not been given before. -/
theorem exists_stores (fresh : CommandOption.value option ∉ reader.given)
    (acceptable : Acceptable (.value option text)) :
    ∃ next, reader.store option text = .ok next ∧ reader.Stores option text next := by
  have marked : reader.mark (.value option) = .ok { reader with given := reader.given ++ [.value option] } :=
    if_neg fresh
  unfold store
  simp only [marked, bind, Except.bind]
  cases option
  case' concurrency =>
    obtain ⟨n, denotes⟩ := acceptable
    rw [Text.readNumeral_eq_ok_iff.2 denotes]
  case' template | path => rw [pathValue, if_neg acceptable]
  -- The fields of the arguments are apart, so in every case the others stay.
  all_goals
    refine ⟨_, rfl, ?_, fun other differs texts values => ?_, rfl, fun switch => ?_, rfl⟩
    rotate_left
    · cases other <;> first | exact values | exact absurd rfl differs
    · cases switch <;> rfl
  case concurrency => exact .cons denotes .nil
  case baseImage | testCommand | template => rfl
  case path | logLevel => exact .inl rfl

/-- To set a switch sets that one and leaves the others. -/
theorem isSet_withSwitch (arguments : RunArguments) (switch other : Switch) :
    (withSwitch arguments switch).isSet other = (decide (other = switch) || arguments.isSet other) := by
  cases switch <;> cases other <;> rfl

/-- To set a switch changes no value of an option. -/
theorem hasValues_withSwitch (switch : Switch) (values : HasValues arguments logLevel option texts) :
    HasValues (withSwitch arguments switch) logLevel option texts := by
  cases switch <;> cases option <;> exact values

theorem versions_withSwitch (arguments : RunArguments) (switch : Switch) :
    (withSwitch arguments switch).versions = arguments.versions := by
  cases switch <;> rfl

/-- A reader holds what these parts add up to, has noted their options, and waits for no value. -/
structure Holds (reader : ArgumentReader) (before : List Given) : Prop where
  adds : AddsUp before reader.arguments reader.logLevel
  given : reader.given = before.filterMap Given.option?
  idle : reader.pending = none

/-- One more part is taken in if its option has not been given. -/
theorem Holds.exists_give (holds : reader.Holds before) (acceptable : Acceptable part)
    (fresh : ∀ option ∈ part.option?, option ∉ before.filterMap Given.option?) :
    ∃ next, reader.give part = .ok next ∧ next.Holds (before ++ [part]) := by
  cases part with
  | version word =>
      refine ⟨_, rfl, ⟨?_, fun option => ?_, fun switch => ?_⟩, ?_, holds.idle⟩
      · rw [versionsOf_append, holds.adds.versions]
        rfl
      · rw [valuesOf_append]
        exact (List.append_nil _).symm ▸ holds.adds.values option
      · rw [List.count_append]
        exact holds.adds.switches switch
      · rw [List.filterMap_append]
        exact holds.given.trans (List.append_nil _).symm
  | value option text =>
      have absent := fresh _ rfl
      obtain ⟨next, stored, stores⟩ := exists_stores (holds.given ▸ absent) acceptable
      refine ⟨next, stored, ⟨?_, fun other => ?_, fun switch => ?_⟩, ?_, ?_⟩
      · rw [versionsOf_append, stores.versions, ← holds.adds.versions]
        exact List.append_nil _
      · rw [valuesOf_append, valuesOf_value]
        split
        next same =>
            subst same
            rw [valuesOf_eq_nil absent]
            exact stores.own
        next differ =>
            rw [List.append_nil]
            exact stores.others other (Ne.symm differ) _ (holds.adds.values other)
      · rw [List.count_append, stores.switches]
        exact holds.adds.switches switch
      · rw [List.filterMap_append, stores.given, holds.given]
        rfl
      · exact (kept_of_store stored).1.trans holds.idle
  | flag switch =>
      have absent := fresh _ rfl
      refine ⟨_, (raise_of_pending holds.idle switch).trans (if_neg (holds.given ▸ absent)),
        ⟨?_, fun option => ?_, fun other => ?_⟩, ?_, holds.idle⟩
      · rw [versionsOf_append, versions_withSwitch, ← holds.adds.versions]
        exact List.append_nil _
      · rw [valuesOf_append]
        exact hasValues_withSwitch switch ((List.append_nil _).symm ▸ holds.adds.values option)
      · rw [List.count_append, isSet_withSwitch]
        by_cases same : other = switch
        · subst same
          rw [count_flag, List.count_eq_zero_of_not_mem absent, List.count_singleton_self,
            decide_eq_true rfl]
          rfl
        · have elsewhere : Given.flag other ∉ [Given.flag switch] := by simpa using same
          rw [decide_eq_false same, Bool.false_or, ← holds.adds.switches other,
            List.count_eq_zero_of_not_mem elsewhere, Nat.add_zero]
      · rw [List.filterMap_append, holds.given]
        rfl

/-- Parts are taken in one after the other if each option is given once. -/
theorem Holds.exists_foldlM (holds : reader.Holds before)
    (once : ((before ++ given).filterMap Given.option?).Nodup)
    (acceptable : ∀ part ∈ given, Acceptable part) :
    ∃ next, given.foldlM give reader = .ok next ∧ next.Holds (before ++ given) := by
  induction given generalizing reader before with
  | nil => exact ⟨reader, rfl, (List.append_nil before).symm ▸ holds⟩
  | cons part given ih =>
      obtain ⟨suits, acceptable⟩ := List.forall_mem_cons.1 acceptable
      have fresh : ∀ option ∈ part.option?, option ∉ before.filterMap Given.option? := by
        intro option named repeated
        rw [List.filterMap_append, List.nodup_append] at once
        have later : option ∈ (part :: given).filterMap Given.option? :=
          List.mem_filterMap.2 ⟨part, List.mem_cons_self, named⟩
        exact once.2.2 option repeated option later rfl
      obtain ⟨middle, gives, holds⟩ := holds.exists_give suits fresh
      rw [← List.singleton_append, ← List.append_assoc] at once ⊢
      obtain ⟨next, gives', holds⟩ := ih holds once acceptable
      refine ⟨next, ?_, holds⟩
      rw [List.singleton_append, List.foldlM_cons, gives]
      exact gives'

end ArgumentReader

/-- The usual numeral of a number of 64 bits denotes it. -/
theorem denotes_repr {n : Nat} (fits : n < Text.wordLimit) : Denotes n.repr n := by
  have digits : ∀ c ∈ Nat.toDigits 10 n, c.isDigit = true := fun _ => Text.isDigit_of_mem_toDigits
  exact ⟨⟨_, .inl n.toList_repr, Nat.toDigits_ne_nil, digits, Nat.ofDigitChars_ten_toDigits⟩, fits⟩

/-- The value of an option, as text. The path and the log level always have one. -/
def valueText? (arguments : RunArguments) (logLevel : String) : ValueOption → Option String
  | .concurrency => arguments.concurrency.map Nat.repr
  | .baseImage => arguments.baseImage
  | .testCommand => arguments.testCommand
  | .template => arguments.template
  | .path => some arguments.path
  | .logLevel => some logLevel

/-- The value that arguments have for an option may be given for it. -/
theorem hasValues_valueText? (fits : ∀ n, arguments.concurrency = some n → n < Text.wordLimit)
    (option : ValueOption) :
    HasValues arguments logLevel option (valueText? arguments logLevel option).toList := by
  cases option with
  | concurrency =>
      rw [HasValues, valueText?]
      cases number : arguments.concurrency with
      | none => exact .nil
      | some n => exact .cons (denotes_repr (fits n number)) .nil
  | path => exact .inl rfl
  | logLevel => exact .inl rfl
  | _ => exact rfl

/-- The options that give these arguments, each that has a value and each switch that is set. -/
def optionsOf (arguments : RunArguments) (logLevel : String) : List Given :=
  [ValueOption.concurrency, .baseImage, .testCommand, .template, .path, .logLevel].flatMap
      (fun option => (valueText? arguments logLevel option).toList.map (.value option)) ++
    ([Switch.verbose, .cleanStaging, .json].filter arguments.isSet).map .flag

/-- Of the options that give some arguments, each switch that is set stands there once. -/
theorem count_flag_optionsOf (arguments : RunArguments) (logLevel : String) (switch : Switch) :
    (optionsOf arguments logLevel).count (.flag switch) = (arguments.isSet switch).toNat := by
  have injective : Function.Injective Given.flag := fun _ _ same => Given.flag.inj same
  rw [optionsOf, List.count_append, List.count_eq_zero_of_not_mem (by simp), Nat.zero_add,
    List.count_map_of_injective _ _ injective]
  cases set : arguments.isSet switch with
  | false => exact List.count_eq_zero_of_not_mem fun mem => by simp [set] at mem
  | true =>
      rw [List.count_filter set]
      cases switch <;> rfl

/-- Of the options that give some arguments, each that has a value stands there once. -/
theorem valuesOf_optionsOf (arguments : RunArguments) (logLevel : String) (option : ValueOption) :
    valuesOf (optionsOf arguments logLevel) option = (valueText? arguments logLevel option).toList := by
  cases option <;> simp [optionsOf, valuesOf, Given.value?, List.filterMap_map, Function.comp_def]

theorem version?_of_mem_optionsOf (mem : part ∈ optionsOf arguments logLevel) : part.version? = none := by
  cases part with
  | version word => simp [optionsOf] at mem
  | _ => rfl

/-- Options and then the versions give everything. -/
theorem addsUp_optionsOf (fits : ∀ n, arguments.concurrency = some n → n < Text.wordLimit) :
    AddsUp (optionsOf arguments logLevel ++ arguments.versions.map .version) arguments logLevel := by
  refine ⟨?_, fun option => ?_, fun switch => ?_⟩
  · have none : versionsOf (optionsOf arguments logLevel) = [] :=
      List.filterMap_eq_nil_iff.2 fun _ => version?_of_mem_optionsOf
    rw [versionsOf_append, none, List.nil_append, versionsOf, List.filterMap_map]
    exact List.filterMap_some
  · rw [valuesOf_append, valuesOf_optionsOf]
    have none : valuesOf (arguments.versions.map .version) option = [] := by
      simp [valuesOf, Given.value?]
    rw [none, List.append_nil]
    exact hasValues_valueText? fits option
  · rw [List.count_append, count_flag_optionsOf, List.count_eq_zero_of_not_mem (by simp), Nat.add_zero]

/-- Options and then versions can be written behind dashes. -/
theorem exists_line {options : List Given} (versions : List String)
    (named : ∀ part ∈ options, part.version? = none) :
    ∃ first rest, Line (options ++ versions.map .version) (("--" ++ first) :: rest) := by
  induction options with
  | nil => exact ⟨"", versions, .versions versions⟩
  | cons part options ih =>
      obtain ⟨unversioned, named⟩ := List.forall_mem_cons.1 named
      obtain ⟨first, rest, line⟩ := ih named
      cases part with
      | version word => cases unversioned
      | value option text =>
          have spelled := Phrase.longEquals option text
          rw [String.append_assoc, String.append_assoc] at spelled
          exact ⟨_, _, Line.phrase spelled line⟩
      | flag switch => exact ⟨_, _, Line.phrase (.longSwitch switch) line⟩

/-- Nothing that is given adds up to the defaults. -/
theorem addsUp_nil : AddsUp [] {} "warn" where
  versions := rfl
  values option := by
    cases option with
    | concurrency => exact .nil
    | path => exact .inr ⟨rfl, rfl⟩
    | logLevel => exact .inr ⟨rfl, rfl⟩
    | _ => exact rfl
  switches switch := by cases switch <;> rfl

/-- The reader has taken in the arguments at the end of the line. -/
theorem exists_takeAll_of_addsUp (line : Line given words) (adds : AddsUp given arguments logLevel)
    (path : arguments.path ≠ "") (template : arguments.template ≠ some "") :
    ∃ reader, ArgumentReader.takeAll .test {} words = .ok reader ∧ reader.arguments = arguments ∧
      reader.logLevel = logLevel := by
  have holds : ArgumentReader.Holds {} [] := ⟨addsUp_nil, rfl, rfl⟩
  obtain ⟨next, gives, holds⟩ := holds.exists_foldlM adds.nodup (adds.acceptable path template)
  obtain ⟨onlyVersions, takes⟩ := ArgumentReader.exists_takeAll line gives
  obtain ⟨same, level⟩ := holds.adds.unique adds
  exact ⟨_, takes, same, level⟩

namespace Invocation

/-- A line that names no subcommand is that of a test run. -/
theorem parse_of_notMem (plain : ∀ first, words.head? = some first → first ∉ ["ls", "list", "help"]) :
    parse words = (ArgumentReader.takeAll .test {} words).map fun reader =>
      { command := .test reader.arguments, logLevel := reader.logLevel } := by
  cases words with
  | nil => rfl
  | cons first rest =>
      have unnamed := plain first rfl
      simp only [List.mem_cons, List.not_mem_nil, or_false, not_or] at unnamed
      obtain ⟨ls, list, help⟩ := unnamed
      have notList : first ∉ listNames := by simp [listNames, ls, list]
      rw [parse, if_neg notList, if_neg help]
      cases ArgumentReader.takeAll .test {} (first :: rest) <;> rfl

/-- Every test run can be asked for if its number can be written and its paths are not empty. -/
theorem exists_parse_eq (fits : ∀ n, arguments.concurrency = some n → n < Text.wordLimit)
    (path : arguments.path ≠ "") (template : arguments.template ≠ some "") :
    ∃ words, parse words = .ok { command := .test arguments, logLevel } := by
  have named : ∀ part ∈ optionsOf arguments logLevel, part.version? = none :=
    fun _ => version?_of_mem_optionsOf
  obtain ⟨first, rest, line⟩ := exists_line arguments.versions named
  obtain ⟨reader, takes, rfl, rfl⟩ :=
    exists_takeAll_of_addsUp line (addsUp_optionsOf fits) path template
  refine ⟨_, (parse_of_notMem fun word same => ?_).trans (by rw [takes]; rfl)⟩
  obtain rfl := Option.some.inj same
  have dash : ("--" ++ first).toList.head? = some '-' := by
    rw [String.toList_append]
    rfl
  intro named
  simp only [List.mem_cons, List.not_mem_nil, or_false] at named
  rcases named with same | same | same <;> exact absurd (same ▸ dash) (by decide)

/-- Any spelling of the arguments of a test run and of the log level is parsed to these. A line whose first
word names a subcommand is none. -/
theorem parse_line (line : Line given words) (adds : AddsUp given arguments logLevel)
    (path : arguments.path ≠ "") (template : arguments.template ≠ some "")
    (plain : ∀ first, words.head? = some first → first ∉ ["ls", "list", "help"]) :
    parse words = .ok { command := .test arguments, logLevel } := by
  obtain ⟨reader, takes, rfl, rfl⟩ := exists_takeAll_of_addsUp line adds path template
  rw [parse_of_notMem plain, takes]
  rfl

/-- Letters in one word, values of both kinds, the name of the subcommand as a version, and an
option behind two dashes. -/
theorem parse_line_mixed :
    parse ["-vc2", "5.0.0", "--path=a=b", "-l", "x", "ls", "--", "--x"] =
      .ok { command := .test
              { versions := ["5.0.0", "ls", "--x"], concurrency := some 2, path := "a=b", verbose := true },
            logLevel := "x" } := by
  have line : Line
      [.flag .verbose, .value .concurrency "2", .version "5.0.0", .value .path "a=b", .value .logLevel "x",
        .version "ls", .version "--x"]
      ["-vc2", "5.0.0", "--path=a=b", "-l", "x", "ls", "--", "--x"] :=
    .phrase
      (.letterAttached (.cons rfl .nil) rfl (by decide) (by decide) :
        Phrase [.flag .verbose, .value .concurrency "2"] ["-vc2"])
      (.phrase (.version (by decide))
        (.phrase (.longEquals .path "a=b" : Phrase _ ["--path=a=b"])
          (.phrase (.letterApart .nil rfl (by decide))
            (.phrase (.version (by decide)) (.versions ["--x"])))))
  have two : Denotes "2" 2 := Text.readNumeral_eq_ok_iff.1 (by rfl)
  refine parse_line line ⟨rfl, fun option => ?_, fun switch => ?_⟩ (by decide) (by decide) (by simp)
  · cases option with
    | concurrency => exact .cons two .nil
    | path => exact .inl rfl
    | logLevel => exact .inl rfl
    | _ => exact rfl
  · cases switch <;> rfl

/-- A value that starts with an equals sign loses it in the word of its letter, and an empty value is none
there. -/
theorem exists_attached_misread :
    parse ["-p" ++ "=x"] = .ok { command := .test { path := "x" } } ∧
      parse ["-l" ++ ""] = .error .missingValue := by
  decide

end Invocation

end VersionMatrix
