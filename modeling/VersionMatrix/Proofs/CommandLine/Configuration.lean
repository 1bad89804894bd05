import VersionMatrix.Proofs.CommandLine.Override
import VersionMatrix.Proofs.Text.Numeral
import VersionMatrix.Proofs.Text.Trim

/-! What the runs can rely on in a configuration that was accepted. A setting is read by one rule, whether
a variable makes it or an argument does, so that the two ways have the same effect. -/
namespace VersionMatrix

open Text

/-- What arguments ask for in a setting would do, if they ask for anything. -/
def Setting.Fits (arguments : RunArguments) : Setting → Prop
  | .concurrency => ∀ count, arguments.concurrency = some count → count ≠ 0
  | .baseImage => ∀ value, arguments.baseImage = some value → trim value ≠ ""
  | .testCommand => ∀ value, arguments.testCommand = some value → words value ≠ []
  | .retain => True

namespace RunConfig

/-- What the runs rely on in a configuration. -/
structure Usable (config : RunConfig) : Prop where
  concurrency : 1 ≤ config.concurrency
  baseImage : config.baseImage ≠ "" ∧ IsTrimmed config.baseImage
  testCommand : config.testCommand ≠ [] ∧ ∀ word ∈ config.testCommand, IsWord word

/-- The texts of a configuration are as reading leaves them. -/
structure Tidy (config : RunConfig) : Prop where
  baseImage : IsTrimmed config.baseImage
  testCommand : ∀ word ∈ config.testCommand, IsWord word

/-- A text asks for this number of runs at a time. -/
def IsLimit (value : String) (n : Nat) : Prop :=
  WritesNumber (trim value) n ∧ 1 ≤ n ∧ n < 2 ^ 64

variable {config resolved : RunConfig} {environment other : Environment}
  {arguments others : RunArguments} {concurrency : Nat} {retain : RetainPolicy} {value : String}

/-- What an environment asks for is read into tidy texts. -/
theorem Tidy.askedIn (tidy : config.Tidy) : (config.askedIn environment concurrency retain).Tidy where
  baseImage := by
    rw [RunConfig.askedIn, baseImageIn]
    cases environment.lookup "AUTOCHECKER_BASE_IMAGE" with
    | none => exact tidy.baseImage
    | some value => exact isTrimmed_trim value
  testCommand := by
    rw [RunConfig.askedIn, testCommandIn]
    cases environment.lookup "AUTOCHECKER_TEST_CMD" with
    | none => exact tidy.testCommand
    | some value => exact fun _ => isWord_of_mem_words

/-- Arguments are read into tidy texts as variables are. -/
theorem Tidy.override (tidy : config.Tidy) : (config.override arguments).Tidy where
  baseImage := by
    rw [RunConfig.override]
    cases arguments.baseImage with
    | none => exact tidy.baseImage
    | some value => exact isTrimmed_trim value
  testCommand := by
    rw [RunConfig.override]
    cases arguments.testCommand with
    | none => exact tidy.testCommand
    | some value => exact fun _ => isWord_of_mem_words

/-- The configuration before environment and arguments is tidy. -/
theorem tidy_initial (concurrency : Nat) (stagingRoot : String) :
    Tidy { concurrency, stagingRoot } where
  baseImage := by
    have same : trim "mhart/alpine-node" = "mhart/alpine-node" := by decide
    exact same ▸ isTrimmed_trim "mhart/alpine-node"
  testCommand := by
    have same : words "npm test" = ["npm", "test"] := by decide
    intro word member
    exact isWord_of_mem_words (same ▸ member)

/-- A tidy configuration that passes the validation is one that runs can rely on. -/
theorem Tidy.usable (tidy : config.Tidy) (valid : config.validate = .ok ()) : config.Usable := by
  obtain ⟨positive, image, command⟩ := validate_eq_ok_iff.1 valid
  exact ⟨Nat.pos_of_ne_zero positive, ⟨image, tidy.baseImage⟩, command, tidy.testCommand⟩

/-- Once the two readings that can fail have succeeded, what is left are the two validations. -/
theorem resolve_of_read (limit : config.limitIn environment = .ok concurrency)
    (policy : config.retainIn environment = .ok retain) :
    config.resolve environment arguments = do
      (config.askedIn environment concurrency retain).validate
      ((config.askedIn environment concurrency retain).override arguments).validate
      return (config.askedIn environment concurrency retain).override arguments := by
  rw [resolve_eq, limit, policy]
  rfl

/-- A configuration is settled exactly if both readings succeed and it is valid without the
arguments and with them. -/
theorem resolve_eq_ok_iff :
    config.resolve environment arguments = .ok resolved ↔ ∃ concurrency retain,
      config.limitIn environment = .ok concurrency ∧ config.retainIn environment = .ok retain ∧
        (config.askedIn environment concurrency retain).validate = .ok () ∧
        resolved.validate = .ok () ∧
        (config.askedIn environment concurrency retain).override arguments = resolved := by
  constructor
  · intro settled
    rw [resolve_eq] at settled
    obtain ⟨concurrency, limit, settled⟩ := exists_of_bind_eq_ok settled
    obtain ⟨retain, policy, settled⟩ := exists_of_bind_eq_ok settled
    obtain ⟨_, accepted, settled⟩ := exists_of_bind_eq_ok settled
    obtain ⟨_, valid, same⟩ := exists_of_bind_eq_ok settled
    obtain rfl := Except.ok.inj same
    exact ⟨concurrency, retain, limit, policy, accepted, valid, rfl⟩
  · rintro ⟨concurrency, retain, limit, policy, accepted, valid, rfl⟩
    rw [resolve_of_read limit policy, accepted, valid]
    rfl

/-- Every configuration that is settled is one that runs can rely on. -/
theorem Tidy.usable_of_resolve (tidy : config.Tidy)
    (settled : config.resolve environment arguments = .ok resolved) : resolved.Usable := by
  obtain ⟨_, _, -, -, -, valid, rfl⟩ := resolve_eq_ok_iff.1 settled
  exact tidy.askedIn.override.usable valid

/-- A variable is read as a number exactly if its text, without the white space around it, writes
that number and the number fits 64 bits. -/
theorem number_eq_ok_iff {key : String} :
    number key value = .ok concurrency ↔ WritesNumber (trim value) concurrency ∧ concurrency < 2 ^ 64 := by
  rw [show (2 ^ 64 : Nat) = wordLimit from rfl, ← readNumeral_eq_ok_iff, number]
  cases readNumeral (trim value) <;> simp

theorem limitIn_of_lookup (given : environment.lookup "TEST_LIMIT" = some value) :
    config.limitIn environment = number "TEST_LIMIT" value := by
  rw [limitIn, given]

/-- An invocation that is accepted has read its limit, which is one that can be asked for. -/
theorem isLimit_of_resolve (given : environment.lookup "TEST_LIMIT" = some value)
    (settled : config.resolve environment arguments = .ok resolved) :
    ∃ n, IsLimit value n ∧ resolved.concurrency = arguments.concurrency.getD n := by
  obtain ⟨n, retain, limit, -, accepted, -, rfl⟩ := resolve_eq_ok_iff.1 settled
  rw [limitIn_of_lookup given, number_eq_ok_iff] at limit
  obtain ⟨positive, -, -⟩ := validate_eq_ok_iff.1 accepted
  exact ⟨n, ⟨limit.1, Nat.pos_of_ne_zero positive, limit.2⟩, rfl⟩

theorem getD_map_ne {α β : Type} {given : Option α} {read : α → β} {default improper : β}
    (fits : ∀ value, given = some value → read value ≠ improper) (proper : default ≠ improper) :
    (given.map read).getD default ≠ improper := by
  cases given with
  | none => exact proper
  | some value => exact fits value rfl

theorem getD_concurrency_ne (fits : Setting.concurrency.Fits arguments) (positive : concurrency ≠ 0) :
    arguments.concurrency.getD concurrency ≠ 0 := by
  have counts : (arguments.concurrency.map id).getD concurrency ≠ 0 := getD_map_ne fits positive
  rwa [Option.map_id] at counts

/-- Arguments change nothing in what a check finds if they leave a setting alone, or if they and the
configuration both have something proper for it. -/
theorem validate_override
    (count : arguments.concurrency = none ∨
      config.concurrency ≠ 0 ∧ Setting.concurrency.Fits arguments)
    (image : arguments.baseImage = none ∨ config.baseImage ≠ "" ∧ Setting.baseImage.Fits arguments)
    (command : arguments.testCommand = none ∨
      config.testCommand ≠ [] ∧ Setting.testCommand.Fits arguments) :
    (config.override arguments).validate = config.validate := by
  refine validate_congr ?_ ?_ ?_
  · rcases count with unasked | ⟨positive, fits⟩
    · rw [override, unasked, Option.getD_none]
    · exact iff_of_false (getD_concurrency_ne fits positive) positive
  · rcases image with unasked | ⟨proper, fits⟩
    · rw [override, unasked, Option.map_none, Option.getD_none]
    · exact iff_of_false (getD_map_ne fits proper) proper
  · rcases command with unasked | ⟨proper, fits⟩
    · rw [override, unasked, Option.map_none, Option.getD_none]
    · exact iff_of_false (getD_map_ne fits proper) proper

/-- Such a limit is read, so that an invocation with nothing wrong in it otherwise is accepted. -/
theorem exists_resolve_of_isLimit {n : Nat} (given : environment.lookup "TEST_LIMIT" = some value)
    (asks : IsLimit value n)
    (accepted : ∀ setting : Setting, setting ≠ .concurrency → setting.Accepted config environment)
    (fits : ∀ setting : Setting, setting.Fits arguments) :
    ∃ resolved, config.resolve environment arguments = .ok resolved := by
  obtain ⟨writes, positive, small⟩ := asks
  have limit : config.limitIn environment = .ok n := by
    rw [limitIn_of_lookup given, number_eq_ok_iff]
    exact ⟨writes, small⟩
  obtain ⟨retain, policy⟩ := accepted .retain (by decide)
  have image : config.baseImageIn environment ≠ "" := accepted .baseImage (by decide)
  have command : config.testCommandIn environment ≠ [] := accepted .testCommand (by decide)
  have counts : n ≠ 0 := Nat.ne_of_gt positive
  have valid : (config.askedIn environment n retain).validate = .ok () :=
    validate_eq_ok_iff.2 ⟨counts, image, command⟩
  refine ⟨_, resolve_eq_ok_iff.2 ⟨n, retain, limit, policy, valid, ?_, rfl⟩⟩
  rw [validate_override (.inr ⟨counts, fits .concurrency⟩) (.inr ⟨image, fits .baseImage⟩)
    (.inr ⟨command, fits .testCommand⟩), valid]

/-- To make the same check a second time changes nothing. -/
theorem check_twice {ε α : Type} (check : Except ε Unit) (value : α) :
    (do check; check; return value) = (do check; return value : Except ε α) := by
  cases check <;> rfl

/-- Two invocations come to the same if they override what their environments ask for to the same. One of
the environments is accepted, and the other is refused for nothing but what is left after overriding. -/
theorem resolve_eq_resolve (limit : config.limitIn environment = .ok concurrency)
    (limit' : config.limitIn other = .ok concurrency) (policy : config.retainIn environment = .ok retain)
    (policy' : config.retainIn other = .ok retain)
    (same : (config.askedIn environment concurrency retain).override arguments =
      (config.askedIn other concurrency retain).override others)
    (accepted : (config.askedIn environment concurrency retain).validate = .ok ())
    (checked : (config.askedIn other concurrency retain).validate =
      ((config.askedIn other concurrency retain).override others).validate) :
    config.resolve environment arguments = config.resolve other others := by
  rw [resolve_of_read limit policy, resolve_of_read limit' policy', checked, check_twice, accepted, same]
  rfl

section

variable (accepted : ∀ setting : Setting, setting.Accepted config environment)

include accepted

/-- A base image that is given as an argument is settled as if it stood in the environment, if the
other arguments do no harm there. -/
theorem resolve_baseImage (fits : ∀ setting : Setting, setting ≠ .baseImage → setting.Fits arguments)
    (value : String) :
    config.resolve environment { arguments with baseImage := some value } =
      config.resolve (("AUTOCHECKER_BASE_IMAGE", value) :: environment)
        { arguments with baseImage := none } := by
  obtain ⟨concurrency, limit, positive⟩ := accepted .concurrency
  obtain ⟨retain, policy⟩ := accepted .retain
  have command : config.testCommandIn environment ≠ [] := accepted .testCommand
  refine resolve_eq_resolve limit ?_ policy ?_ ?_ ?_ ?_
  · simpa [limitIn, List.lookup_cons] using limit
  · simpa [retainIn, List.lookup_cons] using policy
  · simp [override, askedIn, baseImageIn, testCommandIn, List.lookup_cons]
  · exact validate_eq_ok_iff.2 ⟨positive, accepted .baseImage, command⟩
  · -- The number and the command are in order on either side, so that the image alone decides.
    have kept : config.testCommandIn (("AUTOCHECKER_BASE_IMAGE", value) :: environment) ≠ [] := by
      simpa [testCommandIn, List.lookup_cons] using command
    refine (validate_override ?_ ?_ ?_).symm
    · exact .inr ⟨positive, fits .concurrency (by decide)⟩
    · exact .inl rfl
    · exact .inr ⟨kept, fits .testCommand (by decide)⟩

/-- A test command that is given as an argument is settled as if it stood in the environment, if the
other arguments do no harm there. -/
theorem resolve_testCommand (fits : ∀ setting : Setting, setting ≠ .testCommand → setting.Fits arguments)
    (value : String) :
    config.resolve environment { arguments with testCommand := some value } =
      config.resolve (("AUTOCHECKER_TEST_CMD", value) :: environment)
        { arguments with testCommand := none } := by
  obtain ⟨concurrency, limit, positive⟩ := accepted .concurrency
  obtain ⟨retain, policy⟩ := accepted .retain
  have image : config.baseImageIn environment ≠ "" := accepted .baseImage
  refine resolve_eq_resolve limit ?_ policy ?_ ?_ ?_ ?_
  · simpa [limitIn, List.lookup_cons] using limit
  · simpa [retainIn, List.lookup_cons] using policy
  · simp [override, askedIn, baseImageIn, testCommandIn, List.lookup_cons]
  · exact validate_eq_ok_iff.2 ⟨positive, image, accepted .testCommand⟩
  · have kept : config.baseImageIn (("AUTOCHECKER_TEST_CMD", value) :: environment) ≠ "" := by
      simpa [baseImageIn, List.lookup_cons] using image
    refine (validate_override ?_ ?_ ?_).symm
    · exact .inr ⟨positive, fits .concurrency (by decide)⟩
    · exact .inr ⟨kept, fits .baseImage (by decide)⟩
    · exact .inl rfl

end

/-- What an accepted invocation is configured to do, whatever the environment holds and the arguments say.
The configuration is usable. A limit is accepted exactly if it is the numeral of a number that can be asked
for, and it is the number of runs at a time unless the arguments give another one. A base image or a test
command has one effect, be it a configuration or a refusal, whether an argument gives it or a variable,
provided that all other settings would do. -/
theorem resolve_settles (processors : Nat) (temporary : String) (environment : Environment)
    (arguments : RunArguments) :
    let config : RunConfig := { concurrency := processors, stagingRoot := temporary }
    (∀ resolved, config.resolve environment arguments = .ok resolved → resolved.Usable) ∧
    (∀ value, environment.lookup "TEST_LIMIT" = some value →
      (∀ resolved, config.resolve environment arguments = .ok resolved →
        ∃ n, IsLimit value n ∧ resolved.concurrency = arguments.concurrency.getD n) ∧
      ((∀ setting : Setting, setting ≠ .concurrency → setting.Accepted config environment) →
        (∀ setting : Setting, setting.Fits arguments) →
        ((∃ resolved, config.resolve environment arguments = .ok resolved) ↔ ∃ n, IsLimit value n))) ∧
    ((∀ setting : Setting, setting.Accepted config environment) → ∀ value,
      ((∀ setting : Setting, setting ≠ .baseImage → setting.Fits arguments) →
        config.resolve environment { arguments with baseImage := some value } =
          config.resolve (("AUTOCHECKER_BASE_IMAGE", value) :: environment)
            { arguments with baseImage := none }) ∧
      ((∀ setting : Setting, setting ≠ .testCommand → setting.Fits arguments) →
        config.resolve environment { arguments with testCommand := some value } =
          config.resolve (("AUTOCHECKER_TEST_CMD", value) :: environment)
            { arguments with testCommand := none })) := by
  intro config
  refine ⟨fun resolved settled => (tidy_initial processors temporary).usable_of_resolve settled,
    fun value given => ⟨fun resolved => isLimit_of_resolve given, fun accepted fits => ⟨?_, ?_⟩⟩,
    fun accepted value => ⟨fun fits => resolve_baseImage accepted fits value,
      fun fits => resolve_testCommand accepted fits value⟩⟩
  · rintro ⟨resolved, settled⟩
    obtain ⟨n, asks, -⟩ := isLimit_of_resolve given settled
    exact ⟨n, asks⟩
  · rintro ⟨n, asks⟩
    exact exists_resolve_of_isLimit given asks accepted fits

/-- A limit with a sign, a leading zero and white space around it is accepted, and neither a padded image
nor a blank command makes a difference between variables and arguments. -/
theorem resolve_settles_seven :
    let config : RunConfig := { concurrency := 4, stagingRoot := "/s" }
    let environment : Environment := [("TEST_LIMIT", " +07\n")]
    (∃ resolved, config.resolve environment {} = .ok resolved ∧ resolved.Usable) ∧
      config.resolve environment { baseImage := some " golang " } =
        config.resolve (("AUTOCHECKER_BASE_IMAGE", " golang ") :: environment) {} ∧
      config.resolve environment { testCommand := some " " } =
        config.resolve (("AUTOCHECKER_TEST_CMD", " ") :: environment) {} := by
  intro config environment
  obtain ⟨usable, limits, alike⟩ := resolve_settles 4 "/s" environment {}
  have asks : IsLimit " +07\n" 7 :=
    ⟨⟨['0', '7'], .inr (by decide), by decide, List.all_eq_true.1 (by decide), by decide⟩, by decide,
      by decide⟩
  have accepted : ∀ setting : Setting, setting.Accepted config environment := by
    intro setting
    cases setting with
    | concurrency => exact ⟨7, by decide, by decide⟩
    | baseImage => exact (by decide : config.baseImageIn environment ≠ "")
    | testCommand => exact (by decide : config.testCommandIn environment ≠ [])
    | retain => exact ⟨{}, by decide⟩
  have fits : ∀ setting : Setting, setting.Fits {} := by
    intro setting
    cases setting with
    | retain => trivial
    | _ => nofun
  obtain ⟨-, exactly⟩ := limits " +07\n" rfl
  obtain ⟨resolved, settled⟩ := (exactly (fun setting _ => accepted setting) fits).2 ⟨7, asks⟩
  exact ⟨⟨resolved, settled, usable resolved settled⟩,
    (alike accepted " golang ").1 fun setting _ => fits setting,
    (alike accepted " ").2 fun setting _ => fits setting⟩

end RunConfig

end VersionMatrix
