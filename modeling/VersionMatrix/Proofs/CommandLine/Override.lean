import VersionMatrix.Proofs.CommandLine.Verdict

/-! What the arguments of an invocation override of its environment, and what they do not: a variable
that is overridden is still read, and is checked with the others before the arguments come into it. -/
namespace VersionMatrix

namespace RunConfig

variable (config : RunConfig) (environment other : Environment) (arguments : RunArguments)

def limitIn : Except ConfigError Nat :=
  match environment.lookup "TEST_LIMIT" with
  | some value => number "TEST_LIMIT" value
  | none => .ok config.concurrency

def baseImageIn : String :=
  ((environment.lookup "AUTOCHECKER_BASE_IMAGE").map Text.trim).getD config.baseImage

def testCommandIn : List String :=
  ((environment.lookup "AUTOCHECKER_TEST_CMD").map Text.words).getD config.testCommand

def retainIn : Except ConfigError RetainPolicy :=
  match environment.lookup "AUTOCHECKER_KEEP_STAGING" with
  | some value =>
    (flag "AUTOCHECKER_KEEP_STAGING" value).map fun keep =>
      if keep then config.retain else .discard
  | none => .ok config.retain

/-- The configuration that an environment asks for, given its two readings that can fail. -/
def askedIn (concurrency : Nat) (retain : RetainPolicy) : RunConfig :=
  { config with
    concurrency
    baseImage := config.baseImageIn environment
    testCommand := config.testCommandIn environment
    stagingRoot := (environment.lookup "AUTOCHECKER_STAGING_DIR").getD config.stagingRoot
    retain }

/-- An environment is read variable by variable, and what it asks for is checked as a whole. -/
theorem ofEnvironment_eq :
    config.ofEnvironment environment = do
      let concurrency ← config.limitIn environment
      let retain ← config.retainIn environment
      (config.askedIn environment concurrency retain).validate
      return config.askedIn environment concurrency retain := by
  unfold ofEnvironment limitIn retainIn askedIn baseImageIn testCommandIn
  generalize validate = check
  generalize environment.lookup "AUTOCHECKER_KEEP_STAGING" = keeping
  cases environment.lookup "AUTOCHECKER_BASE_IMAGE" <;>
  cases environment.lookup "AUTOCHECKER_TEST_CMD" <;>
  cases environment.lookup "AUTOCHECKER_STAGING_DIR" <;>
  cases environment.lookup "TEST_LIMIT" with
  | none =>
      cases keeping with
      | none => rfl
      | some value =>
          cases read : flag "AUTOCHECKER_KEEP_STAGING" value with
          | error error => simp only [read]; rfl
          | ok keep => simp only [read]; cases keep <;> rfl
  | some limit =>
      cases counted : number "TEST_LIMIT" limit with
      | error error => simp only [counted]; rfl
      | ok count =>
          cases keeping with
          | none => simp only [counted]; rfl
          | some value =>
              cases read : flag "AUTOCHECKER_KEEP_STAGING" value with
              | error error => simp only [read, counted]; rfl
              | ok keep => simp only [read, counted]; cases keep <;> rfl

/-- A configuration is settled in this order: the two readings that can fail, the validation of what
the environment asks for, and the validation with the arguments over it. -/
theorem resolve_eq :
    config.resolve environment arguments = do
      let concurrency ← config.limitIn environment
      let retain ← config.retainIn environment
      let asked := config.askedIn environment concurrency retain
      asked.validate
      (asked.override arguments).validate
      return asked.override arguments := by
  rw [resolve, ofEnvironment_eq]
  simp only [bind_assoc, pure_bind]

variable {config environment other arguments}

/-- A check looks at nothing but whether three settings are empty. -/
theorem validate_congr {first second : RunConfig}
    (concurrency : first.concurrency = 0 ↔ second.concurrency = 0)
    (baseImage : first.baseImage = "" ↔ second.baseImage = "")
    (testCommand : first.testCommand = [] ↔ second.testCommand = []) :
    first.validate = second.validate := by
  simp only [validate, concurrency, baseImage, testCommand]

/-- A configuration is valid if some runs may go on at a time, the base image has a name, and the
test command is not empty. -/
theorem validate_eq_ok_iff :
    config.validate = .ok () ↔
      config.concurrency ≠ 0 ∧ config.baseImage ≠ "" ∧ config.testCommand ≠ [] := by
  unfold validate
  split <;> rename_i concurrency
  · simp [concurrency]
  split <;> rename_i baseImage
  · simp [baseImage]
  split <;> rename_i testCommand
  · simp [testCommand]
  · simp [concurrency, baseImage, testCommand]

end RunConfig

/-- The settings that both a variable and an argument can make. -/
inductive Setting where
  | concurrency
  | baseImage
  | testCommand
  | retain
deriving DecidableEq, Repr

namespace Setting

def key : Setting → String
  | .concurrency => "TEST_LIMIT"
  | .baseImage => "AUTOCHECKER_BASE_IMAGE"
  | .testCommand => "AUTOCHECKER_TEST_CMD"
  | .retain => "AUTOCHECKER_KEEP_STAGING"

def overridden (arguments : RunArguments) : Setting → Bool
  | .concurrency => arguments.concurrency.isSome
  | .baseImage => arguments.baseImage.isSome
  | .testCommand => arguments.testCommand.isSome
  | .retain => arguments.cleanStaging

/-- What an environment asks for in a setting would do if no argument overrode it. -/
def Accepted (config : RunConfig) (environment : Environment) : Setting → Prop
  | .concurrency => ∃ concurrency, config.limitIn environment = .ok concurrency ∧ concurrency ≠ 0
  | .baseImage => config.baseImageIn environment ≠ ""
  | .testCommand => config.testCommandIn environment ≠ []
  | .retain => ∃ retain, config.retainIn environment = .ok retain

/-- Each setting has a variable of its own. -/
theorem key_injective : Function.Injective key := by
  intro first second same
  cases first <;> cases second <;> first | rfl | exact absurd same (by decide)

end Setting

/-- Two environments differ at most in variables that the arguments override. -/
def RunArguments.Alike (arguments : RunArguments) (environment other : Environment) : Prop :=
  ∀ name, (∀ setting : Setting, setting.overridden arguments = true → setting.key ≠ name) →
    environment.lookup name = other.lookup name

namespace RunConfig

variable {config : RunConfig} {environment other : Environment} {arguments : RunArguments}

/-- An environment is accepted as a whole only if it is in each setting. -/
theorem accepted_of_ofEnvironment {asked : RunConfig}
    (read : config.ofEnvironment environment = .ok asked) (setting : Setting) :
    setting.Accepted config environment := by
  rw [ofEnvironment_eq] at read
  obtain ⟨concurrency, limit, read⟩ := exists_of_bind_eq_ok read
  obtain ⟨retain, policy, read⟩ := exists_of_bind_eq_ok read
  obtain ⟨_, valid, -⟩ := exists_of_bind_eq_ok read
  obtain ⟨positive, image, command⟩ := validate_eq_ok_iff.1 valid
  cases setting with
  | concurrency => exact ⟨concurrency, limit, positive⟩
  | baseImage => exact image
  | testCommand => exact command
  | retain => exact ⟨retain, policy⟩

theorem getD_eq_getD_of_isSome {α : Type} {given : Option α} (isSome : given.isSome = true)
    (first second : α) : given.getD first = given.getD second := by
  obtain ⟨value, rfl⟩ := Option.isSome_iff_exists.1 isSome
  rfl

/-- What two computations go on with is seen through a view. -/
theorem bind_eq_bind_of_map_eq {ε α β γ : Type} {view : α → β} {first second : Except ε α}
    {next next' : α → Except ε γ} (same : first.map view = second.map view)
    (going : ∀ value value', view value = view value' → next value = next' value') :
    first >>= next = second >>= next' := by
  cases first with
  | error error =>
      cases second with
      | error error' => exact congrArg Except.error (Except.error.inj same)
      | ok value' => cases same
  | ok value =>
      cases second with
      | error error' => cases same
      | ok value' => exact going value value' (Except.ok.inj same)

section

variable (alike : arguments.Alike environment other)

include alike

theorem stagingRoot_of_alike :
    environment.lookup "AUTOCHECKER_STAGING_DIR" = other.lookup "AUTOCHECKER_STAGING_DIR" := by
  refine alike _ fun setting _ => ?_
  cases setting <;> decide

variable
  (accepted : ∀ setting : Setting, setting.overridden arguments = true →
    setting.Accepted config environment ∧ setting.Accepted config other)

include accepted

/-- A variable is the same in both environments, or it is overridden and would do in both. -/
theorem lookup_or_accepted (setting : Setting) :
    environment.lookup setting.key = other.lookup setting.key ∨
      setting.overridden arguments = true ∧ setting.Accepted config environment ∧
        setting.Accepted config other := by
  cases overridden : setting.overridden arguments with
  | true => exact Or.inr ⟨rfl, accepted setting overridden⟩
  | false =>
      refine Or.inl (alike _ fun given overrides same => ?_)
      rw [Setting.key_injective same, overridden] at overrides
      cases overrides

/-- Of the numbers that the environments ask for, nothing is left to tell them apart by: neither
whether they are zero, nor what the arguments make of them. -/
theorem limitIn_of_alike :
    (config.limitIn environment).map
        (fun count => (decide (count = 0), arguments.concurrency.getD count)) =
      (config.limitIn other).map
        (fun count => (decide (count = 0), arguments.concurrency.getD count)) := by
  rcases lookup_or_accepted alike accepted .concurrency with same | ⟨given, read, read'⟩
  · rw [Setting.key] at same
    rw [limitIn, limitIn, same]
  · obtain ⟨count, read, positive⟩ := read
    obtain ⟨count', read', positive'⟩ := read'
    rw [read, read']
    simp [Except.map, positive, positive', getD_eq_getD_of_isSome given count count']

/-- The policy is the same in environments that differ in what the arguments override, if it is
discarding that they ask for. -/
theorem retainIn_of_alike :
    (config.retainIn environment).map (if arguments.cleanStaging then .discard else ·) =
      (config.retainIn other).map (if arguments.cleanStaging then .discard else ·) := by
  rcases lookup_or_accepted alike accepted .retain with same | ⟨given, ⟨_, read⟩, ⟨_, read'⟩⟩
  · rw [Setting.key] at same
    rw [retainIn, retainIn, same]
  · rw [Setting.overridden] at given
    simp [read, read', given, Except.map]

/-- A base image that the arguments override may differ, and is then empty in both environments or
in neither. -/
theorem baseImageIn_of_alike :
    (config.baseImageIn environment = "" ↔ config.baseImageIn other = "") ∧
      (arguments.baseImage.map Text.trim).getD (config.baseImageIn environment) =
        (arguments.baseImage.map Text.trim).getD (config.baseImageIn other) := by
  rcases lookup_or_accepted alike accepted .baseImage with same | ⟨given, proper, proper'⟩
  · rw [Setting.key] at same
    simp only [baseImageIn, same, and_self]
  · exact ⟨iff_of_false proper proper',
      getD_eq_getD_of_isSome (Option.isSome_map.trans given) _ _⟩

/-- A test command that the arguments override may differ, and is then empty in both environments or
in neither. -/
theorem testCommandIn_of_alike :
    (config.testCommandIn environment = [] ↔ config.testCommandIn other = []) ∧
      (arguments.testCommand.map Text.words).getD (config.testCommandIn environment) =
        (arguments.testCommand.map Text.words).getD (config.testCommandIn other) := by
  rcases lookup_or_accepted alike accepted .testCommand with same | ⟨given, proper, proper'⟩
  · rw [Setting.key] at same
    simp only [testCommandIn, same, and_self]
  · exact ⟨iff_of_false proper proper',
      getD_eq_getD_of_isSome (Option.isSome_map.trans given) _ _⟩

/-- Environments that differ in what the arguments override lead to the same configuration, or to
the same refusal. -/
theorem resolve_of_alike :
    config.resolve environment arguments = config.resolve other arguments := by
  obtain ⟨noImage, image⟩ := baseImageIn_of_alike alike accepted
  obtain ⟨noCommand, command⟩ := testCommandIn_of_alike alike accepted
  rw [resolve_eq, resolve_eq]
  refine bind_eq_bind_of_map_eq (limitIn_of_alike alike accepted) fun count count' counts => ?_
  refine bind_eq_bind_of_map_eq (retainIn_of_alike alike accepted) fun retain retain' policies => ?_
  obtain ⟨zero, limit⟩ := Prod.mk.inj counts
  have checked : (config.askedIn environment count retain).validate =
      (config.askedIn other count' retain').validate :=
    validate_congr (decide_eq_decide.1 zero) noImage noCommand
  have overridden : (config.askedIn environment count retain).override arguments =
      (config.askedIn other count' retain').override arguments := by
    simp only [override, askedIn, limit, image, command, policies,
      stagingRoot_of_alike alike]
  simp only [checked, overridden]

end

/-- What the arguments override of an environment. Two environments that differ at most in variables
that the arguments override lead to the same configuration, or to the same error, if each of these
variables would do by itself. One that would not is refused, with an error that no argument changes. -/
theorem resolve_overridden (config : RunConfig) :
    (∀ arguments environment other, arguments.Alike environment other →
      (∀ setting : Setting, setting.overridden arguments = true →
        setting.Accepted config environment ∧ setting.Accepted config other) →
      config.resolve environment arguments = config.resolve other arguments) ∧
    ∀ environment (setting : Setting), ¬setting.Accepted config environment →
      ∃ error, ∀ arguments, config.resolve environment arguments = .error error := by
  refine ⟨fun _ _ _ => resolve_of_alike, fun environment setting unaccepted => ?_⟩
  cases read : config.ofEnvironment environment with
  | ok asked => exact absurd (accepted_of_ofEnvironment read setting) unaccepted
  | error error =>
      refine ⟨error, fun arguments => ?_⟩
      rw [resolve, read]
      rfl

theorem alike_limit (value : String) :
    RunArguments.Alike { concurrency := some 2 } [("TEST_LIMIT", value)] [] := by
  intro name kept
  have different : (name == "TEST_LIMIT") = false :=
    beq_false_of_ne fun same => kept .concurrency rfl same.symm
  rw [List.lookup_cons, different]

/-- A limit of five runs at a time is overridden, and one of none is refused all the same. -/
theorem resolve_limits :
    let config : RunConfig := { concurrency := 8, stagingRoot := "/s" }
    let arguments : RunArguments := { concurrency := some 2 }
    config.resolve [("TEST_LIMIT", "5")] arguments = config.resolve [] arguments ∧
      ∃ error, ∀ arguments, config.resolve [("TEST_LIMIT", "0")] arguments = .error error := by
  intro config arguments
  obtain ⟨overridden, refused⟩ := resolve_overridden config
  refine ⟨overridden arguments _ _ (alike_limit "5") fun setting given => ?_,
    refused _ .concurrency ?_⟩
  · cases setting with
    | concurrency => exact ⟨⟨5, by decide, by decide⟩, 8, rfl, by decide⟩
    | _ => cases given
  · rintro ⟨count, read, positive⟩
    have none : config.limitIn [("TEST_LIMIT", "0")] = .ok 0 := by decide
    exact positive (Except.ok.inj (read.symm.trans none))

/-- What an argument overrides is not hidden by it: an invocation that is to run two versions at a time
is refused for the number of a variable, which is zero or none at all. -/
theorem exists_resolve_ne :
    let config : RunConfig := { concurrency := 8, stagingRoot := "/s" }
    let arguments : RunArguments := { concurrency := some 2 }
    arguments.Alike [("TEST_LIMIT", "0")] [] ∧ arguments.Alike [("TEST_LIMIT", "many")] [] ∧
      config.resolve [] arguments = .ok { config with concurrency := 2 } ∧
      config.resolve [("TEST_LIMIT", "0")] arguments =
        .error (.validationFailed "concurrency must be greater than 0") ∧
      config.resolve [("TEST_LIMIT", "many")] arguments =
        .error (.invalidValue "TEST_LIMIT" "invalid digit found in string") :=
  ⟨alike_limit "0", alike_limit "many", by decide, by decide, by decide⟩

end RunConfig

end VersionMatrix
