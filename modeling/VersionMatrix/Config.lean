import VersionMatrix.Error
import VersionMatrix.Text.Blank
import VersionMatrix.Text.LowerCase
import VersionMatrix.Text.Numeral

/-!
The configuration of an invocation: defaults, then the environment.
-/

namespace VersionMatrix

abbrev Environment := List (String × String)

/-- Whether a staging copy is kept after its run. -/
structure RetainPolicy where
  onSuccess : Bool := true
  onFailure : Bool := true
deriving DecidableEq, Repr

namespace RetainPolicy

def discard : RetainPolicy := { onSuccess := false, onFailure := false }

def retains (policy : RetainPolicy) (completed : Bool) : Bool :=
  if completed then policy.onSuccess else policy.onFailure

end RetainPolicy

def defaultVersions : List String :=
  ["0.10.41", "0.10.42", "0.10.43", "0.10.44", "0.12.9", "0.12.10", "0.12.11", "0.12.12",
    "0.12.13", "4.2.4", "4.2.5", "4.2.6", "4.3.0", "4.3.1", "4.3.2", "4.4.0", "4.4.1", "4.4.2",
    "5.1.1", "5.2.0", "5.3.0", "5.4.0", "5.4.1", "5.5.0", "5.6.0", "5.7.0", "5.7.1", "5.8.0",
    "5.9.0", "5.9.1", "5.10.0", "5.10.1"]

structure RunConfig where
  concurrency : Nat
  baseImage : String := "mhart/alpine-node"
  testCommand : List String := ["npm", "test"]
  templatePath : Option String := none
  stagingRoot : String
  retain : RetainPolicy := {}
deriving DecidableEq, Repr

namespace RunConfig

def validate (config : RunConfig) : Except ConfigError Unit :=
  if config.concurrency = 0 then
    .error (.validationFailed "concurrency must be greater than 0")
  else if config.baseImage = "" then .error (.validationFailed "base_image cannot be empty")
  else if config.testCommand = [] then .error (.validationFailed "test_command cannot be empty")
  else .ok ()

def number (key value : String) : Except ConfigError Nat :=
  match Text.readNumeral (Text.trim value) with
  | .ok n => .ok n
  | .error error => .error (.invalidValue key error.message)

/-- The truth value of a variable, in any case of letters. -/
def flag (key value : String) : Except ConfigError Bool :=
  let word := Text.lower (Text.trim value)
  if word ∈ ["true", "1", "yes", "on"] then .ok true
  else if word ∈ ["false", "0", "no", "off"] then .ok false
  else .error (.invalidValue key ("expected boolean, got '" ++ value ++ "'"))

/-- Overrides `config` by the variables of the environment, and validates the result. -/
def ofEnvironment (config : RunConfig) (environment : Environment) :
    Except ConfigError RunConfig := do
  let mut config := config
  if let some value := environment.lookup "TEST_LIMIT" then
    config := { config with concurrency := ← number "TEST_LIMIT" value }
  if let some value := environment.lookup "AUTOCHECKER_BASE_IMAGE" then
    config := { config with baseImage := Text.trim value }
  if let some value := environment.lookup "AUTOCHECKER_TEST_CMD" then
    config := { config with testCommand := Text.words value }
  if let some value := environment.lookup "AUTOCHECKER_STAGING_DIR" then
    config := { config with stagingRoot := value }
  if let some value := environment.lookup "AUTOCHECKER_KEEP_STAGING" then
    if !(← flag "AUTOCHECKER_KEEP_STAGING" value) then
      config := { config with retain := .discard }
  config.validate
  return config

end RunConfig

end VersionMatrix
