import VersionMatrix.Display.Tone
import VersionMatrix.Report

/-!
The final results, and the list of versions.
-/

namespace VersionMatrix.Summary

/-- The heading. A single version needs no count. -/
def heading (report : Report) : String :=
  if report.total = 1 then "== Results ==\n"
  else
    "== Results (Success/Fail " ++ Nat.repr report.successes ++ "/" ++ Nat.repr report.failures ++
      ") ==\n"

def passedLine (colors : Bool) (version : String) : String :=
  Tone.green.paint ("The tests did pass on version " ++ version) colors ++ "\n"

def failedLine (colors : Bool) (failed : FailedVersion) : String :=
  let text := match failed.stage with
    | some stage =>
      "Something went wrong while " ++ stage.name ++ " for version " ++ failed.version
    | none => "The tests did not pass on version " ++ failed.version
  Tone.red.paint text colors ++ "\n"

def outputBlock (colors : Bool) (failed : FailedVersion) : String :=
  Tone.blue.paint ("\n--- Output for version " ++ failed.version ++ " ---") colors ++ "\n" ++
    Text.trimEnd failed.output ++ "\n"

/-- The results. Output that was shown while the tests ran is not repeated. -/
def render (report : Report) (colors streamed : Bool) : String :=
  "\n" ++ heading report ++ String.join (report.passed.map (passedLine colors)) ++
    String.join (report.failed.map (failedLine colors)) ++
    if streamed then ""
    else
      String.join
        ((report.failed.filter fun failed => !Text.isBlank failed.output).map (outputBlock colors))

def versionList (versions : List String) : String :=
  "Available versions:\n" ++ String.join (versions.map fun version => "  " ++ version ++ "\n")

end VersionMatrix.Summary
