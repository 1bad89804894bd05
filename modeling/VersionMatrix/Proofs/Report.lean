import VersionMatrix.Report
import VersionMatrix.Proofs.Schedule.Admission

/-! How a report sorts outcomes: each of them adds one row to one of its two lists, and both keep the
order. -/
namespace VersionMatrix

def RunOutcome.passes : RunOutcome → Bool
  | .ok result => result.success
  | .error _ => false

/-- An outcome passes if its tests ran and succeeded. -/
theorem RunOutcome.passes_iff (outcome : RunOutcome) :
    outcome.passes = true ↔ ∃ result, outcome = .ok result ∧ result.success = true := by
  cases outcome with
  | ok result => simp [passes]
  | error error => simp [passes]

namespace Report

variable (outcomes : List RunOutcome) (startedAt finishedAt : Instant)

/-- An outcome that passes is counted by its version. -/
theorem passed?_eq (outcome : RunOutcome) :
    passed? outcome = if outcome.passes then some outcome.version else none := by
  cases outcome <;> rfl

theorem version_failed? (outcome : RunOutcome) :
    (failed? outcome).map (·.version) = if !outcome.passes then some outcome.version else none := by
  cases outcome with
  | ok result =>
      cases passed : result.success <;>
        simp [failed?, RunOutcome.passes, RunOutcome.version, passed]
  | error error => rfl

theorem filterMap_version (p : RunOutcome → Bool) :
    outcomes.filterMap (fun outcome => if p outcome then some outcome.version else none) =
      (outcomes.filter p).map RunOutcome.version := by
  induction outcomes with
  | nil => rfl
  | cons first rest ih => cases picked : p first <;> simp [picked, ih]

/-- What passed are the versions of the outcomes that pass. -/
theorem passed_ofOutcomes :
    (ofOutcomes outcomes startedAt finishedAt).passed =
      (outcomes.filter RunOutcome.passes).map RunOutcome.version := by
  rw [← filterMap_version, ← funext passed?_eq]
  rfl

/-- What failed are the versions of all other outcomes. -/
theorem failed_ofOutcomes :
    (ofOutcomes outcomes startedAt finishedAt).failed.map (·.version) =
      (outcomes.filter fun outcome => !outcome.passes).map RunOutcome.version := by
  rw [← filterMap_version, ← funext version_failed?]
  exact List.map_filterMap

/-- Every version is in exactly one of the two lists of a report, as often as it has outcomes. -/
theorem perm_ofOutcomes :
    ((ofOutcomes outcomes startedAt finishedAt).passed ++
      (ofOutcomes outcomes startedAt finishedAt).failed.map (·.version)).Perm
        (outcomes.map RunOutcome.version) := by
  rw [passed_ofOutcomes, failed_ofOutcomes, ← List.map_append]
  exact (List.filter_append_perm _ _).map _

/-- The versions that passed stand in the order of the outcomes. -/
theorem passed_sublist :
    (ofOutcomes outcomes startedAt finishedAt).passed.Sublist
      (outcomes.map RunOutcome.version) := by
  rw [passed_ofOutcomes]
  exact List.filter_sublist.map _

/-- The versions that failed stand in the order of the outcomes. -/
theorem failed_sublist :
    ((ofOutcomes outcomes startedAt finishedAt).failed.map (·.version)).Sublist
      (outcomes.map RunOutcome.version) := by
  rw [failed_ofOutcomes]
  exact List.filter_sublist.map _

/-- A version has passed exactly if an outcome says so. -/
theorem mem_passed_iff (version : String) :
    version ∈ (ofOutcomes outcomes startedAt finishedAt).passed ↔
      ∃ output, .ok ⟨version, true, output⟩ ∈ outcomes := by
  rw [passed_ofOutcomes, List.mem_map]
  constructor
  · rintro ⟨outcome, picked, rfl⟩
    obtain ⟨listed, passes⟩ := List.mem_filter.1 picked
    obtain ⟨⟨version, success, output⟩, rfl, succeeded⟩ := outcome.passes_iff.1 passes
    obtain rfl : success = true := succeeded
    exact ⟨output, listed⟩
  · rintro ⟨output, listed⟩
    exact ⟨.ok ⟨version, true, output⟩, List.mem_filter.2 ⟨listed, rfl⟩, rfl⟩

/-- All have passed exactly if every outcome does. -/
theorem allPassed_iff :
    (ofOutcomes outcomes startedAt finishedAt).allPassed = true ↔
      ∀ outcome ∈ outcomes, outcome.passes = true := by
  have none := failed_ofOutcomes outcomes startedAt finishedAt
  rw [allPassed, List.isEmpty_iff, ← List.map_eq_nil_iff, none, List.map_eq_nil_iff]
  simp

/-- How an outcome that did not pass is reported: with the output of its tests if they ran, and with the
stage that broke and the text of its error if not. -/
inductive FailsAs : RunOutcome → FailedVersion → Prop
  | tests (version output : String) : FailsAs (.ok ⟨version, false, output⟩) ⟨version, output, none⟩
  | stage (error : RunError) :
      FailsAs (.error error) ⟨error.version, error.source.message, some error.stage⟩

/-- Outcomes with the versions that passed and those that failed. Each outcome adds one row to one of the
two lists, behind those of the outcomes before it. -/
inductive Tallies : List RunOutcome → List String → List FailedVersion → Prop
  | nil : Tallies [] [] []
  | passed (version output : String) {outcomes : List RunOutcome} {passed : List String}
      {failed : List FailedVersion} (rest : Tallies outcomes passed failed) :
      Tallies (.ok ⟨version, true, output⟩ :: outcomes) (version :: passed) failed
  | failed {outcome : RunOutcome} {row : FailedVersion} {outcomes : List RunOutcome}
      {passed : List String} {failed : List FailedVersion} (fails : FailsAs outcome row)
      (rest : Tallies outcomes passed failed) : Tallies (outcome :: outcomes) passed (row :: failed)

/-- An outcome that is reported as a failure does not pass. -/
theorem FailsAs.not_passes {outcome : RunOutcome} {row : FailedVersion} (fails : FailsAs outcome row) :
    outcome.passes = false := by
  cases fails <;> rfl

/-- A report tallies the outcomes that it is made of. -/
theorem tallies_ofOutcomes :
    Tallies outcomes (ofOutcomes outcomes startedAt finishedAt).passed
      (ofOutcomes outcomes startedAt finishedAt).failed := by
  induction outcomes with
  | nil => exact .nil
  | cons first rest ih =>
      match first with
      | .ok ⟨version, true, output⟩ => exact .passed version output ih
      | .ok ⟨version, false, output⟩ => exact .failed (.tests version output) ih
      | .error error => exact .failed (.stage error) ih

variable {outcomes} {passed : List String} {failed : List FailedVersion}

/-- Each outcome is counted once. -/
theorem Tallies.length (tallies : Tallies outcomes passed failed) :
    passed.length + failed.length = outcomes.length := by
  induction tallies with
  | nil => rfl
  | passed version output _ ih => rw [List.length_cons, List.length_cons, ← ih, Nat.add_right_comm]
  | failed _ _ ih => rw [List.length_cons, List.length_cons, ← ih, Nat.add_assoc]

/-- The failed rows are those of the outcomes that did not pass, in their order. -/
theorem Tallies.forall₂_failed (tallies : Tallies outcomes passed failed) :
    List.Forall₂ FailsAs (outcomes.filter fun outcome => !outcome.passes) failed := by
  induction tallies with
  | nil => exact .nil
  | passed version output _ ih => exact ih
  | failed fails _ ih =>
      rw [List.filter_cons_of_pos (by rw [fails.not_passes]; rfl)]
      exact .cons fails ih

/-- If the versions differ then none has both passed and failed. -/
theorem ne_of_mem_failed (distinct : (outcomes.map RunOutcome.version).Nodup) {version : String}
    (inPassed : version ∈ (ofOutcomes outcomes startedAt finishedAt).passed) {row : FailedVersion}
    (inFailed : row ∈ (ofOutcomes outcomes startedAt finishedAt).failed) : row.version ≠ version := by
  have apart := List.disjoint_of_nodup_append
    ((perm_ofOutcomes outcomes startedAt finishedAt).nodup_iff.2 distinct)
  rintro rfl
  exact apart inPassed (List.mem_map_of_mem inFailed)

/-- Every outcome is reported once. Those that passed are listed by their versions and all others with
what is known of their failure, each list in the order of the outcomes. All passed if every run came to
its end and its tests succeeded, and if no two outcomes are about one version then no version is in both
lists. -/
theorem ofOutcomes_partitions (outcomes : List RunOutcome) (startedAt finishedAt : Instant) :
    let report := ofOutcomes outcomes startedAt finishedAt
    report.total = outcomes.length ∧ report.successes + report.failures = outcomes.length ∧
    Tallies outcomes report.passed report.failed ∧
    report.passed = (outcomes.filter RunOutcome.passes).map RunOutcome.version ∧
    List.Forall₂ FailsAs (outcomes.filter fun outcome => !outcome.passes) report.failed ∧
    (∀ outcome : RunOutcome,
      outcome.passes = true ↔ ∃ result, outcome = .ok result ∧ result.success = true) ∧
    (report.allPassed = true ↔
      ∀ outcome ∈ outcomes, ∃ result, outcome = .ok result ∧ result.success = true) ∧
    ((outcomes.map RunOutcome.version).Nodup →
      ∀ version ∈ report.passed, ∀ row ∈ report.failed, row.version ≠ version) := by
  intro report
  have tallies : Tallies outcomes report.passed report.failed :=
    tallies_ofOutcomes outcomes startedAt finishedAt
  refine ⟨rfl, tallies.length, tallies, passed_ofOutcomes _ _ _, tallies.forall₂_failed,
    RunOutcome.passes_iff, ?_, fun distinct version inPassed row inFailed => ?_⟩
  · simp only [report, allPassed_iff, RunOutcome.passes_iff]
  · exact ne_of_mem_failed _ _ distinct inPassed inFailed

/-- One version passed, the tests of one failed and one image could not be pulled. -/
theorem ofOutcomes_partitions_mixed :
    let outcomes : List RunOutcome :=
      [.error ⟨"0.10", .pulling, .engine (.pull "b:0.10" "manifest unknown")⟩, .ok ⟨"1.0.0", true, ""⟩,
        .ok ⟨"2.0.0", false, "1 failing"⟩]
    let report := ofOutcomes outcomes ⟨0, 0⟩ ⟨0, 0⟩
    (outcomes.map RunOutcome.version).Nodup ∧
      ∀ version ∈ report.passed, ∀ row ∈ report.failed, row.version ≠ version := by
  intro outcomes report
  have distinct : (outcomes.map RunOutcome.version).Nodup := by decide
  exact ⟨distinct, (ofOutcomes_partitions outcomes ⟨0, 0⟩ ⟨0, 0⟩).2.2.2.2.2.2.2 distinct⟩

end Report

end VersionMatrix
