import VersionMatrix.CommandLine.Preflight
import Mathlib.Data.List.Induction
import Mathlib.Data.List.Nodup

/-! The requests of an invocation: one for each version that was asked for, and no two for the same. -/
namespace VersionMatrix

variable {project : Project} {config : RunConfig} {template : String} {versions : List String}
  {verbose : Bool} {requests : List RunRequest}

/-- What is left of a list without repetition stands in the order in which it is first met. -/
theorem pairwise_eraseDups {α : Type} [BEq α] [LawfulBEq α] (list : List α) :
    list.eraseDups.Pairwise fun first second => list.idxOf first < list.idxOf second := by
  induction list using List.reverseRecOn with
  | nil => exact List.Pairwise.nil
  | append_singleton list last ih =>
      have early : ∀ element ∈ list.eraseDups, (list ++ [last]).idxOf element = list.idxOf element :=
        fun element member => List.idxOf_append_of_mem (List.mem_eraseDups.1 member)
      have kept : list.eraseDups.Pairwise fun first second =>
          (list ++ [last]).idxOf first < (list ++ [last]).idxOf second :=
        ih.imp_of_mem fun member member' lt => by rwa [early _ member, early _ member']
      rw [List.eraseDups_append]
      by_cases old : last ∈ list
      · simpa [List.removeAll, old] using kept
      · have new : ([last].removeAll list).eraseDups = [last] := by
          simp [List.removeAll, old, List.eraseDups_cons]
        rw [new, List.pairwise_append]
        refine ⟨kept, List.pairwise_singleton _ _, fun first member second late => ?_⟩
        rw [List.mem_singleton.1 late, early _ member, List.idxOf_append_of_notMem old]
        exact Nat.lt_add_right _ (List.idxOf_lt_length_of_mem (List.mem_eraseDups.1 member))

theorem nodup_eraseDups {α : Type} [BEq α] [LawfulBEq α] (list : List α) : list.eraseDups.Nodup := by
  refine (pairwise_eraseDups list).imp fun {first second} earlier same => ?_
  rw [same] at earlier
  exact Nat.lt_irrefl _ earlier

/-- The requests are one request aimed at every version that was asked for. It has been validated for
the first of them, and it is verbose if there is only one. -/
theorem exists_model_of_requestsFor
    (made : requestsFor project config template versions verbose = .ok requests) :
    ∃ model : RunRequest, requests = versions.eraseDups.map model.forVersion ∧
      model.verbose = (verbose || versions.eraseDups.length == 1) ∧
      (requests ≠ [] → model.validate = .ok ()) := by
  unfold requestsFor at made
  simp only at made
  split at made
  next empty =>
      obtain rfl := Except.ok.inj made
      rw [empty]
      exact ⟨{ verbose := verbose || ([] : List String).length == 1 }, rfl, rfl,
        fun some => absurd rfl some⟩
  next first rest listed =>
      generalize modelled : RunRequest.mk first .. = model at made
      have loud : model.verbose = (verbose || versions.eraseDups.length == 1) := by rw [← modelled]
      cases valid : model.validate with
      | error error =>
          rw [valid] at made
          cases made
      | ok _ =>
          rw [valid] at made
          exact ⟨model, (Except.ok.inj made).symm, loud, fun _ => valid⟩

/-- The requests of an invocation are one request for each of its versions. -/
theorem exists_eq_map_forVersion
    (made : requestsFor project config template versions verbose = .ok requests) :
    ∃ model : RunRequest, requests = versions.eraseDups.map model.forVersion := by
  obtain ⟨model, listed, -⟩ := exists_model_of_requestsFor made
  exact ⟨model, listed⟩

end VersionMatrix
