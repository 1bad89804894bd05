import VersionMatrix.Proofs.Staging.Confined
import VersionMatrix.Proofs.Staging.Substitution
import VersionMatrix.Staging.Context

/-! The errors that work on a staging directory can end with, whatever the disk is at each operation. A
copy and a packing fail on files alone, and so does an image definition whose template is sound. -/
namespace VersionMatrix

open Disk

variable {α β : Type} {kind : StageError → Prop} {template : String}

namespace DiskAction

/-- Every error that an action can end with is of a kind, however its operations find the disk. -/
def Raises (kind : StageError → Prop) : DiskAction α → Prop
  | .done (.ok _) => True
  | .done (.error error) => kind error
  | .operate _ next => ∀ found, (next found).Raises kind

/-- Actions in sequence raise what their parts raise. -/
theorem Raises.andThen {action : DiskAction α} {after : α → DiskAction β}
    (first : action.Raises kind) (goesOn : ∀ value, (after value).Raises kind) :
    (action >>= after).Raises kind := by
  induction action with
  | done result =>
      cases result with
      | ok value => exact goesOn value
      | error error => exact first
  | operate effect next ih => exact fun found => ih found (first found)

/-- An action with a handler raises what the handler does. -/
theorem Raises.recover {action : DiskAction α} {handler : StageError → DiskAction α}
    (first : action.Raises kind) (handles : ∀ error, kind error → (handler error).Raises kind) :
    (tryCatch action handler).Raises kind := by
  induction action with
  | done result =>
      cases result with
      | ok value => exact trivial
      | error error => exact handles error first
  | operate effect next ih => exact fun found => ih found (first found)

theorem raises_inspect (look : Disk → α) : (inspect look).Raises kind := fun _ => trivial

variable (io : ∀ path fault, kind (.io path fault))

include io

theorem raises_answerAt (path : String) (answer : Except FileFault α) :
    (DiskAction.done (answerAt path answer)).Raises kind := by
  cases answer with
  | ok value => exact trivial
  | error fault => exact io path (.file fault)

/-- A query raises nothing but the fault of its path. -/
theorem raises_query (path : String) (ask : Disk → Except FileFault α) :
    (query path ask).Raises kind :=
  fun found => raises_answerAt io path (ask found)

/-- A change raises nothing but the fault of its path. -/
theorem raises_change (path : String) (act : Disk → Except FileFault Disk) :
    (change path act).Raises kind :=
  fun found => raises_answerAt io path ((act found).map fun _ => ())

theorem raises_removeTree (path : String) : (removeTree path).Raises kind :=
  fun found => raises_answerAt io path (found.removeTree path).1

end DiskAction

open DiskAction

section Copy

variable (io : ∀ path fault, kind (.io path fault))

include io

theorem raises_copyEntry (source destination : String) (filter : CopyFilter)
    {copy : String → List (String × Entry) → DiskAction Nat}
    (inner : ∀ relative rows, (copy relative rows).Raises kind) (relative : String) (count : Nat)
    (row : String × Entry) :
    (copyEntry source destination filter copy relative count row).Raises kind := by
  obtain ⟨name, entry⟩ := row
  unfold copyEntry
  simp only
  split
  · split
    · refine (raises_inspect _).andThen fun listed => ?_
      refine (raises_change io _ _).andThen fun _ => ?_
      cases listed with
      | ok rows => exact (inner _ rows).andThen fun _ => trivial
      | error fault => exact io _ _
    · refine Raises.andThen ?_ fun _ => trivial
      exact (raises_query io _ _).andThen fun points => raises_change io _ _
    · exact (raises_change io _ _).andThen fun _ => trivial
  · exact trivial

/-- A copy raises nothing but faults of paths. -/
theorem raises_copyListed (source destination : String) (filter : CopyFilter) (depth : Nat)
    (relative : String) (rows : List (String × Entry)) :
    (copyListed source destination filter depth relative rows).Raises kind := by
  induction depth generalizing relative rows with
  | zero => exact io _ _
  | succ depth ih =>
      rw [copyListed]
      generalize 0 = count
      induction rows generalizing count with
      | nil => exact trivial
      | cons row rows ihRows =>
          rw [List.foldlM_cons]
          exact (raises_copyEntry io source destination filter ih relative count row).andThen ihRows

/-- A copy fails on files alone. -/
theorem raises_copyProject (source destination : String) (filter : CopyFilter) :
    (copyProject source destination filter).Raises kind := by
  refine Raises.andThen ?_ fun _ => Raises.andThen ?_ fun _ => Raises.andThen ?_ fun _ => ?_
  · refine (raises_inspect _).andThen fun stands => ?_
    split
    · exact trivial
    · exact io _ _
    · exact io _ _
  · unfold requireParent
    split
    · exact trivial
    · refine (raises_inspect _).andThen fun missing => ?_
      split
      · exact io _ _
      · exact trivial
  · refine (raises_inspect _).andThen fun stands => ?_
    split
    · exact raises_removeTree io destination
    · exact trivial
  · refine Raises.recover ?_ fun error ofKind => ?_
    · refine (raises_change io _ _).andThen fun _ => (raises_inspect _).andThen fun listed => ?_
      split
      · exact raises_copyListed io _ _ _ _ _ _
      · exact io _ _
    · exact Raises.andThen (fun _ => trivial) fun _ => ofKind

end Copy

/-- A template that holds the placeholder is never refused when the image definition is written. -/
theorem raises_writeDockerfile (io : ∀ path fault, kind (.io path fault))
    (notFound : ∀ path, kind (.notFound path)) (directory version : String)
    (holds : hasPlaceholder template = true) :
    (writeDockerfile directory version template).Raises kind := by
  obtain ⟨text, substituted⟩ :=
    (@exists_substituteVersion_iff template version "image definition").2 holds
  unfold writeDockerfile
  rw [substituted]
  refine Raises.andThen trivial fun _ => (raises_inspect _).andThen fun stands => ?_
  split
  · exact (raises_change io _ _).andThen fun _ => trivial
  · exact io _ _
  · exact notFound _
  · exact io _ _

theorem exists_eq_error_of_mapM {error : StageError} {pick : α → Except StageError β}
    {list : List α} (failed : list.mapM pick = .error error) :
    ∃ item ∈ list, pick item = .error error := by
  induction list with
  | nil => cases failed
  | cons item list ih =>
      rw [List.mapM_cons] at failed
      cases picked : pick item with
      | error error' =>
          rw [picked] at failed
          obtain rfl : error' = error := Except.error.inj failed
          exact ⟨item, List.mem_cons_self, picked⟩
      | ok value =>
          rw [picked] at failed
          cases rest : list.mapM pick with
          | ok values =>
              rw [rest] at failed
              cases failed
          | error error' =>
              rw [rest] at failed
              obtain rfl : error' = error := Except.error.inj failed
              obtain ⟨other, member, found⟩ := ih rest
              exact ⟨other, List.mem_cons_of_mem _ member, found⟩

theorem exists_eq_error_of_map {result : Except StageError α} {error : StageError} {f : α → β}
    (failed : result.map f = .error error) : result = .error error := by
  cases result with
  | ok value => cases failed
  | error error' => exact congrArg Except.error (Except.error.inj failed)

section Pack

variable (io : ∀ path fault, kind (.io path fault)) {disk : Disk} {staging relative : String}
  {error : StageError}

include io

/-- A listing that cannot be packed fails with the fault of a path. -/
theorem kind_of_packListed {depth : Nat} {rows : List (String × Entry)}
    (failed : BuildContext.packListed disk staging depth relative rows = .error error) :
    kind error := by
  induction depth generalizing relative rows with
  | zero =>
      cases failed
      exact io _ _
  | succ depth ih =>
      obtain ⟨⟨name, entry⟩, -, refused⟩ :=
        exists_eq_error_of_mapM (exists_eq_error_of_map failed)
      unfold BuildContext.packEntry at refused
      dsimp only at refused
      split at refused
      next =>
          cases refused
          exact io _ _
      next =>
          cases refused
          exact io _ _
      next =>
          split at refused
          next => exact ih (exists_eq_error_of_map refused)
          next =>
              cases refused
              exact io _ _
      next =>
          cases refused
          exact io _ _
      next => cases refused
      next => cases refused

/-- An archive fails with the fault of a path. -/
theorem kind_of_pack (failed : BuildContext.pack disk staging = .error error) : kind error := by
  unfold BuildContext.pack at failed
  split at failed
  · split at failed
    · exact kind_of_packListed io failed
    · cases failed
      exact io _ _
  · cases failed
  · cases failed
    exact io _ _

end Pack

end VersionMatrix
