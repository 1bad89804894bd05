import VersionMatrix.Display.Summary
import VersionMatrix.Proofs.Text.Lines
import VersionMatrix.Proofs.Text.Numeral
import VersionMatrix.Proofs.Text.Trim
import Mathlib.Data.List.Forall2

/-! What the final results show, with and without colours, and with and without the output of the tests. The
colours are in escape sequences alone, so that the text is the same without them, and output that has been
streamed leaves out nothing but the blocks at the end. -/
namespace VersionMatrix

namespace Tone

/-- What follows a colour escape sequence at the front of a text: the escape character, a bracket, digits and
semicolons, and an `m`. -/
def afterColor? : List Char → Option (List Char)
  | '\x1b' :: '[' :: rest =>
    match rest.dropWhile fun c => c.isDigit || c == ';' with
    | 'm' :: after => some after
    | _ => none
  | _ => none

theorem length_afterColor? {text after : List Char} (found : afterColor? text = some after) :
    after.length < text.length := by
  unfold afterColor? at found
  split at found
  next rest =>
      split at found
      next left ended =>
          obtain rfl := Option.some.inj found
          have fewer := (List.dropWhile_sublist (fun c => c.isDigit || c == ';') (l := rest)).length_le
          rw [ended, List.length_cons] at fewer
          simp only [List.length_cons]
          omega
      next => cases found
  next => cases found

def dropColors : List Char → List Char
  | [] => []
  | c :: rest =>
    match found : afterColor? (c :: rest) with
    | some after =>
      have := length_afterColor? found
      dropColors after
    | none => c :: dropColors rest
termination_by text => text.length
decreasing_by
  · exact this
  · exact Nat.lt_succ_self rest.length

/-- A colour escape sequence at the front is deleted. -/
theorem dropColors_of_after {text after : List Char} (found : afterColor? text = some after) :
    dropColors text = dropColors after := by
  cases text with
  | nil => cases found
  | cons c rest =>
      rw [dropColors]
      split
      next after' found' => rw [Option.some.inj (found.symm.trans found')]
      next missing => cases found.symm.trans missing

/-- A character that starts no escape sequence is kept. -/
theorem dropColors_cons {c : Char} (plain : c ≠ '\x1b') (rest : List Char) :
    dropColors (c :: rest) = c :: dropColors rest := by
  have none : afterColor? (c :: rest) = none := by
    unfold afterColor?
    split
    next same => exact absurd (List.cons.inj same).1 plain
    next => rfl
  rw [dropColors]
  split
  next found => cases none.symm.trans found
  next => rfl

/-- A text with colours, and the same text without them, wherever it stands. -/
def Bare (colored plain : String) : Prop :=
  ∀ rest, dropColors (colored.toList ++ rest) = plain.toList ++ dropColors rest

namespace Bare

variable {colored plain colored' plain' : String}

/-- A text without an escape character has no colour to delete. -/
theorem of_notMem {text : String} (unescaped : '\x1b' ∉ text.toList) : Bare text text := by
  intro rest
  generalize text.toList = chars at unescaped
  induction chars with
  | nil => rfl
  | cons c later ih =>
      rw [List.mem_cons, not_or] at unescaped
      rw [List.cons_append, dropColors_cons (Ne.symm unescaped.1), ih unescaped.2, List.cons_append]

/-- Colours are deleted from one text after the other. -/
theorem append (first : Bare colored plain) (second : Bare colored' plain') :
    Bare (colored ++ colored') (plain ++ plain') := by
  intro rest
  rw [String.toList_append, String.toList_append, List.append_assoc, first, second, List.append_assoc]

/-- Colours are deleted from each of several texts. -/
theorem join {α : Type} {list : List α} {colored plain : α → String}
    (each : ∀ element ∈ list, Bare (colored element) (plain element)) :
    Bare (String.join (list.map colored)) (String.join (list.map plain)) := by
  induction list with
  | nil => exact fun rest => rfl
  | cons first rest ih =>
      obtain ⟨here, later⟩ := List.forall_mem_cons.1 each
      rw [List.map_cons, List.map_cons, String.join_cons, String.join_cons]
      exact here.append (ih later)

/-- To paint a text adds nothing but colour. -/
theorem paint (tone : Tone) {text : String} (unescaped : '\x1b' ∉ text.toList) :
    Bare (tone.paint text true) (tone.paint text false) := by
  have off : ∀ rest, dropColors (reset.toList ++ rest) = dropColors rest := fun rest =>
    dropColors_of_after rfl
  have on : ∀ code, tone.code? = some code → ∀ rest,
      dropColors (code.toList ++ rest) = dropColors rest := by
    intro code coded rest
    cases tone with
    | plain => cases coded
    | _ => exact Option.some.inj coded ▸ dropColors_of_after rfl
  unfold Tone.paint
  split
  next code coded =>
      intro rest
      rw [if_pos rfl, if_neg Bool.false_ne_true, String.toList_append, String.toList_append,
        List.append_assoc, List.append_assoc, on code coded, of_notMem unescaped, off]
  next => exact of_notMem unescaped

end Bare

end Tone

namespace Summary

open Tone

variable {report : Report} {colors : Bool}

inductive PassedLine (colors : Bool) : String → String → Prop
  | intro (version : String) :
      PassedLine colors version (green.paint ("The tests did pass on version " ++ version) colors)

/-- The line of a version that failed, in its tests or in a stage before them. -/
inductive FailedLine (colors : Bool) : FailedVersion → String → Prop
  | tests (version output : String) :
      FailedLine colors ⟨version, output, none⟩
        (red.paint ("The tests did not pass on version " ++ version) colors)
  | stage (version output : String) (stage : Stage) :
      FailedLine colors ⟨version, output, some stage⟩
        (red.paint ("Something went wrong while " ++ stage.name ++ " for version " ++ version) colors)

def failedText (colors : Bool) (failed : FailedVersion) : String :=
  red.paint (match failed.stage with
    | some stage => "Something went wrong while " ++ stage.name ++ " for version " ++ failed.version
    | none => "The tests did not pass on version " ++ failed.version) colors

/-- The line of a failed version says whether its tests failed or which stage broke. -/
theorem failedLine_failedText (colors : Bool) (failed : FailedVersion) :
    FailedLine colors failed (failedText colors failed) := by
  obtain ⟨version, output, stage⟩ := failed
  cases stage with
  | none => exact .tests version output
  | some stage => exact .stage version output stage

theorem forall₂_map {α β : Type} {relates : α → β → Prop} {image : α → β}
    (each : ∀ element, relates element (image element)) (list : List α) :
    List.Forall₂ relates list (list.map image) :=
  List.forall₂_map_right_iff.2 (List.forall₂_same.2 fun element _ => each element)

/-- Without repeated outputs the results are the heading and one line for each version, those that
passed first. -/
theorem exists_resultLines (report : Report) (colors : Bool) :
    ∃ passed failed, List.Forall₂ (PassedLine colors) report.passed passed ∧
      List.Forall₂ (FailedLine colors) report.failed failed ∧
      render report colors true =
        "\n" ++ heading report ++ String.join ((passed ++ failed).map (· ++ "\n")) := by
  refine ⟨_, _, forall₂_map PassedLine.intro report.passed,
    forall₂_map (failedLine_failedText colors) report.failed, ?_⟩
  have passed : (fun version => green.paint ("The tests did pass on version " ++ version) colors ++ "\n") =
      passedLine colors := rfl
  have failed : (fun failed => failedText colors failed ++ "\n") = failedLine colors := by
    funext failed
    obtain ⟨version, output, stage⟩ := failed
    cases stage <;> rfl
  rw [List.map_append, List.map_map, List.map_map, Function.comp_def, Function.comp_def, passed, failed,
    String.join_append, ← String.append_assoc, render, if_pos rfl, String.append_empty]

end Summary

end VersionMatrix
