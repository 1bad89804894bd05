import VersionMatrix.CommandLine.View
import VersionMatrix.Proofs.CommandLine.Requests
import Mathlib.Data.List.Forall2

/-! What a board shows after any calls. Its rows are those of the versions that have reported a state, in the
order in which they first did, and each holds the latest state of its version. Neither lines of output nor
writes that fail leave anything in them, and so the next text that is written whole is the full board. -/
namespace VersionMatrix

def BoardCall.report? : BoardCall → Option (String × RunState)
  | .state version news => some (version, news)
  | .line .. => none

def reported (calls : List BoardCall) : List (String × RunState) :=
  calls.filterMap BoardCall.report?

/-- The versions that have reported a state, in the order in which they first did. -/
def versionsIn (reports : List (String × RunState)) : List String :=
  (reports.map Prod.fst).eraseDups

def latest? (reports : List (String × RunState)) (version : String) : Option RunState :=
  reports.reverse.lookup version

def BoardRow.of (version : String) (state : RunState) : BoardRow where
  version := version
  message := state.display
  tone := Tone.ofState state

variable {reports : List (String × RunState)} {rows : List BoardRow} {row : BoardRow}
  {version : String} {state : RunState}

/-- The report that comes last counts for its version, and changes nothing for the others. -/
theorem latest?_concat (reports : List (String × RunState)) (version other : String) (state : RunState) :
    latest? (reports ++ [(version, state)]) other =
      if other = version then some state else latest? reports other := by
  by_cases same : other = version
  · simp [latest?, same]
  · simp [latest?, List.lookup_cons, beq_eq_false_iff_ne.2 same, same]

/-- A version that is known keeps its place. -/
theorem versionsIn_concat_of_mem (known : version ∈ versionsIn reports) (state : RunState) :
    versionsIn (reports ++ [(version, state)]) = versionsIn reports := by
  have mentioned : version ∈ reports.map Prod.fst := List.mem_eraseDups.1 known
  rw [versionsIn, versionsIn, List.map_append, List.eraseDups_append]
  simp [List.removeAll, mentioned]

/-- A version that is new comes behind the others. -/
theorem versionsIn_concat_of_notMem (new : version ∉ versionsIn reports) (state : RunState) :
    versionsIn (reports ++ [(version, state)]) = versionsIn reports ++ [version] := by
  have unmentioned : version ∉ reports.map Prod.fst := fun mentioned =>
    new (List.mem_eraseDups.2 mentioned)
  rw [versionsIn, versionsIn, List.map_append, List.eraseDups_append]
  simp [List.removeAll, unmentioned, List.eraseDups_cons]

namespace Board

/-- The row of a new version comes behind the others. -/
theorem setRow_of_fresh (fresh : ∀ other ∈ rows, other.version ≠ row.version) :
    setRow row rows = rows ++ [row] := by
  induction rows with
  | nil => rfl
  | cons first rest ih =>
      obtain ⟨differs, others⟩ := List.forall_mem_cons.1 fresh
      rw [setRow, if_neg differs, ih others, List.cons_append]

/-- Among rows of different versions, one is replaced and the others stay. -/
theorem forall₂_setRow {shows shows' : String → BoardRow → Prop} {versions : List String}
    (named : ∀ version other, shows version other → other.version = version)
    (kept : ∀ version other, version ≠ row.version → shows version other → shows' version other)
    (own : shows' row.version row) (distinct : versions.Nodup) (known : row.version ∈ versions)
    (shown : List.Forall₂ shows versions rows) : List.Forall₂ shows' versions (setRow row rows) := by
  induction shown with
  | nil => cases known
  | @cons version first versions rest here others ih =>
      obtain ⟨once, distinct⟩ := List.nodup_cons.1 distinct
      rw [setRow, named version first here]
      by_cases same : version = row.version
      · rw [if_pos same]
        have differ : ∀ other ∈ versions, other ≠ row.version := fun other member equal =>
          once (same.trans equal.symm ▸ member)
        exact .cons (same ▸ own) (((List.forall₂_and_left _ _).2 ⟨differ, others⟩).imp
          fun other row shown => kept other row shown.1 shown.2)
      · rw [if_neg same]
        exact .cons (kept version first same here)
          (ih distinct ((List.mem_cons.1 known).resolve_left (Ne.symm same)))

def IsLatest (reports : List (String × RunState)) (version : String) (row : BoardRow) : Prop :=
  ∃ state, latest? reports version = some state ∧ row = .of version state

theorem IsLatest.version_eq {other : String} (shown : IsLatest reports other row) :
    row.version = other := by
  obtain ⟨_, -, rfl⟩ := shown
  rfl

/-- A row stays the latest of its version while the others report. -/
theorem IsLatest.concat {other : String} (shown : IsLatest reports other row) (differs : other ≠ version)
    (state : RunState) : IsLatest (reports ++ [(version, state)]) other row := by
  obtain ⟨state', latest, rfl⟩ := shown
  exact ⟨state', by rw [latest?_concat, if_neg differs, latest], rfl⟩

theorem isLatest_own (reports : List (String × RunState)) (version : String) (state : RunState) :
    IsLatest (reports ++ [(version, state)]) version (.of version state) :=
  ⟨state, by rw [latest?_concat, if_pos rfl], rfl⟩

/-- Each version has one row, which shows its latest state, and there are no other rows. -/
def Shows (reports : List (String × RunState)) (rows : List BoardRow) : Prop :=
  List.Forall₂ (IsLatest reports) (versionsIn reports) rows

theorem Shows.version_mem (shown : Shows reports rows) (member : row ∈ rows) :
    row.version ∈ versionsIn reports := by
  unfold Shows at shown
  generalize versionsIn reports = versions at shown
  induction shown with
  | nil => cases member
  | cons here others ih =>
      rcases List.mem_cons.1 member with rfl | later
      · exact here.version_eq ▸ List.mem_cons_self
      · exact List.mem_cons_of_mem _ (ih later)

/-- What one report changes. -/
theorem Shows.setRow (shown : Shows reports rows) (version : String) (state : RunState) :
    Shows (reports ++ [(version, state)]) (Board.setRow (.of version state) rows) := by
  have own := isLatest_own reports version state
  by_cases known : version ∈ versionsIn reports
  · rw [Shows, versionsIn_concat_of_mem known]
    exact forall₂_setRow (fun _ _ => IsLatest.version_eq)
      (fun _ _ differs shown => shown.concat differs state) own (nodup_eraseDups _) known shown
  · have fresh : ∀ other ∈ rows, other.version ≠ version := fun other member same =>
      known (same ▸ shown.version_mem member)
    have differ : ∀ other ∈ versionsIn reports, other ≠ version := fun other member =>
      ne_of_mem_of_not_mem member known
    rw [Shows, versionsIn_concat_of_notMem known, setRow_of_fresh fresh]
    exact List.rel_append (((List.forall₂_and_left _ _).2 ⟨differ, shown⟩).imp
      fun _ _ shown => shown.2.concat shown.1 state) (.cons own .nil)

def IsText (reports : List (String × RunState)) (version text : String) : Prop :=
  ∃ state, latest? reports version = some state ∧ text = version ++ "\t- " ++ state.display

def IsLine (colors : Bool) (reports : List (String × RunState)) (version line : String) : Prop :=
  ∃ state, latest? reports version = some state ∧
    line = (Tone.ofState state).paint (version ++ "\t- " ++ state.display) colors ++ "\n"

/-- A snapshot has one text for each version, in the order in which they first appeared. -/
theorem Shows.snapshot {board : Board} (shown : Shows reports board.rows) :
    List.Forall₂ (IsText reports) (versionsIn reports) board.snapshot := by
  refine List.forall₂_map_right_iff.2 (shown.imp ?_)
  rintro version _ ⟨state, latest, rfl⟩
  exact ⟨state, latest, rfl⟩

/-- A frame has one line for each version, in the order in which they first appeared. -/
theorem Shows.lines (shown : Shows reports rows) (colors : Bool) :
    List.Forall₂ (IsLine colors reports) (versionsIn reports)
      (rows.map fun row => row.tone.paint row.text colors ++ "\n") := by
  refine List.forall₂_map_right_iff.2 (shown.imp ?_)
  rintro version _ ⟨state, latest, rfl⟩
  exact ⟨state, latest, rfl⟩

end Board

namespace Screen

variable {topRow : Nat} {colors : Bool} {screen : Screen} {calls : List BoardCall}

theorem reported_concat (calls : List BoardCall) (call : BoardCall) :
    reported (calls ++ [call]) = reported calls ++ call.report?.toList := by
  cases call <;> simp [reported, BoardCall.report?]

/-- A screen after some calls. -/
structure After (topRow : Nat) (colors : Bool) (calls : List BoardCall) (screen : Screen) : Prop where
  topRow : screen.board.topRow = topRow
  colors : screen.board.colors = colors
  rows : Board.Shows (reported calls) screen.board.rows

theorem After.call (after : After topRow colors calls screen) (call : BoardCall) (outcome : WriteOutcome) :
    After topRow colors (calls ++ [call]) (screen.call call outcome) := by
  cases call with
  | state version state =>
      refine ⟨after.topRow, after.colors, ?_⟩
      rw [reported_concat]
      exact after.rows.setRow version state
  | line version text =>
      refine ⟨after.topRow, after.colors, ?_⟩
      rw [reported_concat, BoardCall.report?, Option.toList_none, List.append_nil]
      exact after.rows

/-- The text that moves to the top row and clears what is below. -/
def restart (topRow : Nat) : String := "\x1b[" ++ Nat.repr (max topRow 1) ++ ";1H\x1b[J"

/-- A frame redraws the whole board: it clears what was there and has a line for each version. -/
theorem After.frame (after : After topRow colors calls screen) :
    ∃ lines, List.Forall₂ (Board.IsLine colors (reported calls)) (versionsIn (reported calls)) lines ∧
      screen.board.frame = restart topRow ++ String.join lines := by
  refine ⟨_, after.rows.lines colors, ?_⟩
  rw [Board.frame, after.topRow, after.colors, restart]

/-- The call that a row of a log makes on a board. -/
def callOf? (row : LogRow) : Option BoardCall :=
  match row.event with
  | .state state => some (.state row.version state)
  | .line text => some (.line row.version text)
  | _ => none

/-- The text that shows a log on a board is what is written when no write fails. -/
theorem written_frames (screen : Screen) (log : List LogRow) :
    (screen.callAll ((log.filterMap callOf?).map fun call => (call, .whole))).written =
      screen.written ++ Text.utf8 (View.frames screen.board log) := by
  induction log generalizing screen with
  | nil => simp [callAll, View.frames, Text.utf8]
  | cons row rest ih =>
      obtain ⟨time, place, version, event⟩ := row
      cases event with
      | state state =>
          have first : (screen.call (.state version state) .whole).written =
              screen.written ++ Text.utf8 (screen.board.update version state).frame := rfl
          have together : ∀ front back : String,
              Text.utf8 (front ++ back) = Text.utf8 front ++ Text.utf8 back := fun front back => by
            simp [Text.utf8]
          calc
            _ = ((screen.call (.state version state) .whole).callAll
                  ((rest.filterMap callOf?).map fun call => (call, .whole))).written := rfl
            _ = _ := by
              rw [ih, first, List.append_assoc, ← together]
              rfl
      | _ => exact ih screen

end Screen

end VersionMatrix
