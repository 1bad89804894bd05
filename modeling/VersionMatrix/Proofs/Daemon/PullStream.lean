import VersionMatrix.Daemon.Client
import VersionMatrix.Pipeline.Stages
import Mathlib.Data.List.Basic
import Mathlib.Data.List.TakeWhile

/-! What becomes of the items of a pull stream. The first one that is an error ends the reading, whether
the transport broke or the daemon reported the error in a record. Of the records before it those with a
status are shown, except for the phases that are reported over and over. -/
namespace VersionMatrix

/-- Reads a pull stream, and gives with what was read the part that was left. -/
def scanPull : EventStream → StreamReading × EventStream
  | [] => (([], .ok ()), [])
  | .error error :: rest => (([], .error (.engine error)), rest)
  | .ok event :: rest =>
    let later := scanPull rest
    (((pullLine? event).toList ++ later.1.1, later.1.2), later.2)

/-- What the reading of a pull stream gives, whatever part of it was left unread. -/
theorem readPull_eq_scan (stream : EventStream) : readPull stream = (scanPull stream).1 := by
  induction stream with
  | nil => rfl
  | cons item rest ih =>
      cases item with
      | error error => rfl
      | ok event => simp only [readPull, scanPull, ih]

/-- Events do not end the reading: their lines are shown. -/
theorem scanPull_append (events : List EngineEvent) (rest : EventStream) :
    scanPull (events.map .ok ++ rest) =
      let later := scanPull rest
      ((events.filterMap pullLine? ++ later.1.1, later.1.2), later.2) := by
  induction events with
  | nil => rfl
  | cons event events ih =>
      simp only [List.map_cons, List.cons_append, scanPull, ih, List.filterMap_cons]
      cases pullLine? event <;> rfl

/-- An item of the answer to a pull. -/
abbrev PullItem := Except ClientError ProgressRecord

namespace PullItem

/-- What is said of an item that is an error: what the daemon reported, or what befell the client. -/
def failure? : PullItem → Option String
  | .ok _ => none
  | .error (.reported text) => some text
  | .error error => some error.message

def line? : PullItem → Option String
  | .ok record => pullLine? { status := record.status, id := record.id, error := record.error }
  | .error _ => none

/-- How an item with a status is shown, unless it repeats a phase that goes on. -/
inductive Shows : PullItem → String → Prop
  | status {record : ProgressRecord} {status : String} (carried : record.status = some status)
      (news : status ≠ "Downloading" ∧ status ≠ "Extracting") (plain : record.id = none) :
      Shows (.ok record) status
  | named {record : ProgressRecord} {status id : String} (carried : record.status = some status)
      (news : status ≠ "Downloading" ∧ status ≠ "Extracting") (named : record.id = some id) :
      Shows (.ok record) (id ++ ": " ++ status)

variable {item : PullItem} {items : List PullItem} {line message : String}

/-- An item is shown by the line that the cases for its parts name. -/
theorem line?_eq_some_iff : line? item = some line ↔ Shows item line := by
  constructor
  · intro shown
    match item with
    | .ok ⟨some status, some id, log, error, detail⟩ =>
        simp only [line?, pullLine?] at shown
        split at shown
        next => cases shown
        next quiet =>
            obtain rfl := Option.some.inj shown
            exact .named rfl (not_or.1 quiet) rfl
    | .ok ⟨some status, none, log, error, detail⟩ =>
        simp only [line?, pullLine?] at shown
        split at shown
        next => cases shown
        next quiet =>
            obtain rfl := Option.some.inj shown
            exact .status rfl (not_or.1 quiet) rfl
  · intro shows
    cases shows with
    | status carried news plain => simp [line?, pullLine?, carried, news, plain]
    | named carried news named => simp [line?, pullLine?, carried, news, named]

/-- A record that carries an error is reported as that error, in the words of the daemon. -/
theorem failure?_report (record : ProgressRecord) :
    failure? (ProgressRecord.report (.ok record)) = record.error := by
  cases carried : record.error <;> simp [ProgressRecord.report, carried, failure?]

/-- The event that an item is unless it is an error. -/
def event : PullItem → EngineEvent
  | .ok record => { status := record.status, id := record.id, error := record.error }
  | .error _ => {}

/-- An item without an error is an event. -/
theorem pullEvent_of_sound (reference : String) (sound : failure? item = none) :
    ProgressRecord.pullEvent reference item = .ok item.event := by
  cases item with
  | ok record => rfl
  | error error => cases error <;> cases sound

/-- An item with an error is an error of the pull, whoever it comes from. -/
theorem pullEvent_of_failure (reference : String) (failed : failure? item = some message) :
    ProgressRecord.pullEvent reference item = .error (.pull reference message) := by
  cases item with
  | ok record => cases failed
  | error error => cases error <;> cases failed <;> rfl

theorem pullLine?_event (item : PullItem) : pullLine? item.event = item.line? := by
  cases item <;> rfl

/-- Items that are no errors are read to the last. -/
theorem scan_append (reference : String) (sound : ∀ item ∈ items, failure? item = none)
    (rest : EventStream) :
    scanPull (items.map (ProgressRecord.pullEvent reference) ++ rest) =
      let later := scanPull rest
      ((items.filterMap line? ++ later.1.1, later.1.2), later.2) := by
  have events : items.map (ProgressRecord.pullEvent reference) = (items.map event).map .ok := by
    rw [List.map_map]
    exact List.map_congr_left fun item member => pullEvent_of_sound reference (sound item member)
  rw [events, scanPull_append, List.filterMap_map]
  simp only [Function.comp_def, pullLine?_event]

/-- Items without errors are all read, and the pull succeeds. -/
theorem scan_of_sound (reference : String) (sound : ∀ item ∈ items, failure? item = none) :
    scanPull (items.map (ProgressRecord.pullEvent reference)) =
      ((items.filterMap line?, .ok ()), []) := by
  have whole := scan_append reference sound []
  simpa only [List.append_nil, scanPull] using whole

/-- The first item with an error ends the reading, and what follows it is left. -/
theorem scan_of_failure (reference : String) (sound : ∀ item ∈ items, failure? item = none)
    (failed : failure? item = some message) (after : List PullItem) :
    scanPull ((items ++ item :: after).map (ProgressRecord.pullEvent reference)) =
      ((items.filterMap line?, .error (.engine (.pull reference message))),
        after.map (ProgressRecord.pullEvent reference)) := by
  rw [List.map_append, List.map_cons, pullEvent_of_failure reference failed,
    scan_append reference sound]
  simp only [scanPull, List.append_nil]

/-- A reading shows what comes before the first error, and ends with that error if there is one. -/
theorem readPull_eq (reference : String) (items : List PullItem) :
    readPull (items.map (ProgressRecord.pullEvent reference)) =
      ((items.takeWhile fun item => (failure? item).isNone).filterMap line?,
        match items.findSome? failure? with
        | none => .ok ()
        | some message => .error (.engine (.pull reference message))) := by
  rw [readPull_eq_scan]
  cases found : items.findSome? failure? with
  | none =>
      have sound := List.findSome?_eq_none_iff.1 found
      rw [scan_of_sound reference sound, List.takeWhile_eq_self_iff.2]
      exact fun item member => Option.isNone_iff_eq_none.2 (sound item member)
  | some message =>
      obtain ⟨before, item, after, rfl, failed, sound⟩ := List.findSome?_eq_some_iff.1 found
      rw [scan_of_failure reference sound failed, List.takeWhile_append_of_pos,
        List.takeWhile_cons_of_neg (by simp [failed]), List.append_nil]
      exact fun item member => Option.isNone_iff_eq_none.2 (sound item member)

end PullItem

open PullItem

/-- What becomes of the items of a pull of `baseImage:version`. The stage succeeds if no item is an error.
Otherwise it fails with the message of the first one that is, which is the daemon's own text if that
reported it; what comes after it is left unread and makes no difference. If the run is verbose, the items
before it are shown that carry a status other than the two that are reported over and over, in their
order, each behind its id if it has one, and nothing else is shown. -/
theorem takeStream_pullItems (baseImage version : String) (verbose : Bool) (items : List PullItem) :
    let event := ProgressRecord.pullEvent (baseReference baseImage version)
    let pulled (items : List PullItem) := takeStream verbose readPull (.ok (items.map event))
    ((pulled items).result = .ok () ↔ ∀ item ∈ items, failure? item = none) ∧
    (∀ before item after message, items = before ++ item :: after →
      (∀ earlier ∈ before, failure? earlier = none) → failure? item = some message →
      (pulled items).result = .error (.engine (.pull (baseImage ++ ":" ++ version) message)) ∧
      scanPull (items.map event) = (readPull (items.map event), after.map event) ∧
      ∀ others, pulled (before ++ item :: others) = pulled items) ∧
    (pulled items).events = (if verbose then
      ((items.takeWhile fun item => (failure? item).isNone).filterMap line?).map .line else []) ∧
    (∀ item line, line? item = some line ↔ Shows item line) ∧
    (∀ record : ProgressRecord,
      failure? (ProgressRecord.report (.ok record)) = record.error) ∧
    ∀ daemon : Daemon,
      daemon.progress (.pull (baseReference baseImage version)) ProgressRecord.ofPull? = items →
      takeStream verbose readPull (daemon.engine.pull (baseReference baseImage version)).answer =
        pulled items := by
  intro event pulled
  have read (items : List PullItem) : pulled items = .ofReading verbose (readPull (items.map event)) := rfl
  refine ⟨?_, fun before item after message split sound failed => ?_, ?_, fun _ _ => line?_eq_some_iff,
    failure?_report, ?_⟩
  · rw [read, readPull_eq, StageStep.ofReading, ← List.findSome?_eq_none_iff]
    cases items.findSome? failure? <;> simp
  · subst split
    have scanned := scan_of_failure (baseReference baseImage version) sound failed
    refine ⟨?_, ?_, fun others => ?_⟩
    · rw [read, readPull_eq_scan, scanned]
      rfl
    · rw [readPull_eq_scan, scanned]
    · rw [read, read, readPull_eq_scan, readPull_eq_scan, scanned, scanned]
  · rw [read, readPull_eq]
    rfl
  · rintro daemon rfl
    rfl

example :
    let items : List PullItem :=
      [.ok { status := some "Pulling" }, .ok { status := some "Extracting", id := some "a" },
        .ok { status := some "Done", id := some "a" }, .error (.reported "no space"), .error .cutShort]
    readPull (items.map (ProgressRecord.pullEvent "b:1")) =
      (["Pulling", "a: Done"], .error (.engine (.pull "b:1" "no space"))) := by
  decide +kernel

end VersionMatrix
