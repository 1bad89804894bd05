import VersionMatrix.Daemon.RecordStream
import VersionMatrix.Pipeline.Streams
import Mathlib.Data.List.Basic
import Mathlib.Data.List.TakeWhile

/-! What becomes of the items of a build stream. Errors of two kinds come in it: the first one of the
transport ends the reading, and of those that the daemon reports the last one counts, but only if the
stream comes to its end. -/
namespace VersionMatrix

def buildVerdict : (lastError : Option String) → Except StageError Unit
  | some text => .error (.brokenBuild text)
  | none => .ok ()

/-- Reads a build stream, and gives with what was read the part that was left. -/
def scanBuildFrom (lastError : Option String) : EventStream → StreamReading × EventStream
  | [] => (([], buildVerdict lastError), [])
  | .error error :: rest => (([], .error (.engine error)), rest)
  | .ok event :: rest =>
    let later := scanBuildFrom (event.error.or lastError) rest
    ((buildLines event ++ later.1.1, later.1.2), later.2)

/-- The last error of some events, or else one from before. -/
def lastErrorOf (lastError : Option String) (events : List EngineEvent) : Option String :=
  (events.filterMap EngineEvent.error).getLast?.or lastError

variable {lastError : Option String} {events : List EngineEvent}

/-- What the reading of a build stream gives, whatever part of it was left unread. -/
theorem readBuildFrom_eq_scan (lastError : Option String) (stream : EventStream) :
    readBuildFrom lastError stream = (scanBuildFrom lastError stream).1 := by
  induction stream generalizing lastError with
  | nil => cases lastError <;> rfl
  | cons item rest ih =>
      cases item with
      | error error => rfl
      | ok event => simp only [readBuildFrom, scanBuildFrom, ih]

theorem lastErrorOf_cons (event : EngineEvent) :
    lastErrorOf lastError (event :: events) = lastErrorOf (event.error.or lastError) events := by
  cases carried : event.error <;> simp [lastErrorOf, carried, List.getLast?_cons]

/-- A build succeeds exactly if no item has carried an error. -/
theorem buildVerdict_eq_ok_iff : buildVerdict lastError = .ok () ↔ lastError = none := by
  cases lastError <;> simp [buildVerdict]

/-- Events do not end the reading: their lines are shown and their last error is kept. -/
theorem scanBuildFrom_append (lastError : Option String) (events : List EngineEvent)
    (rest : EventStream) :
    scanBuildFrom lastError (events.map .ok ++ rest) =
      let later := scanBuildFrom (lastErrorOf lastError events) rest
      ((events.flatMap buildLines ++ later.1.1, later.1.2), later.2) := by
  induction events generalizing lastError with
  | nil => rfl
  | cons event events ih =>
      simp only [List.map_cons, List.cons_append, scanBuildFrom, ih, lastErrorOf_cons,
        List.flatMap_cons, List.append_assoc]

/-- An item of the answer to a build. -/
abbrev BuildItem := Except ClientError ProgressRecord

namespace BuildItem

/-- The error of an item that broke the transport, which is any that the daemon did not report. -/
def transport? : BuildItem → Option ClientError
  | .error (.reported _) => none
  | .error error => some error
  | .ok _ => none

/-- The error that an item carries: one that was reported, or one in the record, or else the message of
its detail. -/
def reported? : BuildItem → Option String
  | .error (.reported text) => some text
  | .error _ => none
  | .ok record => record.error.or record.detail

/-- The lines of the log of an item that are not blank. -/
def logLines : BuildItem → List String
  | .error _ => []
  | .ok record => (record.log.elim [] Text.lines).filter fun line => !Text.isBlank line

/-- The event that an item is unless it broke the transport. -/
def event : BuildItem → EngineEvent
  | .error error => { error := some error.message }
  | .ok record =>
    { status := record.status, id := record.id, log := record.log
      error := record.error.or record.detail }

variable {item : BuildItem} {items : List BuildItem} {fault : ClientError}

/-- An item that the transport has brought is an event, also if it reports an error. -/
theorem buildEvent_of_sound (tag : String) (sound : item.transport? = none) :
    ProgressRecord.buildEvent tag item = .ok item.event := by
  match item, sound with
  | .error (.reported _), _ => rfl
  | .ok _, _ => rfl

/-- An item that broke the transport is an error of the build. -/
theorem buildEvent_of_transport (tag : String) (broken : item.transport? = some fault) :
    ProgressRecord.buildEvent tag item = .error (.build tag fault.message) := by
  cases item with
  | ok record => cases broken
  | error error => cases error <;> cases broken <;> rfl

/-- The error of an event is the one that its item reports. -/
theorem error_event (sound : item.transport? = none) : item.event.error = item.reported? := by
  match item, sound with
  | .error (.reported _), _ => rfl
  | .ok _, _ => rfl

theorem buildLines_event (item : BuildItem) : buildLines item.event = item.logLines := by
  cases item with
  | error error => rfl
  | ok record =>
      obtain ⟨_, _, log, _, _⟩ := record
      cases log <;> rfl

/-- Items that did not break the transport are read to the last, whatever errors they carry. -/
theorem scan_append (tag : String) (sound : ∀ item ∈ items, item.transport? = none)
    (rest : EventStream) :
    scanBuildFrom none (items.map (ProgressRecord.buildEvent tag) ++ rest) =
      let later := scanBuildFrom (items.filterMap reported?).getLast? rest
      ((items.flatMap logLines ++ later.1.1, later.1.2), later.2) := by
  have events : items.map (ProgressRecord.buildEvent tag) = (items.map event).map .ok := by
    rw [List.map_map]
    exact List.map_congr_left fun item member => buildEvent_of_sound tag (sound item member)
  have carried : (items.map event).filterMap EngineEvent.error = items.filterMap reported? := by
    rw [List.filterMap_map]
    exact List.filterMap_congr fun item member => error_event (sound item member)
  rw [events, scanBuildFrom_append, lastErrorOf, carried, Option.or_none, List.flatMap_map]
  simp only [buildLines_event]

/-- Items that the transport has brought are all read, and the last error among them fails the
build. -/
theorem scan_of_sound (tag : String) (sound : ∀ item ∈ items, item.transport? = none) :
    scanBuildFrom none (items.map (ProgressRecord.buildEvent tag)) =
      ((items.flatMap logLines, buildVerdict (items.filterMap reported?).getLast?), []) := by
  have whole := scan_append tag sound []
  simpa only [List.append_nil, scanBuildFrom] using whole

/-- The item that breaks the transport ends the reading, and what follows it is left. -/
theorem scan_of_transport (tag : String) (sound : ∀ item ∈ items, item.transport? = none)
    (broken : item.transport? = some fault) (after : List BuildItem) :
    scanBuildFrom none ((items ++ item :: after).map (ProgressRecord.buildEvent tag)) =
      ((items.flatMap logLines, .error (.engine (.build tag fault.message))),
        after.map (ProgressRecord.buildEvent tag)) := by
  rw [List.map_append, List.map_cons, buildEvent_of_transport tag broken, scan_append tag sound]
  simp only [scanBuildFrom, List.append_nil]

/-- Either all items are read, or there is a first one that broke the transport. -/
theorem sound_or_exists_transport (items : List BuildItem) :
    (∀ item ∈ items, item.transport? = none) ∨
      ∃ before item after fault, items = before ++ item :: after ∧
        (∀ earlier ∈ before, earlier.transport? = none) ∧ item.transport? = some fault := by
  cases broken : items.findSome? transport? with
  | none => exact .inl (List.findSome?_eq_none_iff.1 broken)
  | some fault =>
      obtain ⟨before, item, after, split, broken, sound⟩ := List.findSome?_eq_some_iff.1 broken
      exact .inr ⟨before, item, after, fault, split, sound, broken⟩

end BuildItem

open BuildItem

/-- What becomes of the items of a build. If one of them broke the transport, the build ends with the
first that did: what comes after it is left unread and makes no difference, and no error that was
reported before it counts. If none did, everything is read, and the build fails with the last error
that an item carries, or succeeds if no item carries any. The lines that are shown are those of all
items that were read, wherever errors stand among them. -/
theorem readBuild_items (tag : String) (items : List BuildItem) :
    let stream := items.map (ProgressRecord.buildEvent tag)
    (readBuild stream).1 =
      (items.takeWhile fun item => (transport? item).isNone).flatMap logLines ∧
    (∀ before item after fault, items = before ++ item :: after →
      (∀ earlier ∈ before, transport? earlier = none) → transport? item = some fault →
      (readBuild stream).2 = .error (.engine (.build tag fault.message)) ∧
      scanBuildFrom none stream = (readBuild stream, after.map (ProgressRecord.buildEvent tag)) ∧
      ∀ others : List BuildItem,
        readBuild ((before ++ item :: others).map (ProgressRecord.buildEvent tag)) = readBuild stream) ∧
    ((∀ item ∈ items, transport? item = none) →
      scanBuildFrom none stream = (readBuild stream, []) ∧
      ((readBuild stream).2 = .ok () ↔ ∀ item ∈ items, reported? item = none) ∧
      ∀ before item after text, items = before ++ item :: after → reported? item = some text →
        (∀ later ∈ after, reported? later = none) →
        (readBuild stream).2 = .error (.brokenBuild text)) := by
  intro stream
  have scanned : readBuild stream = (scanBuildFrom none stream).1 := readBuildFrom_eq_scan none stream
  refine ⟨?_, fun before item after fault split sound broken => ?_, fun sound => ?_⟩
  · rw [scanned]
    rcases sound_or_exists_transport items with sound | ⟨before, item, after, fault, rfl, sound, broken⟩
    · rw [scan_of_sound tag sound,
        List.takeWhile_eq_self_iff.2 fun item member => Option.isNone_iff_eq_none.2 (sound item member)]
    · rw [scan_of_transport tag sound broken,
        List.takeWhile_append_of_pos fun item member => Option.isNone_iff_eq_none.2 (sound item member),
        List.takeWhile_cons_of_neg (by simp [broken]), List.append_nil]
  · subst split
    rw [scanned, scan_of_transport tag sound broken]
    refine ⟨rfl, rfl, fun others => ?_⟩
    rw [readBuild, readBuildFrom_eq_scan, scan_of_transport tag sound broken]
  · rw [scanned, scan_of_sound tag sound]
    refine ⟨rfl, ?_, fun before item after text split carried silent => ?_⟩
    · rw [buildVerdict_eq_ok_iff, List.getLast?_eq_none_iff, List.filterMap_eq_nil_iff]
    · rw [split, List.filterMap_append, List.filterMap_cons_some carried,
        List.filterMap_eq_nil_iff.2 silent, List.getLast?_concat]
      rfl

example :
    let items : List BuildItem :=
      [.ok { log := some "a\n\nb" }, .error (.reported "x"), .ok { log := some "c", detail := some "y" }]
    readBuild (items.map (ProgressRecord.buildEvent "i:1")) =
      (["a", "b", "c"], .error (.brokenBuild "y")) := by
  cbv

end VersionMatrix
