import VersionMatrix.Proofs.Json.Report
import VersionMatrix.Proofs.Json.Request

/-! Requests, results and reports are read from every form and every spelling of it, and from nothing that
falls short of a form or goes on after it. -/
namespace VersionMatrix

namespace Json

variable {α : Type} {names asked : List String} {json : Json} {found : List (Option Json)}

/-- How a reader takes the texts of records. It reads a record from every text of each of its forms, and what
is written of a record is one of them. It refuses the misfits, and what it has read it refuses with more than
white space after it. -/
structure ReadsForms (toJson : α → Json) (ofJson? : Json → Option α) (IsProper : α → Prop)
    (fields : α → List Field) (names asked : List String) : Prop where
  written : ∀ value, IsForm (fields value) (toJson value)
  forms : ∀ value, IsProper value → ∀ json, IsForm (fields value) json →
    ∀ text : String, Spells json.tokens text.toList → (read? text).bind ofJson? = some value
  misfits : ∀ json, Misfits names asked json →
    ∀ text, read? text = some json → (read? text).bind ofJson? = none
  ends : ∀ text value, (read? text).bind ofJson? = some value →
    ∀ rest : String, (∃ c ∈ rest.toList, isGap c = false) → (read? (text ++ rest)).bind ofJson? = none

/-- Fields are found in arrays and objects only. -/
theorem isContainer_of_fields? (fields : json.fields? names = some found) : json.isContainer = true := by
  cases json with
  | array items => rfl
  | object members => rfl
  | _ => cases fields

/-- A reader of values that takes the forms of a record and refuses its misfits makes a reader of
texts that does. -/
theorem ReadsForms.of_values {toJson : α → Json} {ofJson? : Json → Option α} {IsProper : α → Prop}
    {fields : α → List Field} (written : ∀ value, IsForm (fields value) (toJson value))
    (forms : ∀ value, IsProper value → ∀ json, IsForm (fields value) json → ofJson? json = some value)
    (misfits : ∀ json, Misfits names asked json → ofJson? json = none)
    (opens : ∀ json value, ofJson? json = some value → ∃ found, json.fields? names = some found) :
    ReadsForms toJson ofJson? IsProper fields names asked where
  written := written
  forms value proper json form text spells := by
    rw [read?, read_of_spells spells]
    exact forms value proper json form
  misfits json misfit text found := by
    rw [found]
    exact misfits json misfit
  ends text value decoded rest more := by
    obtain ⟨json, found, decoded⟩ := Option.bind_eq_some_iff.1 decoded
    obtain ⟨_, fields⟩ := opens json value decoded
    rw [read?_append found (isContainer_of_fields? fields) more]
    rfl

end Json

/-- Requests, results and reports, and the failed versions in a report, are read from an object with their
fields in any order and with other members, of any value, before, between and after them, and from the array
of their fields; white space and the spelling of numbers and strings make no difference. An object that lacks
a field or has one twice is refused, an array of another length too, and what has more than white space after
it. Only a failed version may lack its stage, and has none then. -/
theorem records_read_from_forms :
    Json.ReadsForms RunRequest.toJson RunRequest.ofJson? (fun _ => True) RunRequest.fields
      RunRequest.fieldNames RunRequest.fieldNames ∧
    Json.ReadsForms RunResult.toJson RunResult.ofJson? (fun _ => True) RunResult.fields
      RunResult.fieldNames RunResult.fieldNames ∧
    Json.ReadsForms Report.toJson Report.ofJson? Report.IsProper Report.fields Report.fieldNames
      Report.fieldNames ∧
    Json.ReadsForms FailedVersion.toJson FailedVersion.ofJson? (fun _ => True) FailedVersion.fields
      FailedVersion.fieldNames ["version", "output"] ∧
    ∀ json items item, Report.ListsFailed items json → item ∈ items →
      Json.Misfits FailedVersion.fieldNames ["version", "output"] item →
      ∀ text, Json.read? text = some json → (Json.read? text).bind Report.ofJson? = none := by
  refine ⟨?_, ?_, ?_, ?_, ?_⟩
  · exact .of_values RunRequest.isForm_toJson (fun _ _ _ => RunRequest.ofJson?_of_isForm)
      (fun _ => RunRequest.ofJson?_eq_none) fun _ _ => RunRequest.exists_fields?
  · exact .of_values RunResult.isForm_toJson (fun _ _ _ => RunResult.ofJson?_of_isForm)
      (fun _ => RunResult.ofJson?_eq_none) fun _ _ => RunResult.exists_fields?
  · exact .of_values Report.isForm_toJson (fun _ proper _ => Report.ofJson?_of_isForm proper)
      (fun _ => Report.ofJson?_eq_none) fun _ _ => Report.exists_fields?
  · exact .of_values FailedVersion.isForm_toJson (fun _ _ _ => FailedVersion.ofJson?_of_isForm)
      (fun _ => FailedVersion.ofJson?_eq_none) fun _ _ => FailedVersion.exists_fields?
  · intro json items item lists member misfits text found
    rw [found]
    exact Report.ofJson?_eq_none_of_failed lists member (FailedVersion.ofJson?_eq_none misfits)

/-- A result in an array, with an escape that it does not need. -/
theorem spells_escaped : Json.Spells (Json.array [.text "1", .bool true, .text ""]).tokens
    "[\"\\u0031\" ,true,\"\"]\n".toList := by
  have digit (n : Nat) (small : n < 16) := Json.isHexDigit_hexDigit small
  have one : Json.SpellsString (some "1") ['"', '\\', 'u', '0', '0', '3', '1', '"'] :=
    .quoted (.cons (.unit (digit 0 (by decide)) (digit 0 (by decide)) (digit 3 (by decide))
      (digit 1 (by decide))) .nil)
  have spells : Json.Spells
      [.openBracket, .string (some "1"), .comma, .bool true, .comma, .string (some ""), .closeBracket]
      ('[' :: (['"', '\\', 'u', '0', '0', '3', '1', '"'] ++ (' ' :: ',' :: (['t', 'r', 'u', 'e'] ++
        (',' :: (Json.quote (some "") ++ [']', '\n'])))))) :=
    .mark rfl rfl <| .closed one rfl <| .gap rfl <| .mark rfl rfl <|
      .token rfl (fun _ => Text.stopsAt_cons rfl) <| .mark rfl rfl <| .quoted <| .mark rfl rfl <| .gap rfl .nil
  exact spells

/-- A result with an escape, one without its output and one with more after it, and a report from the first
days with its fields out of order, an unknown member and a failed version without a stage. -/
theorem records_read_from_forms_mixed :
    let result : RunResult := ⟨"1", true, ""⟩
    let report : Report :=
      { total := 1, passed := [], failed := [⟨"1", "no", none⟩], startedAt := ⟨0, 0⟩, finishedAt := ⟨0, 5⟩ }
    let failed : Json := .record [("output", .text "no"), ("version", .text "1")]
    let time (instant : Instant) : Json := .text instant.write
    let json : Json := .record
      [("finished_at", time ⟨0, 5⟩), ("more", .array [.null, .string none]), ("started_at", time ⟨0, 0⟩),
        ("failed", .array [failed]), ("passed", .array []), ("total", .nat 1)]
    (Json.read? "[\"\\u0031\" ,true,\"\"]\n").bind RunResult.ofJson? = some result ∧
      (Json.read? (result.toJson.render ++ "]")).bind RunResult.ofJson? = none ∧
      (Json.read? (Json.record [("version", .text "1"), ("success", .bool true)]).render).bind
        RunResult.ofJson? = none ∧
      (Json.read? json.renderIndented).bind Report.ofJson? = some report := by
  intro result report failed time json
  obtain ⟨-, results, reports, -, -⟩ := records_read_from_forms
  refine ⟨?_, ?_, ?_, ?_⟩
  · exact results.forms result trivial _ (.array (.cons rfl (.cons rfl (.cons rfl .nil)))) _ spells_escaped
  · exact results.ends _ result result.ofJson?_render "]" ⟨']', by decide, rfl⟩
  · have lacking : Json.Misfits RunResult.fieldNames RunResult.fieldNames
        (.record [("version", .text "1"), ("success", .bool true)]) :=
      .lacking (List.mem_cons_of_mem _ (List.mem_cons_of_mem _ List.mem_cons_self)) (by decide)
    refine results.misfits _ lacking _ ?_
    rw [Json.read?, Json.read_render (by simp)]
    rfl
  · have proper : report.IsProper := ⟨by decide, ⟨by decide, by decide⟩, ⟨by decide, by decide⟩⟩
    have stageless : Json.IsForm (FailedVersion.fields ⟨"1", "no", none⟩) failed :=
      .object (.held rfl (.held rfl (.omitted rfl .nil))) (List.forall_mem_nil _) (List.Perm.swap ..)
    have form : Json.IsForm report.fields json := by
      refine @Json.IsForm.object _ _
        [("total", .nat 1), ("passed", .array []), ("failed", .array [failed]), ("started_at", time ⟨0, 0⟩),
          ("finished_at", time ⟨0, 5⟩)]
        [("more", .array [.null, .string none])] ?_ ?_ ?_
      · exact .held rfl (.held rfl (.held ⟨_, rfl, .cons stageless .nil⟩
          (.held ⟨_, rfl, .inl rfl⟩ (.held ⟨_, rfl, .inl rfl⟩ .nil))))
      · exact List.forall_mem_singleton.2 (by decide)
      · exact (List.Perm.swap _ _ _).trans (List.perm_reverse.1 (List.Perm.refl _))
    refine reports.forms report proper json form _ (Json.spells_renderIndented ?_)
    simp [json, failed, time]

end VersionMatrix
