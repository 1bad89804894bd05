import VersionMatrix.Report
import VersionMatrix.Proofs.Json.Form
import VersionMatrix.Proofs.Time.Rfc3339
import Mathlib.Data.Option.Defs

/-! Reports in JSON: what is written of one is read as the same, with its times to the nanosecond, and so is
every other form of it. How its times are spelled makes no difference to what is read. -/
namespace VersionMatrix

namespace Stage

/-- The values that stand for a stage: its name, or an object of that key with null under it. -/
def IsForm (stage : Stage) (json : Json) : Prop :=
  json = .text stage.name ∨ json = .object [(some stage.name, .null)]

/-- A stage is read from each of the values that stand for it. -/
theorem optional_of_isForm {stage : Stage} {json : Json} (form : stage.IsForm json) :
    Json.optional ofJson? json = some (some stage) := by
  have named : ofName? stage.name = some stage := stage.ofName?_name
  rcases form with rfl | rfl
  · rw [Json.text, Json.optional, ofJson?, named, Option.map_some]
    rintro ⟨⟩
  · rw [Json.optional, ofJson?, named, Option.map_some]
    rintro ⟨⟩

end Stage

namespace FailedVersion

variable {failed : FailedVersion} {json : Json}

theorem isProper_toJson (failed : FailedVersion) : failed.toJson.IsProper := by
  cases named : failed.stage <;> simp [toJson, named, Stage.toJson]

def fieldNames : List String := ["version", "output", "stage"]

/-- The fields of a failed version. Without a stage there may be null or nothing. -/
def fields (failed : FailedVersion) : List Json.Field :=
  [.exact ("version", .text failed.version), .exact ("output", .text failed.output),
    { name := "stage"
      Holds := fun json => match failed.stage with
        | some stage => stage.IsForm json
        | none => json = .null
      omissible := failed.stage = none }]

/-- What is written of a failed version is one of its forms. -/
theorem isForm_toJson (failed : FailedVersion) : Json.IsForm failed.fields failed.toJson := by
  refine .of_lists (.held rfl (.held rfl (.held ?_ .nil)))
  cases failed.stage with
  | none => rfl
  | some stage => exact .inl rfl

theorem stage_of_accepts {stage : Option Stage} {found : Option Json}
    (accepts : match found with
      | some json => match stage with
        | some stage => stage.IsForm json
        | none => json = .null
      | none => stage = none) : Json.omissible Stage.ofJson? found = some stage := by
  cases found with
  | none => rw [accepts, Json.omissible]
  | some json =>
      cases stage with
      | none =>
          rw [accepts]
          rfl
      | some stage => exact stage.optional_of_isForm accepts

/-- A failed version is read from each of its forms. -/
theorem ofJson?_of_isForm (form : Json.IsForm failed.fields json) : ofJson? json = some failed := by
  have distinct : fieldNames.Nodup := by decide
  obtain ⟨found, fields, accepts⟩ := form.exists_fields? distinct
  rcases accepts with _ | ⟨version, _ | ⟨output, _ | ⟨stage, _ | _⟩⟩⟩
  have fields : json.fields? ["version", "output", "stage"] = _ := fields
  rw [ofJson?, fields]
  have version := Json.Field.required_eq version not_false fun _ => congrArg Json.text?
  have output := Json.Field.required_eq output not_false fun _ => congrArg Json.text?
  have stage := stage_of_accepts stage
  simp [version, output, stage]

theorem exists_fields? (read : ofJson? json = some failed) : ∃ found, json.fields? fieldNames = some found := by
  obtain ⟨found, fields, -⟩ := Option.bind_eq_some_iff.1 read
  exact ⟨found, fields⟩

/-- A failed version is read from no misfit. -/
theorem ofJson?_eq_none (misfits : Json.Misfits fieldNames ["version", "output"] json) :
    ofJson? json = none := by
  refine misfits.refused (fun _ => exists_fields?) fun found fields name asked missing => ?_
  rw [fieldNames] at fields
  rw [ofJson?, fields]
  simp only [List.mem_cons, List.not_mem_nil, or_false] at asked
  rcases asked with rfl | rfl <;> simp [Json.required, missing]

end FailedVersion

namespace Report

variable {report : Report} {json item : Json} {items : List Json}

/-- The number of versions fits a word, and both times are in years that dates may have. -/
structure IsProper (report : Report) : Prop where
  total : report.total < Text.wordLimit
  startedAt : report.startedAt.IsValid
  finishedAt : report.finishedAt.IsValid

theorem isProper_toJson (report : Report) : report.toJson.IsProper := by
  simp [toJson, FailedVersion.isProper_toJson]

/-- A time is read from its text. -/
theorem instant?_text (text : String) : instant? (.text text) = Instant.read? text := rfl

def fieldNames : List String := ["total", "passed", "failed", "started_at", "finished_at"]

/-- The texts that stand for a time: what is written of it, and all its spellings. -/
def SpellsTime (instant : Instant) (json : Json) : Prop :=
  ∃ text, json = .text text ∧ (text = instant.write ∨ Instant.Spells text instant)

/-- The fields of a report. Its failed versions may each have another form, and its times any spelling. -/
def fields (report : Report) : List Json.Field :=
  [.exact ("total", .nat report.total), .exact ("passed", .array (report.passed.map .text)),
    { name := "failed"
      Holds := fun json => ∃ items, json = .array items ∧
        List.Forall₂ (fun failed item => Json.IsForm failed.fields item) report.failed items },
    { name := "started_at", Holds := SpellsTime report.startedAt },
    { name := "finished_at", Holds := SpellsTime report.finishedAt }]

/-- What is written of a report is one of its forms. -/
theorem isForm_toJson (report : Report) : Json.IsForm report.fields report.toJson := by
  refine .of_lists (.held rfl (.held rfl (.held ⟨_, rfl, ?_⟩ (.held ?_ (.held ?_ .nil)))))
  · rw [List.forall₂_map_right_iff, List.forall₂_same]
    exact fun failed _ => failed.isForm_toJson
  · exact ⟨_, rfl, .inl rfl⟩
  · exact ⟨_, rfl, .inl rfl⟩

/-- A time is read from each of its spellings. -/
theorem instant?_of_spellsTime {instant : Instant} (valid : instant.IsValid)
    (spells : SpellsTime instant json) : instant? json = some instant := by
  obtain ⟨text, rfl, rfl | spells⟩ := spells
  · rw [instant?_text, Instant.read?_write valid]
  · rw [instant?_text, spells.read?_eq_some]

/-- Failed versions are read from a list of forms, each of its own. -/
theorem list?_of_isForm {failed : List FailedVersion} (forms : ∃ items, json = .array items ∧
    List.Forall₂ (fun failed item => Json.IsForm failed.fields item) failed items) :
    Json.list? FailedVersion.ofJson? json = some failed := by
  obtain ⟨items, rfl, forms⟩ := forms
  exact Json.list?_eq_some (forms.imp fun _ _ => FailedVersion.ofJson?_of_isForm)

/-- A report is read from each of its forms. -/
theorem ofJson?_of_isForm (proper : report.IsProper) (form : Json.IsForm report.fields json) :
    ofJson? json = some report := by
  have distinct : fieldNames.Nodup := by decide
  obtain ⟨found, fields, accepts⟩ := form.exists_fields? distinct
  rcases accepts with _ | ⟨total, _ | ⟨passed, _ | ⟨failed, _ | ⟨start, _ | ⟨finish, _ | _⟩⟩⟩⟩⟩
  have fields : json.fields? ["total", "passed", "failed", "started_at", "finished_at"] = _ := fields
  rw [ofJson?, fields]
  have total := Json.Field.required_eq total not_false fun _ same =>
    (congrArg Json.word? same).trans (Json.word?_nat proper.total)
  have passed := Json.Field.required_eq passed not_false fun _ same =>
    (congrArg (Json.list? Json.text?) same).trans (Json.list?_map Json.text?_text report.passed)
  have failed := Json.Field.required_eq failed not_false fun _ => list?_of_isForm
  have start := Json.Field.required_eq start not_false fun _ => instant?_of_spellsTime proper.startedAt
  have finish := Json.Field.required_eq finish not_false fun _ => instant?_of_spellsTime proper.finishedAt
  simp [total, passed, failed, start, finish]

theorem exists_fields? (read : ofJson? json = some report) : ∃ found, json.fields? fieldNames = some found := by
  obtain ⟨found, fields, -⟩ := Option.bind_eq_some_iff.1 read
  exact ⟨found, fields⟩

/-- A report is read from no misfit. -/
theorem ofJson?_eq_none (misfits : Json.Misfits fieldNames fieldNames json) : ofJson? json = none := by
  refine misfits.refused (fun _ => exists_fields?) fun found fields name asked missing => ?_
  rw [fieldNames] at fields
  rw [ofJson?, fields]
  simp only [fieldNames, List.mem_cons, List.not_mem_nil, or_false] at asked
  rcases asked with rfl | rfl | rfl | rfl | rfl <;> simp [Json.required, missing]

/-- The values that have these items for the failed versions of a report. -/
inductive ListsFailed (items : List Json) : Json → Prop
  | object {members : List (Json.Key × Json)} (member : (some "failed", .array items) ∈ members) :
      ListsFailed items (.object members)
  | array {total passed startedAt finishedAt : Json} :
      ListsFailed items (.array [total, passed, .array items, startedAt, finishedAt])

/-- A report is refused with any of its failed versions. -/
theorem ofJson?_eq_none_of_failed (lists : ListsFailed items json) (member : item ∈ items)
    (refused : FailedVersion.ofJson? item = none) : ofJson? json = none := by
  have unread := Json.list?_eq_none member refused
  cases lists with
  | array => simp [ofJson?, Json.fields?, Json.required, unread]
  | @object members listed =>
      cases fields : (Json.object members).fields?
          ["total", "passed", "failed", "started_at", "finished_at"] with
      | none =>
          rw [ofJson?, fields]
          rfl
      | some found =>
          obtain ⟨rows, rfl, rfl, once⟩ := Json.exists_rows_of_fields? fields
          have held : ("failed", .array items) ∈ rows := by simpa using listed
          rw [ofJson?, fields]
          simp [Json.required, Json.lookup_of_mem held (once "failed" (by simp)), unread]

theorem ofJson?_toJson (proper : report.IsProper) : ofJson? report.toJson = some report :=
  ofJson?_of_isForm proper report.isForm_toJson

/-- Both texts of a report are read as the report. -/
theorem ofJson?_render (proper : report.IsProper) :
    (Json.read? report.toJson.render).bind ofJson? = some report ∧
      (Json.read? report.toJson.renderIndented).bind ofJson? = some report := by
  rw [Json.read?, Json.read?, Json.read_render report.isProper_toJson,
    Json.read_renderIndented report.isProper_toJson]
  exact ⟨ofJson?_toJson proper, ofJson?_toJson proper⟩

/-- A time that is read is one that the calendar has. -/
theorem isValid_of_instant? {instant : Instant} (read : instant? json = some instant) :
    instant.IsValid := by
  obtain ⟨text, -, read⟩ := Option.bind_eq_some_iff.1 read
  exact Instant.isValid_of_read? read

/-- Every report that is read is proper. -/
theorem isProper_of_ofJson? (read : ofJson? json = some report) : report.IsProper := by
  rw [ofJson?] at read
  obtain ⟨fields, -, read⟩ := Option.bind_eq_some_iff.1 read
  split at read
  next =>
      simp only [Json.required, Option.bind_eq_bind, Option.bind_eq_some_iff] at read
      obtain ⟨total, ⟨_, -, totals⟩, passed, -, failed, -, start, ⟨_, -, starts⟩, finish, ⟨_, -, finishes⟩,
        same⟩ := read
      obtain rfl := Option.some.inj same
      exact ⟨Json.lt_of_word? totals, isValid_of_instant? starts, isValid_of_instant? finishes⟩
  next => cases read

/-- The values of a field are the same, or they are a time of a report and both spell one instant. -/
def SameField (key : String) (json json' : Json) : Prop :=
  json = json' ∨ (key = "started_at" ∨ key = "finished_at") ∧
    ∃ (text text' : String) (instant : Instant), json = .text text ∧ json' = .text text' ∧
      Instant.Spells text instant ∧ Instant.Spells text' instant

/-- Two values differ at most in how the times of a report are spelled in them. -/
inductive Respelled : Json → Json → Prop
  | object {members members' : List (Option String × Json)}
      (agree : Json.AgreeBy SameField members members') : Respelled (.object members) (.object members')
  | array {startedAt startedAt' finishedAt finishedAt' : Json} (total passed failed : Json)
      (start : SameField "started_at" startedAt startedAt')
      (finish : SameField "finished_at" finishedAt finishedAt') :
      Respelled (.array [total, passed, failed, startedAt, finishedAt])
        (.array [total, passed, failed, startedAt', finishedAt'])

/-- A time is read alike from all spellings of one instant. -/
theorem instant?_eq {key : String} {json json' : Json} (same : SameField key json json') :
    instant? json = instant? json' := by
  rcases same with rfl | ⟨-, text, text', instant, rfl, rfl, spells, spells'⟩
  · rfl
  · rw [instant?_text, instant?_text, spells.read?_eq_some, spells'.read?_eq_some]

theorem SameField.eq {key : String} {json json' : Json} (same : SameField key json json')
    (other : key ≠ "started_at" ∧ key ≠ "finished_at") : json = json' :=
  same.resolve_right fun times => times.1.elim other.1 other.2

/-- How the times are spelled makes no difference to the report. -/
theorem ofJson?_eq {json' : Json} (respelled : Respelled json json') : ofJson? json = ofJson? json' := by
  cases respelled with
  | object agree =>
      obtain ⟨none, none'⟩ | ⟨found, found', some, some', related⟩ :=
        Json.fields?_object ["total", "passed", "failed", "started_at", "finished_at"] agree
      · rw [ofJson?, ofJson?, none, none']
      · have same (name : String) (other : name ≠ "started_at" ∧ name ≠ "finished_at") {α : Type}
            (decode? : Json → Option α) :
            Json.required decode? (found name) = Json.required decode? (found' name) :=
          Json.required_eq (related name) fun _ _ same => congrArg decode? (same.eq other)
        have time (name : String) :
            Json.required instant? (found name) = Json.required instant? (found' name) :=
          Json.required_eq (related name) fun _ _ => instant?_eq
        rw [ofJson?, ofJson?, some, some']
        simp [same, time]
  | array total passed failed start finish =>
      simp [ofJson?, Json.fields?, Json.required, instant?_eq start, instant?_eq finish]

/-- Reports are read as they were written, in either layout, and what is read of any text is the same after
it has been written and read again. Times may be spelled with any offset and with any number of digits: two
texts that differ only in this are read as the same report. -/
theorem reports_read_back :
    (∀ report : Report, report.IsProper →
      (Json.read? report.toJson.render).bind ofJson? = some report ∧
        (Json.read? report.toJson.renderIndented).bind ofJson? = some report) ∧
    (∀ text report, (Json.read? text).bind ofJson? = some report →
      (Json.read? report.toJson.render).bind ofJson? = some report ∧
        (Json.read? report.toJson.renderIndented).bind ofJson? = some report) ∧
    (∀ text instant, Instant.Spells text instant → Instant.read? text = some instant) ∧
    ∀ text text' json json', Json.read? text = some json → Json.read? text' = some json' →
      Respelled json json' →
        (Json.read? text).bind ofJson? = (Json.read? text').bind ofJson? ∧
        ((Json.read? text).bind ofJson?).map milliseconds =
          ((Json.read? text').bind ofJson?).map milliseconds := by
  refine ⟨fun report proper => ofJson?_render proper, fun text report read => ?_,
    fun text instant spells => spells.read?_eq_some, fun text text' json json' read read' respelled => ?_⟩
  · obtain ⟨json, -, decoded⟩ := Option.bind_eq_some_iff.1 read
    exact ofJson?_render (isProper_of_ofJson? decoded)
  · have same : (Json.read? text).bind ofJson? = (Json.read? text').bind ofJson? := by
      rw [read, read', Option.bind_some, Option.bind_some, ofJson?_eq respelled]
    exact ⟨same, congrArg (Option.map milliseconds) same⟩

/-- A run over the end of February that starts in a leap second, and the midnight after it as a clock behind
UTC shows it. -/
theorem reports_read_back_leapDay :
    let report : Report :=
      { total := 3, passed := ["1.0.0"]
        failed := [⟨"1.1.0", "exit 1", none⟩, ⟨"2.0.0-rc.1", "no image", some .building⟩]
        startedAt := ⟨1709251199, 1500000000⟩, finishedAt := ⟨1709251200, 20⟩ }
    let times (time : String) : Json := .array [.nat 0, .array [], .array [], .text time, .text time]
    ((Json.read? report.toJson.render).bind ofJson? = some report ∧
      (Json.read? report.toJson.renderIndented).bind ofJson? = some report) ∧
    (Json.read? (times "2024-03-01T00:00:00Z").render).bind ofJson? =
      (Json.read? (times "2024-02-29T20:30:00-03:30").render).bind ofJson? := by
  intro report times
  have proper : report.IsProper := ⟨by decide, ⟨by decide, by decide⟩, ⟨by decide, by decide⟩⟩
  have midnight : Instant.IsValid ⟨1709251200, 0⟩ := ⟨by decide, by decide⟩
  have utc : Instant.Spells "2024-03-01T00:00:00Z" ⟨1709251200, 0⟩ := by
    have spells := Instant.spells_spelled midnight (.utc (.inl rfl)) (by decide)
    rwa [show Instant.Spelling.text _ = "2024-03-01T00:00:00Z" by decide +kernel] at spells
  have behind : Instant.Spells "2024-02-29T20:30:00-03:30" ⟨1709251200, 0⟩ := by
    have spells := Instant.spells_spelled midnight (@Instant.Offset.behind 3 30 (by decide) (by decide))
      (by decide)
    rwa [show Instant.Spelling.text _ = "2024-02-29T20:30:00-03:30" by decide +kernel] at spells
  have read (time : String) : Json.read? (times time).render = some (times time) := by
    rw [Json.read?, Json.read_render (by simp [times])]
    rfl
  have same (key : String) (known : key = "started_at" ∨ key = "finished_at") :
      SameField key (.text "2024-03-01T00:00:00Z") (.text "2024-02-29T20:30:00-03:30") :=
    .inr ⟨known, _, _, _, rfl, rfl, utc, behind⟩
  exact ⟨reports_read_back.1 report proper, (reports_read_back.2.2.2 _ _ _ _ (read _) (read _)
    (.array _ _ _ (same _ (.inl rfl)) (same _ (.inr rfl)))).1⟩

end Report

end VersionMatrix
