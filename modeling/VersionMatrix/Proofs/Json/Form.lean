import VersionMatrix.Proofs.Json.Ending
import VersionMatrix.Proofs.Json.Record

/-! The JSON values that stand for a record: its fields in an object, in any order and among others, or in an
array. Values that fall short of this are refused. -/
namespace VersionMatrix.Json

/-- A field of a record: its name, the values that stand for what it holds, and whether an object may do
without it. -/
structure Field where
  name : String
  Holds : Json → Prop
  omissible : Prop := False

namespace Field

/-- A field that one value stands for. -/
def exact (row : String × Json) : Field where
  name := row.1
  Holds := (· = row.2)

/-- What may be found of a field. -/
def Accepts (field : Field) : Option Json → Prop
  | some value => field.Holds value
  | none => field.omissible

end Field

/-- Members that are these fields one after the other, without some that an object may do without. -/
inductive ListsFields : List Field → List (String × Json) → Prop
  | nil : ListsFields [] []
  | held {field : Field} {fields : List Field} {value : Json} {rows : List (String × Json)}
      (holds : field.Holds value) (more : ListsFields fields rows) :
      ListsFields (field :: fields) ((field.name, value) :: rows)
  | omitted {field : Field} {fields : List Field} {rows : List (String × Json)}
      (omissible : field.omissible) (more : ListsFields fields rows) : ListsFields (field :: fields) rows

/-- The values that stand for a record of these fields: an array of them in their order, or an object that has
each of them once and other members besides, in any order. Keys are texts, and the other members may have any
values. -/
inductive IsForm (fields : List Field) : Json → Prop
  | array {values : List Json} (held : List.Forall₂ Field.Holds fields values) : IsForm fields (.array values)
  | object {rows known strangers : List (String × Json)} (lists : ListsFields fields known)
      (unknown : ∀ row ∈ strangers, row.1 ∉ fields.map Field.name)
      (order : rows.Perm (known ++ strangers)) : IsForm fields (record rows)

/-- Values that stand for no record with fields of these names: an array of another length, and an object
that lacks a field that is asked for or has a known one twice. -/
inductive Misfits (names asked : List String) : Json → Prop
  | length {items : List Json} (other : items.length ≠ names.length) : Misfits names asked (.array items)
  | lacking {members : List (Key × Json)} {name : String} (isAsked : name ∈ asked)
      (absent : some name ∉ members.map Prod.fst) : Misfits names asked (.object members)
  | repeating {members : List (Key × Json)} {name : String} (isKnown : name ∈ names)
      (twice : 2 ≤ (members.map Prod.fst).count (some name)) : Misfits names asked (.object members)

variable {names asked : List String} {fields : List Field} {json : Json} {members : List (Key × Json)}
  {rows known strangers : List (String × Json)}

/-- Fields that are listed in an object are one of the forms. -/
theorem IsForm.of_lists (lists : ListsFields fields rows) : IsForm fields (record rows) :=
  .object lists (List.forall_mem_nil _) (by rw [List.append_nil])

theorem ListsFields.exact (rows : List (String × Json)) : ListsFields (rows.map .exact) rows := by
  induction rows with
  | nil => exact .nil
  | cons row rows ih => exact @ListsFields.held (Field.exact row) _ _ _ rfl ih

theorem lookup_eq_head?_filter (rows : List (String × Json)) (name : String) :
    rows.lookup name = (rows.filter (·.1 == name)).head?.map Prod.snd := by
  induction rows with
  | nil => rfl
  | cons row rows ih =>
      obtain ⟨key, value⟩ := row
      by_cases same : key = name
      · subst same
        simp
      · have other : (name == key) = false := beq_eq_false_iff_ne.2 (Ne.symm same)
        have other' : (key == name) = false := beq_eq_false_iff_ne.2 same
        rw [List.lookup_cons, other, ih, List.filter_cons]
        simp [other']

/-- A member whose name stands there once is found by it. -/
theorem lookup_of_mem {name : String} {value : Json} (member : (name, value) ∈ rows)
    (once : (rows.filter (·.1 == name)).length ≤ 1) : rows.lookup name = some value := by
  rw [lookup_eq_head?_filter]
  have kept : (name, value) ∈ rows.filter (·.1 == name) := List.mem_filter.2 ⟨member, by simp⟩
  obtain ⟨row, single⟩ := List.length_eq_one_iff.1 (Nat.le_antisymm once (List.length_pos_of_mem kept))
  rw [single] at kept ⊢
  rw [← List.mem_singleton.1 kept]
  rfl

/-- What members have under the name of a field: just one value that it holds, or nothing if it may be
left out. -/
def HasOnce (field : Field) (rows : List (String × Json)) : Prop :=
  (∃ value, rows.filter (·.1 == field.name) = [(field.name, value)] ∧ field.Holds value) ∨
    rows.filter (·.1 == field.name) = [] ∧ field.omissible

/-- What stands once under the name of a field, or may be left out, is accepted as the field. -/
theorem HasOnce.accepts {field : Field} (once : HasOnce field rows) :
    field.Accepts (rows.lookup field.name) := by
  rw [lookup_eq_head?_filter]
  obtain ⟨value, single, holds⟩ | ⟨empty, omissible⟩ := once
  · rw [single]
    exact holds
  · rw [empty]
    exact omissible

theorem HasOnce.length_le {field : Field} (once : HasOnce field rows) :
    (rows.filter (·.1 == field.name)).length ≤ 1 := by
  obtain ⟨value, single, -⟩ | ⟨empty, -⟩ := once
  · rw [single, List.length_singleton]
  · rw [empty]
    exact Nat.zero_le _

/-- How often a name stands among members does not hang on their order. -/
theorem HasOnce.of_perm {field : Field} {rows' : List (String × Json)} (once : HasOnce field rows)
    (order : rows'.Perm rows) : HasOnce field rows' := by
  have same := order.filter (·.1 == field.name)
  obtain ⟨value, single, holds⟩ | ⟨empty, omissible⟩ := once
  · rw [single] at same
    exact .inl ⟨value, List.perm_singleton.1 same, holds⟩
  · rw [empty] at same
    exact .inr ⟨List.perm_nil.1 same, omissible⟩

/-- Members that list fields have the names of these. -/
theorem ListsFields.name_mem (lists : ListsFields fields known) :
    ∀ row ∈ known, row.1 ∈ fields.map Field.name := by
  induction lists with
  | nil => nofun
  | held holds more ih =>
      exact List.forall_mem_cons.2 ⟨List.mem_cons_self, fun row member => List.mem_cons_of_mem _ (ih row member)⟩
  | omitted omissible more ih => exact fun row member => List.mem_cons_of_mem _ (ih row member)

theorem filter_eq_nil {name : String} (other : ∀ row ∈ rows, row.1 ≠ name) :
    rows.filter (·.1 == name) = [] :=
  List.filter_eq_nil_iff.2 fun row member => by simpa using other row member

/-- Members that list fields of different names have each of them once. -/
theorem ListsFields.hasOnce (lists : ListsFields fields known) (distinct : (fields.map Field.name).Nodup) :
    ∀ field ∈ fields, HasOnce field known := by
  induction lists with
  | nil => nofun
  | @held field fields value rows holds more ih =>
      obtain ⟨fresh, distinct⟩ := List.nodup_cons.1 distinct
      refine List.forall_mem_cons.2 ⟨.inl ⟨value, ?_, holds⟩, fun later member => ?_⟩
      · rw [List.filter_cons_of_pos (by simp), filter_eq_nil]
        rintro row member same
        exact fresh (same ▸ more.name_mem row member)
      · have other : field.name ≠ later.name := fun same => fresh (same ▸ List.mem_map_of_mem member)
        have skipped : ((field.name, value) :: rows).filter (·.1 == later.name) =
            rows.filter (·.1 == later.name) := List.filter_cons_of_neg (by simpa using other)
        rw [HasOnce, skipped]
        exact ih distinct later member
  | @omitted field fields rows omissible more ih =>
      obtain ⟨fresh, distinct⟩ := List.nodup_cons.1 distinct
      refine List.forall_mem_cons.2 ⟨.inr ⟨filter_eq_nil ?_, omissible⟩, ih distinct⟩
      rintro row member same
      exact fresh (same ▸ more.name_mem row member)

/-- The fields of an object are found by their names, if none of these stands there twice. -/
theorem fields?_record_eq (once : ∀ name ∈ names, (rows.filter (·.1 == name)).length ≤ 1) :
    (record rows).fields? names = some (names.map (rows.lookup ·)) := by
  rw [record, fields?, ← keyed?, keyed?_map]
  exact if_pos (List.all_eq_true.2 fun name member => decide_eq_true (once name member))

/-- The fields of a form are found in it. -/
theorem IsForm.exists_fields? (form : IsForm fields json) (distinct : (fields.map Field.name).Nodup) :
    ∃ found, json.fields? (fields.map Field.name) = some found ∧
      List.Forall₂ Field.Accepts fields found := by
  cases form with
  | @array values held =>
      refine ⟨values.map some, ?_, List.forall₂_map_right_iff.2 held⟩
      rw [fields?, if_pos (by rw [List.length_map, held.length_eq])]
  | @object rows known strangers lists unknown order =>
      have once : ∀ field ∈ fields, HasOnce field rows := by
        intro field member
        have apart : strangers.filter (·.1 == field.name) = [] := filter_eq_nil fun row stranger same =>
          unknown row stranger (same ▸ List.mem_map_of_mem member)
        refine HasOnce.of_perm ?_ order
        rw [HasOnce, List.filter_append, apart, List.append_nil]
        exact lists.hasOnce distinct field member
      refine ⟨_, fields?_record_eq (List.forall_mem_map.2 fun field member => ?_), ?_⟩
      · exact (once field member).length_le
      · rw [List.map_map, List.forall₂_map_right_iff, List.forall₂_same]
        exact fun field member => (once field member).accepts

/-- Of fields that one value stands for each, just these values may be found. -/
theorem forall₂_accepts_exact {found : List (Option Json)}
    (accepts : List.Forall₂ Field.Accepts (rows.map .exact) found) :
    found = rows.map fun row => some row.2 := by
  rw [List.forall₂_map_left_iff] at accepts
  induction accepts with
  | nil => rfl
  | @cons row value rows found first _ ih =>
      rw [List.map_cons, ← ih]
      cases value with
      | none => cases first
      | some value => exact congrArg (some · :: found) first

/-- Where one value stands for each field, these are found. -/
theorem IsForm.fields?_eq (form : IsForm (rows.map .exact) json) (distinct : (rows.map Prod.fst).Nodup) :
    json.fields? (rows.map Prod.fst) = some (rows.map fun row => some row.2) := by
  have names : (rows.map Field.exact).map Field.name = rows.map Prod.fst := List.map_map
  obtain ⟨found, fields, accepts⟩ := form.exists_fields? (names ▸ distinct)
  rw [← names, fields, forall₂_accepts_exact accepts]

/-- A field that must be there is read from what was found of it. -/
theorem Field.required_eq {α : Type} {a : α} {field : Field} {decode? : Json → Option α} {found : Option Json}
    (accepts : field.Accepts found) (must : ¬ field.omissible)
    (reads : ∀ value, field.Holds value → decode? value = some a) : required decode? found = some a := by
  cases found with
  | none => exact absurd accepts must
  | some value => exact reads value accepts

theorem keyed?_eq_some (keyed : keyed? members = some rows) :
    members = rows.map fun (key, value) => (some key, value) := by
  induction members generalizing rows with
  | nil =>
      obtain rfl := Option.some.inj keyed
      rfl
  | cons member members ih =>
      obtain ⟨key, value⟩ := member
      cases key with
      | none =>
          rw [keyed?, List.mapM_cons] at keyed
          cases keyed
      | some key =>
          rw [keyed?_cons_some] at keyed
          obtain ⟨rest, later, rfl⟩ := Option.map_eq_some_iff.1 keyed
          rw [List.map_cons, ih later]

theorem count_keys (rows : List (String × Json)) (name : String) :
    ((rows.map fun (key, value) => ((some key, value) : Key × Json)).map Prod.fst).count (some name) =
      (rows.filter (·.1 == name)).length := by
  rw [← List.countP_eq_length_filter, List.count, List.map_map, List.countP_map]
  rfl

/-- Fields are found in an object only if all keys are texts and no field is there twice. -/
theorem exists_rows_of_fields? {found : List (Option Json)}
    (fields : (Json.object members).fields? names = some found) :
    ∃ rows : List (String × Json), members = rows.map (fun (key, value) => (some key, value)) ∧
      found = names.map (rows.lookup ·) ∧ ∀ name ∈ names, (rows.filter (·.1 == name)).length ≤ 1 := by
  rw [fields?, ← keyed?] at fields
  cases keyed : keyed? members with
  | none =>
      rw [keyed] at fields
      cases fields
  | some rows =>
      simp only [keyed, Option.bind_eq_bind, Option.bind_some] at fields
      split at fields
      next once =>
          refine ⟨rows, keyed?_eq_some keyed, (Option.some.inj fields).symm, fun name member => ?_⟩
          exact of_decide_eq_true (List.all_eq_true.1 once name member)
      next => cases fields

/-- Of a misfit no fields are found, or one that is asked for is not. -/
theorem Misfits.fields?_eq_none_or (misfits : Misfits names asked json) :
    json.fields? names = none ∨
      ∃ found : String → Option Json, json.fields? names = some (names.map found) ∧
        ∃ name ∈ asked, found name = none := by
  cases fields : json.fields? names with
  | none => exact .inl rfl
  | some found =>
      cases misfits with
      | length other =>
          rw [fields?, if_neg other] at fields
          cases fields
      | @lacking members name isAsked absent =>
          obtain ⟨rows, rfl, rfl, -⟩ := exists_rows_of_fields? fields
          rw [← List.count_eq_zero, count_keys, List.length_eq_zero_iff] at absent
          refine .inr ⟨_, rfl, name, isAsked, ?_⟩
          rw [lookup_eq_head?_filter, absent]
          rfl
      | @repeating members name isKnown twice =>
          obtain ⟨rows, rfl, rfl, once⟩ := exists_rows_of_fields? fields
          rw [count_keys] at twice
          exact absurd (once name isKnown) (Nat.not_le.2 twice)

/-- A reader that goes by the fields refuses misfits, if it needs the fields that are asked for. -/
theorem Misfits.refused {α : Type} {ofJson? : Json → Option α} (misfits : Misfits names asked json)
    (opens : ∀ value, ofJson? json = some value → ∃ found, json.fields? names = some found)
    (needs : ∀ found : String → Option Json, json.fields? names = some (names.map found) →
      ∀ name ∈ asked, found name = none → ofJson? json = none) : ofJson? json = none := by
  obtain unread | ⟨found, fields, name, isAsked, missing⟩ := misfits.fields?_eq_none_or
  · rw [Option.eq_none_iff_forall_ne_some]
    intro value read
    obtain ⟨found, fields⟩ := opens value read
    rw [unread] at fields
    cases fields
  · exact needs found fields name isAsked missing

end VersionMatrix.Json
