import VersionMatrix.Json.Record
import VersionMatrix.Proofs.Json.RoundTrip
import VersionMatrix.Proofs.Text.Numeral
import Mathlib.Data.List.Forall2
import Mathlib.Data.List.Nodup

/-! The parts of records: what is written of a record is a proper value, and its fields are found again. -/
namespace VersionMatrix.Json

variable {α : Type} {items : List Json} {members : List (Key × Json)} {fields : List (String × Json)}

@[simp]
theorem isProper_null : Json.null.IsProper := by simp [IsProper, tokens, Token.IsProper]

@[simp]
theorem isProper_bool (value : Bool) : (Json.bool value).IsProper := by
  simp [IsProper, tokens, Token.IsProper]

@[simp]
theorem isProper_string (text : Option String) : (Json.string text).IsProper := by
  simp [IsProper, tokens, Token.IsProper]

@[simp]
theorem isProper_text (text : String) : (Json.text text).IsProper := isProper_string (some text)

/-- The digits of a natural number have no leading zero. -/
theorem isWhole_toDigits (n : Nat) : IsWhole (Nat.toDigits 10 n) := by
  have plain := Text.plain_toDigits n
  have digits : AreDigits (Nat.toDigits 10 n) :=
    ⟨Nat.toDigits_ne_nil, fun _ => Text.isDigit_of_mem_toDigits⟩
  obtain ⟨first, rest, spelled⟩ := List.exists_cons_of_ne_nil digits.filled
  rw [spelled] at plain digits ⊢
  by_cases zero : first = '0'
  · obtain rfl : rest = [] := by simpa using plain (by rw [zero]; rfl)
    exact zero ▸ .zero
  · exact .digits zero digits

theorem isNumber_toDigits (n : Nat) : isNumber (Nat.toDigits 10 n) = true := by
  have spelled := SpellsNumber.parts (.inl rfl) (isWhole_toDigits n) .nothing .nothing
  rw [List.append_nil, List.append_nil] at spelled
  exact isNumber_iff.2 spelled

@[simp]
theorem isProper_nat (n : Nat) : (Json.nat n).IsProper := by
  simp [IsProper, Json.nat, tokens, Token.IsProper, Nat.toList_repr, isNumber_toDigits]

theorem forall_mem_itemTokens :
    (∀ token ∈ itemTokens items, token.IsProper) ↔ ∀ item ∈ items, item.IsProper := by
  induction items with
  | nil => simp [itemTokens, Token.IsProper]
  | cons item rest ih =>
      simp only [itemTokens, List.cons_append, List.forall_mem_cons, List.forall_mem_append, ih]
      exact ⟨(·.2), fun proper => ⟨trivial, proper⟩⟩

theorem forall_mem_memberTokens :
    (∀ token ∈ memberTokens members, token.IsProper) ↔ ∀ member ∈ members, member.2.IsProper := by
  induction members with
  | nil => simp [memberTokens, Token.IsProper]
  | cons member rest ih =>
      simp only [memberTokens, List.cons_append, List.forall_mem_cons, List.forall_mem_append, ih]
      exact ⟨(·.2.2.2), fun proper => ⟨trivial, trivial, trivial, proper⟩⟩

@[simp]
theorem isProper_array : (Json.array items).IsProper ↔ ∀ item ∈ items, item.IsProper := by
  rw [← forall_mem_itemTokens]
  cases items with
  | nil => simp [IsProper, tokens, itemTokens, Token.IsProper]
  | cons item rest => simp [IsProper, tokens, itemTokens, Token.IsProper]

theorem isProper_object : (object members).IsProper ↔ ∀ member ∈ members, member.2.IsProper := by
  rw [← forall_mem_memberTokens]
  cases members with
  | nil => simp [IsProper, tokens, memberTokens, Token.IsProper]
  | cons member rest => simp [IsProper, tokens, memberTokens, Token.IsProper]

@[simp]
theorem isProper_record : (record fields).IsProper ↔ ∀ field ∈ fields, field.2.IsProper := by
  rw [record, isProper_object, List.forall_mem_map]

def keyed? (members : List (Key × Json)) : Option (List (String × Json)) :=
  members.mapM fun (key, value) => key.map (·, value)

theorem keyed?_cons_some (key : String) (value : Json) :
    keyed? ((some key, value) :: members) = (keyed? members).map ((key, value) :: ·) := by
  rw [keyed?, List.mapM_cons, keyed?]
  cases members.mapM fun ((key, value) : Key × Json) => key.map (·, value) <;> rfl

theorem keyed?_map (fields : List (String × Json)) :
    keyed? (fields.map fun (key, value) => (some key, value)) = some fields := by
  induction fields with
  | nil => rfl
  | cons field rest ih => rw [List.map_cons, keyed?_cons_some, ih, Option.map_some]

/-- A text that is written is read back. -/
@[simp]
theorem text?_text (text : String) : (Json.text text).text? = some text := rfl

@[simp]
theorem bool?_bool (value : Bool) : (Json.bool value).bool? = some value := rfl

/-- An array is read if each of its items is. -/
theorem list?_eq_some {item? : Json → Option α} {values : List α} {items : List Json}
    (read : List.Forall₂ (fun value item => item? item = some value) values items) :
    list? item? (.array items) = some values := by
  rw [list?]
  induction read with
  | nil => rfl
  | cons first _ ih => simp [first, ih]

theorem list?_eq_none {item? : Json → Option α} {items : List Json} {item : Json} (member : item ∈ items)
    (refused : item? item = none) : list? item? (.array items) = none := by
  rw [list?]
  induction items with
  | nil => cases member
  | cons first rest ih =>
      rcases List.mem_cons.1 member with rfl | later
      · simp [refused]
      · simp [ih later]

/-- A list that is written item by item is read back. -/
theorem list?_map {item? : Json → Option α} {write : α → Json}
    (found : ∀ value, item? (write value) = some value) (values : List α) :
    list? item? (.array (values.map write)) = some values := by
  refine list?_eq_some ?_
  rw [List.forall₂_map_right_iff, List.forall₂_same]
  exact fun value _ => found value

/-- A number of 64 bits that is written is read back. -/
theorem word?_nat {n : Nat} (fits : n < Text.wordLimit) : (Json.nat n).word? = some n := by
  rw [Json.nat, word?, Nat.toList_repr, Text.readDigits_toDigits fits]
  rfl

/-- A number that is read has 64 bits. -/
theorem lt_of_word? {json : Json} {n : Nat} (read : json.word? = some n) : n < Text.wordLimit := by
  cases json with
  | number spelling => exact (Text.toOption_readDigits_eq_some_iff.1 read).2.2
  | _ => cases read

variable {related : String → Json → Json → Prop} {members' : List (Key × Json)}
  {fields' : List (String × Json)}

/-- Whether two lists of members have the same keys, with related values under those that are texts. -/
def AgreeBy (related : String → Json → Json → Prop) (members members' : List (Key × Json)) : Prop :=
  List.Forall₂ (fun member member' => member.1 = member'.1 ∧
    ∀ key, member.1 = some key → related key member.2 member'.2) members members'

/-- Members that agree have related values under their keys. -/
theorem rel_keyed? (agree : AgreeBy related members members') :
    Option.Rel (List.Forall₂ fun field field' => field.1 = field'.1 ∧ related field.1 field.2 field'.2)
      (keyed? members) (keyed? members') := by
  induction agree with
  | nil => exact .some .nil
  | @cons member member' rest rest' first _ ih =>
      obtain ⟨key, value⟩ := member
      obtain ⟨key', value'⟩ := member'
      obtain ⟨rfl, first⟩ := first
      cases key with
      | none => rw [keyed?, keyed?, List.mapM_cons, List.mapM_cons]; exact .none
      | some key =>
          rw [keyed?_cons_some, keyed?_cons_some]
          generalize keyed? rest = fields at ih
          generalize keyed? rest' = fields' at ih
          cases ih with
          | none => exact .none
          | some ih => exact .some (.cons ⟨rfl, first key rfl⟩ ih)

section

variable (name : String)
  (agree : List.Forall₂ (fun field field' => field.1 = field'.1 ∧ related field.1 field.2 field'.2)
    fields fields')
include agree

theorem length_filter_eq :
    (fields.filter (·.1 == name)).length = (fields'.filter (·.1 == name)).length := by
  induction agree with
  | nil => rfl
  | cons first _ ih =>
      rw [List.filter_cons, List.filter_cons, first.1]
      split
      next => rw [List.length_cons, List.length_cons, ih]
      next => exact ih

/-- Members that agree have related values under each name. -/
theorem rel_lookup : Option.Rel (related name) (fields.lookup name) (fields'.lookup name) := by
  induction agree with
  | nil => exact .none
  | @cons field field' rest rest' first _ ih =>
      obtain ⟨key, value⟩ := field
      obtain ⟨key', value'⟩ := field'
      obtain ⟨same, first⟩ := first
      dsimp only at same first
      subst same
      rw [List.lookup_cons, List.lookup_cons]
      cases found : name == key with
      | true => exact .some (eq_of_beq found ▸ first)
      | false => exact ih

end

/-- The fields of two objects are related as the members are, if these have the same keys. -/
theorem fields?_object (names : List String) (agree : AgreeBy related members members') :
    fields? names (.object members) = none ∧ fields? names (.object members') = none ∨
      ∃ found found' : String → Option Json, fields? names (.object members) = some (names.map found) ∧
        fields? names (.object members') = some (names.map found') ∧
          ∀ name, Option.Rel (related name) (found name) (found' name) := by
  have keyed := rel_keyed? agree
  rw [fields?, fields?, ← keyed?, ← keyed?]
  generalize keyed? members = fields at keyed
  generalize keyed? members' = fields' at keyed
  cases keyed with
  | none => exact .inl ⟨rfl, rfl⟩
  | some keyed =>
      simp only [Option.bind_eq_bind, Option.bind_some, length_filter_eq _ keyed]
      split
      next => exact .inr ⟨_, _, rfl, rfl, fun name => rel_lookup name keyed⟩
      next => exact .inl ⟨rfl, rfl⟩

/-- A required field is read alike from related values, if the reader does not tell these apart. -/
theorem required_eq {r : Json → Json → Prop} {decode? : Json → Option α} {field field' : Option Json}
    (rel : Option.Rel r field field')
    (alike : ∀ value value', r value value' → decode? value = decode? value') :
    required decode? field = required decode? field' := by
  cases rel with
  | none => rfl
  | some same => exact alike _ _ same

end VersionMatrix.Json
