import VersionMatrix.Json.Reader

/-!
Records in JSON: an object with known fields among others, or the array of the fields in order.
-/

namespace VersionMatrix.Json

/-- The values of the named fields, `none` for a field that an object leaves out. Other members of
an object are passed over, but its keys must be texts and may not repeat a named field. An array
must hold exactly the fields. -/
def fields? (names : List String) : Json → Option (List (Option Json))
  | .array items => if items.length = names.length then some (items.map some) else none
  | .object members => do
    let keyed ← members.mapM fun (key, value) => key.map (·, value)
    if names.all fun name => (keyed.filter (·.1 == name)).length ≤ 1 then
      some (names.map fun name => keyed.lookup name)
    else none
  | _ => none

/-- A field that must be there. -/
def required {α : Type} (decode? : Json → Option α) (field : Option Json) : Option α :=
  field.bind decode?

/-- A value or null. -/
def optional {α : Type} (decode? : Json → Option α) : Json → Option (Option α)
  | .null => some none
  | value => (decode? value).map some

/-- A field that may be left out, and may be null. -/
def omissible {α : Type} (decode? : Json → Option α) : Option Json → Option (Option α)
  | none => some none
  | some value => optional decode? value

end VersionMatrix.Json
