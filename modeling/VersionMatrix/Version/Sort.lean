import VersionMatrix.Version.Basic

/-!
Sorting version texts: semantic versions in their order, and after them everything else as given.
-/

namespace VersionMatrix.Version

/-- The order of version texts. Any two texts that are not semantic versions rank equal. -/
def compareTexts (a b : String) : Ordering :=
  match parse? a, parse? b with
  | some v, some w => order v w
  | some _, none => .lt
  | none, some _ => .gt
  | none, none => .eq

/-- Sorts version texts. Texts that rank equal keep their order. -/
def sortTexts (texts : List String) : List String :=
  texts.mergeSort fun a b => (compareTexts a b).isLE

end VersionMatrix.Version
