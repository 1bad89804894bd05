import VersionMatrix.Text.LowerCase.Table

/-!
Full Unicode lower-casing: the simple mapping, the one capital that becomes two characters, and
the sigma that takes its final form at the end of a word.
-/

namespace VersionMatrix.Text

def inRanges (ranges : List (Nat × Nat)) (c : Char) : Bool :=
  ranges.any fun (first, last) => first ≤ c.toNat && c.toNat ≤ last

def lowerChar (c : Char) : Char :=
  match caseRuns.findSome? fun run => run.image? c.toNat with
  | some code => Char.ofNat code
  | none => c

/-- Whether the first character that is not case-ignorable exists and is a cased one. -/
def startsCased (text : List Char) : Bool :=
  match text.dropWhile (inRanges caseIgnorableRanges) with
  | [] => false
  | c :: _ => inRanges casedRanges c

/-- Lower case of a text of which `before`, in reverse, is already done. A sigma is final when a
cased letter stands before it and none after it, case-ignorable characters left aside. -/
def lowerFrom (before : List Char) : List Char → List Char
  | [] => []
  | c :: rest =>
    let image :=
      if c = 'Σ' then
        if startsCased before && !startsCased rest then ['ς'] else ['σ']
      else if c = 'İ' then ['i', '\u0307']
      else [lowerChar c]
    image ++ lowerFrom (c :: before) rest

def lower (text : String) : String :=
  String.ofList (lowerFrom [] text.toList)

end VersionMatrix.Text
