/-!
White space as Unicode's `White_Space` property has it, and the cuts that hang on it: trimming,
splitting into words, splitting into lines.
-/

namespace VersionMatrix.Text

/-- The 25 code points with the `White_Space` property. -/
def isBlankChar (c : Char) : Bool :=
  let n := c.toNat
  (9 ≤ n && n ≤ 13) || n == 0x20 || n == 0x85 || n == 0xA0 || n == 0x1680 ||
    (0x2000 ≤ n && n ≤ 0x200A) || n == 0x2028 || n == 0x2029 || n == 0x202F ||
    n == 0x205F || n == 0x3000

/-- Drops the longest final run of characters or bytes that satisfy `p`. -/
def dropEndWhile {α : Type} (p : α → Bool) (text : List α) : List α :=
  (text.reverse.dropWhile p).reverse

def stripWhile (p : Char → Bool) (text : List Char) : List Char :=
  dropEndWhile p (text.dropWhile p)

def trim (text : String) : String :=
  String.ofList (stripWhile isBlankChar text.toList)

def trimEnd (text : String) : String :=
  String.ofList (dropEndWhile isBlankChar text.toList)

def isBlank (text : String) : Bool :=
  text.toList.all isBlankChar

def words (text : String) : List String :=
  ((text.toList.splitOnP isBlankChar).filter (!·.isEmpty)).map String.ofList

/-- Drops one carriage return from the end, if there is one. -/
def dropReturn (line : List Char) : List Char :=
  if line.getLast? = some '\r' then line.dropLast else line

/-- The lines of a text. A line feed ends a line, together with one carriage return before it;
the text after the last line feed is a line of its own unless it is empty. -/
def lines (text : String) : List String :=
  let pieces := text.toList.splitOn '\n'
  let last := pieces.getLastD []
  (pieces.dropLast.map fun line => String.ofList (dropReturn line)) ++
    if last.isEmpty then [] else [String.ofList last]

example : trim "\u2003 a b\t" = "a b" := by decide

example : words "  go\u3000test ./... " = ["go", "test", "./..."] := by decide

example : lines "a\r\nb\n\nc\r" = ["a", "b", "", "c\r"] := by decide

end VersionMatrix.Text
