/-!
Paths as texts. A path keeps the spelling it was given, and is taken apart only where its parts
matter.
-/

namespace VersionMatrix.Path

def isAbsolute (path : String) : Bool := path.toList.head? == some '/'

/-- Whether a text can name an entry of a directory: a step of a path that leads down. -/
def isName (text : String) : Bool :=
  text != "" && text != "." && text != ".." && text.toList.all fun c => c != '/' && c != '\x00'

/-- The pieces between the slashes, empty ones among them. -/
def pieces (path : List Char) : List String :=
  (path.splitOn '/').map String.ofList

/-- The steps of a path from where it starts. A slash at the end is the empty step: it asks for a
directory and leads nowhere. -/
def steps (path : String) : List String :=
  let names := (pieces path.toList).filter (· != "")
  if path.toList.getLast? = some '/' && !names.isEmpty then names ++ [""] else names

/-- The path of `name` in the directory `base`. An empty base adds nothing, and a base that ends in
a slash gets no second one. -/
def join (base name : String) : String :=
  if base = "" then name
  else if base.toList.getLast? = some '/' then base ++ name
  else base ++ "/" ++ name

/-- The path of several names below a directory. -/
def joinAll (base : String) (names : List String) : String :=
  names.foldl join base

/-- The part of a path that its steps come after: the root slash or a leading point. -/
def anchor (path : List Char) : List Char :=
  match path with
  | '/' :: _ => ['/']
  | ['.'] => ['.']
  | '.' :: '/' :: _ => ['.']
  | _ => []

/-- Whether a piece of a path is no step of its own. -/
def isIdle (piece : List Char) : Bool := piece == [] || piece == ['.']

/-- The path of the containing directory, without the slashes and points that lead nowhere. The
root and the empty path have none. -/
def parent? (path : String) : Option String :=
  let text := path.toList
  let base := anchor text
  let body := ((text.drop base.length).splitOn '/').reverse.dropWhile isIdle
  match body with
  | _ :: rest =>
    some (String.ofList (base ++ ['/'].intercalate (rest.dropWhile isIdle).reverse))
  | [] => if base = ['.'] then some "" else none

/-- A path without the slashes and points that lead nowhere. Of the slashes at its end one is kept,
also after a root that is all of the path. -/
def tidy (path : String) : String :=
  let text := path.toList
  let base := anchor text
  let names := ((text.drop base.length).splitOn '/').filter fun piece => !isIdle piece
  let steps := if base = ['.'] then base :: names else names
  let ending := if text.getLast? = some '/' then ['/'] else []
  String.ofList <|
    (if base = ['/'] then base else []) ++ ['/'].intercalate steps ++ ending

example : tidy "./a/.//b/" = "./a/b/" := by decide

example : tidy "//a/." = "/a" := by decide

example : parent? "/a//b/./" = some "/a" := by decide

example : parent? "./a" = some "." := by decide

example : parent? "a" = some "" := by decide

end VersionMatrix.Path
