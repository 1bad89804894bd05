import VersionMatrix.Json.Token
import VersionMatrix.Json.Value

/-!
JSON values from tokens. The values that are still open are kept on a stack, so nesting is bounded
by nothing but the text.
-/

namespace VersionMatrix.Json

/-- A key of an object, or `none` if it holds an unpaired surrogate. -/
abbrev Key := Option String

/-- An array or object that is still open. What it holds is kept in reverse. -/
inductive Frame where
  | array (items : List Json)
  | object (members : List (Key × Json))
  | member (members : List (Key × Json)) (key : Key)

/-- What may come next. -/
inductive Expected where
  | value
  | firstItem
  | firstKey
  | key
  | colon (key : Key)
  | separator
  | nothing (result : Json)

/-- The reader's state: what may come next, and the open values, innermost first. -/
structure ReaderState where
  expected : Expected := .value
  stack : List Frame := []

namespace ReaderState

def place (value : Json) : List Frame → Option ReaderState
  | [] => some { expected := .nothing value }
  | .array items :: rest => some { expected := .separator, stack := .array (value :: items) :: rest }
  | .member members key :: rest =>
    some { expected := .separator, stack := .object ((key, value) :: members) :: rest }
  | .object _ :: _ => none

def takeValue (stack : List Frame) : Token → Option ReaderState
  | .null => place .null stack
  | .bool b => place (.bool b) stack
  | .number spelling => place (.number spelling) stack
  | .string text => place (.string text) stack
  | .openBracket => some { expected := .firstItem, stack := .array [] :: stack }
  | .openBrace => some { expected := .firstKey, stack := .object [] :: stack }
  | _ => none

def closeFrame : List Frame → Token → Option ReaderState
  | .array items :: rest, .closeBracket => place (.array items.reverse) rest
  | .object members :: rest, .closeBrace => place (.object members.reverse) rest
  | _, _ => none

def take (state : ReaderState) (token : Token) : Option ReaderState :=
  match state.expected, token with
  | .value, token => takeValue state.stack token
  | .firstItem, .closeBracket => closeFrame state.stack .closeBracket
  | .firstItem, token => takeValue state.stack token
  | .firstKey, .closeBrace => closeFrame state.stack .closeBrace
  | .firstKey, .string key => some { state with expected := .colon key }
  | .key, .string key => some { state with expected := .colon key }
  | .colon key, .colon =>
    match state.stack with
    | .object members :: rest => some { expected := .value, stack := .member members key :: rest }
    | _ => none
  | .separator, .comma =>
    match state.stack with
    | .array _ :: _ => some { state with expected := .value }
    | .object _ :: _ => some { state with expected := .key }
    | _ => none
  | .separator, token => closeFrame state.stack token
  | _, _ => none

def run (state : ReaderState) : List Token → Except Fault Json
  | [] =>
    match state.expected with
    | .nothing result => .ok result
    | _ => .error .incomplete
  | token :: rest =>
    match state.take token with
    | some next => next.run rest
    | none => .error .malformed

end ReaderState

/-- The value of a text, which holds nothing else but white space. A text that is cut short is told
from one that goes wrong before its end. -/
def read (text : String) : Except Fault Json := do
  let tokens ← scan text
  ReaderState.run {} tokens

def read? (text : String) : Option Json := (read text).toOption

end VersionMatrix.Json
