import Cardwalk.Json.Decode
import Cardwalk.Text.Blank
import Cardwalk.Text.Replace
/-!
# Tool calls in answers

A model asks for a tool by writing a directive: the marker, blanks, the
name of the tool and its arguments in parentheses.  The arguments reach to
the last closing parenthesis of the line.  The first directive of a text
counts; single quotes in its arguments are read as double quotes.
-/

set_option autoImplicit false

namespace Cardwalk

structure ToolCall where
  name : String
  args : Json
deriving Repr, BEq, Inhabited

namespace ToolCall

def toJson (c : ToolCall) : Json := .object [("name", .string c.name), ("args", c.args)]

def recordKind : Json.Decoder.RecordKind ToolCall :=
  { title := "struct ToolCall"
    blank := ⟨"", .null⟩
    sealed := false
    slots :=
      [Json.Decoder.slot "name" .required Json.Decoder.text fun v c => { c with name := v },
       Json.Decoder.slot "args" .required Json.any fun v c => { c with args := v }] }

def decoder : Json.Decoder ToolCall := recordKind.decoder

def marker : List Char := "调用工具".toList

def isNameChar (c : Char) : Bool :=
  ('a' ≤ c && c ≤ 'z') || ('A' ≤ c && c ≤ 'Z') || ('0' ≤ c && c ≤ '9') || c = '_'

def restOfLine (s : List Char) : List Char := s.takeWhile (· ≠ '\n')

def beforeLastClose (s : List Char) : Option (List Char) :=
  match s.reverse.dropWhile (· ≠ ')') with
  | [] => none
  | _ :: before => some before.reverse

def behindMarker (s : List Char) : Option (List Char × List Char) :=
  match s with
  | [] => none
  | c :: _ =>
    if Text.isBlank c then
      let s := Text.trimStart s
      let name := s.takeWhile isNameChar
      if name.isEmpty then none
      else
        match s.dropWhile isNameChar with
        | '(' :: rest => (beforeLastClose (restOfLine rest)).map fun raw => (name, raw)
        | _ => none
    else none

def findDirective : List Char → Option (List Char × List Char)
  | [] => none
  | c :: s =>
    let here :=
      if Text.startsWith marker (c :: s) then behindMarker ((c :: s).drop marker.length)
      else none
    match here with
    | some found => some found
    | none => findDirective s

inductive Request where
  | none
  | call (c : ToolCall)
  /-- The arguments are no JSON. -/
  | invalid (name raw : String) (error : Json.ReadError)

def doubleQuotes (raw : List Char) : List Char := raw.map fun c => if c = '\'' then '"' else c

def read (text : List Char) : Request :=
  match findDirective text with
  | none => .none
  | some (name, raw) =>
    match Json.parse (doubleQuotes raw) with
    | .ok args => .call ⟨String.ofList name, args⟩
    | .error e => .invalid (String.ofList name) (String.ofList raw) e

def invalidMessage (name raw error : String) : String :=
  "invalid arguments for tool '" ++ name ++ "': " ++ error ++ " (raw: " ++ raw ++ ")"

/-- The call that a text asks for; a directive with unusable arguments asks
for nothing. -/
def extract (text : String) : Option ToolCall :=
  match read text.toList with
  | .call c => some c
  | _ => none

end ToolCall

structure ToolOutput where
  result : Json
deriving Repr, BEq, Inhabited

namespace ToolOutput

def toJson (o : ToolOutput) : Json := .object [("result", o.result)]

def decoder : Json.Decoder ToolOutput :=
  Json.Decoder.RecordKind.decoder
    { title := "struct ToolOutput"
      blank := ⟨.null⟩
      sealed := false
      slots := [Json.Decoder.slot "result" .required Json.any fun v _ => ⟨v⟩] }

end ToolOutput

end Cardwalk
