import Cardwalk.Json.Print
import Cardwalk.Text.Escape
/-!
# What can be wrong with a JSON text

A text is malformed, or it ends too early, or it is JSON of another shape
than the one that is read.
-/

set_option autoImplicit false

namespace Cardwalk.Json

inductive Flaw where
  | endInValue
  | endInList
  | endInObject
  | endInString
  | expectedColon
  | expectedListEnd
  | expectedObjectEnd
  | expectedIdent
  | expectedValue
  | invalidEscape
  | invalidNumber
  | numberOutOfRange
  | loneSurrogate
  | endOfHexEscape
  | controlCharacter
  | keyNotString
  | trailingComma
  | trailingCharacters
  | tooDeep
deriving DecidableEq, Repr

inductive Found where
  | null
  | bool (b : Bool)
  | int (i : Int)
  | float (x : Float)
  | string (s : String)
  | list
  | object
deriving Repr

inductive ReadError where
  | flaw (f : Flaw)
  | invalidType (found : Found) (expected : String)
  | invalidValue (found : Found) (expected : String)
  | invalidLength (length : Nat) (expected : String)
  | unknownVariant (name : String) (known : List String)
  | unknownField (name : String) (known : List String)
  | missingField (name : String)
  | duplicateField (name : String)
deriving Repr

inductive Category where
  | malformed
  | data
  | ending
deriving DecidableEq, Repr

def Category.name : Category → String
  | .malformed => "syntax"
  | .data => "data"
  | .ending => "eof"

def Flaw.message : Flaw → String
  | .endInValue => "EOF while parsing a value"
  | .endInList => "EOF while parsing a list"
  | .endInObject => "EOF while parsing an object"
  | .endInString => "EOF while parsing a string"
  | .expectedColon => "expected `:`"
  | .expectedListEnd => "expected `,` or `]`"
  | .expectedObjectEnd => "expected `,` or `\x7d`"
  | .expectedIdent => "expected ident"
  | .expectedValue => "expected value"
  | .invalidEscape => "invalid escape"
  | .invalidNumber => "invalid number"
  | .numberOutOfRange => "number out of range"
  | .loneSurrogate => "lone leading surrogate in hex escape"
  | .endOfHexEscape => "unexpected end of hex escape"
  | .controlCharacter =>
    "control character (\\u0000-\\u001F) found while parsing a string"
  | .keyNotString => "key must be a string"
  | .trailingComma => "trailing comma"
  | .trailingCharacters => "trailing characters"
  | .tooDeep => "recursion limit exceeded"

def Flaw.category : Flaw → Category
  | .endInValue | .endInList | .endInObject | .endInString => .ending
  | _ => .malformed

def Found.describe : Found → String
  | .null => "null"
  | .bool true => "boolean `true`"
  | .bool false => "boolean `false`"
  | .int i => "integer `" ++ String.ofList (Decimal.intDigits i) ++ "`"
  | .float x => "floating point `" ++ String.ofList (Number.float x).chars ++ "`"
  | .string s => "string " ++ Text.quotedForm s
  | .list => "sequence"
  | .object => "map"

def oneOf : List String → String
  | [] => "there are no fields"
  | [a] => "`" ++ a ++ "`"
  | [a, b] => "`" ++ a ++ "` or `" ++ b ++ "`"
  | names => "one of " ++ ", ".intercalate (names.map fun n => "`" ++ n ++ "`")

def ReadError.message : ReadError → String
  | .flaw f => f.message
  | .invalidType found expected =>
    "invalid type: " ++ found.describe ++ ", expected " ++ expected
  | .invalidValue found expected =>
    "invalid value: " ++ found.describe ++ ", expected " ++ expected
  | .invalidLength length expected =>
    "invalid length " ++ String.ofList (Decimal.natDigits length) ++ ", expected "
      ++ expected
  | .unknownVariant name known =>
    "unknown variant `" ++ name ++ "`, expected " ++ oneOf known
  | .unknownField name known =>
    "unknown field `" ++ name ++ "`, expected " ++ oneOf known
  | .missingField name => "missing field `" ++ name ++ "`"
  | .duplicateField name => "duplicate field `" ++ name ++ "`"

def ReadError.category : ReadError → Category
  | .flaw f => f.category
  | _ => .data

end Cardwalk.Json
