import Cardwalk.Decimal.Layout
import Cardwalk.Json.Basic
/-!
# Writing JSON

A value is written on one line without blanks, or over several lines with
an indentation of two blanks.  Inside a string only the quote, the
backslash and the control characters are escaped.
-/

set_option autoImplicit false

namespace Cardwalk.Json

/-- Floating-point numbers between `1e-5` and `1e16` are written without an
exponent, whole ones with `.0`. -/
def floatLayout : Decimal.Layout := ⟨-5, 15, true⟩

/-- The same for numbers of single precision, between `1e-6` and `1e13`. -/
def singleLayout : Decimal.Layout := ⟨-6, 12, true⟩

def singleChars (x : Float32) : List Char :=
  match Decimal.partsOfFloat32 x with
  | .infinite _ | .notANumber => ['n', 'u', 'l', 'l']
  | parts => singleLayout.parts parts

def Number.chars : Number → List Char
  | .int i => Decimal.intDigits i
  | .float x => floatLayout.parts (Decimal.partsOfFloat x)

def hexDigit (n : Nat) : Char := Nat.digitChar n

def escapeChar (c : Char) : List Char :=
  if c = '"' then ['\\', '"']
  else if c = '\\' then ['\\', '\\']
  else if 0x20 ≤ c.toNat then [c]
  else if c = '\n' then ['\\', 'n']
  else if c = '\r' then ['\\', 'r']
  else if c = '\t' then ['\\', 't']
  else if c.toNat = 8 then ['\\', 'b']
  else if c.toNat = 12 then ['\\', 'f']
  else ['\\', 'u', '0', '0', hexDigit (c.toNat / 16), hexDigit (c.toNat % 16)]

def quoted (s : String) : List Char := '"' :: s.toList.flatMap escapeChar ++ ['"']

mutual
def compactChars : Json → List Char
  | .null => ['n', 'u', 'l', 'l']
  | .bool true => ['t', 'r', 'u', 'e']
  | .bool false => ['f', 'a', 'l', 's', 'e']
  | .number n => n.chars
  | .string s => quoted s
  | .array items => '[' :: compactItems items ++ [']']
  | .object ms => '{' :: compactMembers ms ++ ['}']

def compactItems : List Json → List Char
  | [] => []
  | [v] => compactChars v
  | v :: next :: rest => compactChars v ++ ',' :: compactItems (next :: rest)

def compactMembers : List (String × Json) → List Char
  | [] => []
  | [(k, v)] => quoted k ++ ':' :: compactChars v
  | (k, v) :: next :: rest =>
    quoted k ++ ':' :: compactChars v ++ ',' :: compactMembers (next :: rest)
end

def newline (depth : Nat) : List Char := '\n' :: List.replicate (2 * depth) ' '

mutual
def prettyChars (depth : Nat) : Json → List Char
  | .null => ['n', 'u', 'l', 'l']
  | .bool true => ['t', 'r', 'u', 'e']
  | .bool false => ['f', 'a', 'l', 's', 'e']
  | .number n => n.chars
  | .string s => quoted s
  | .array [] => ['[', ']']
  | .array (v :: rest) =>
    '[' :: newline (depth + 1) ++ prettyItems (depth + 1) (v :: rest)
      ++ newline depth ++ [']']
  | .object [] => ['{', '}']
  | .object (m :: rest) =>
    '{' :: newline (depth + 1) ++ prettyMembers (depth + 1) (m :: rest)
      ++ newline depth ++ ['}']

def prettyItems (depth : Nat) : List Json → List Char
  | [] => []
  | [v] => prettyChars depth v
  | v :: next :: rest =>
    prettyChars depth v ++ ',' :: newline depth ++ prettyItems depth (next :: rest)

def prettyMembers (depth : Nat) : List (String × Json) → List Char
  | [] => []
  | [(k, v)] => quoted k ++ ':' :: ' ' :: prettyChars depth v
  | (k, v) :: next :: rest =>
    quoted k ++ ':' :: ' ' :: prettyChars depth v ++ ',' :: newline depth
      ++ prettyMembers depth (next :: rest)
end

def compact (v : Json) : String := String.ofList v.compactChars

def pretty (v : Json) : String := String.ofList (v.prettyChars 0)

end Cardwalk.Json
