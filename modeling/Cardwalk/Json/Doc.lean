import Cardwalk.Json.Error
import Cardwalk.Json.Number
/-!
# Documents as far as they can be read

A text is read into a tree that ends where the text stops being JSON: the
flaw stands in the tree at the place where it was met.  What is read out
of the tree can therefore report the first thing that is wrong, whether
the text is malformed there or only of another shape than expected.
-/

set_option autoImplicit false

namespace Cardwalk.Json

/-- A flaw at its place.  Some places word their flaw by what was to be
read there. -/
inductive Stop where
  | at (f : Flaw)
  /-- The text ends inside a number. -/
  | cutNumber
  /-- A comma before the closing bracket. -/
  | comma (inObject : Bool)
  /-- The text ends behind a comma. -/
  | commaEnd (inObject : Bool)
  /-- Neither a comma nor the closing bracket. -/
  | separator (inObject : Bool)
deriving DecidableEq, Repr

def Stop.flaw : Stop → Flaw
  | .at f => f
  | .cutNumber => .endInValue
  | .comma _ => .trailingComma
  | .commaEnd _ => .endInValue
  | .separator false => .expectedListEnd
  | .separator true => .expectedObjectEnd

def Stop.flawSkipped : Stop → Flaw
  | .at f => f
  | .cutNumber => .invalidNumber
  | .comma false => .expectedValue
  | .comma true => .keyNotString
  | .commaEnd false => .endInValue
  | .commaEnd true => .endInObject
  | .separator false => .expectedListEnd
  | .separator true => .expectedObjectEnd

def Stop.flawAtEnd : Stop → Flaw
  | .at f => f
  | .cutNumber => .trailingCharacters
  | .comma _ => .trailingComma
  | .commaEnd _ => .trailingCharacters
  | .separator _ => .trailingCharacters

inductive Closing where
  | closed
  | stopped (s : Stop)
deriving DecidableEq, Repr

inductive Doc where
  | null
  | bool (b : Bool)
  | number (n : Number)
  /-- A well-formed number that no floating-point number is near to. -/
  | hugeNumber
  | string (s : String)
  /-- A string that ends well but names no text. -/
  | badString (f : Flaw)
  | array (items : List Doc) (closing : Closing)
  | object (members : List (Except Flaw String × Doc)) (closing : Closing)
  | stopped (s : Stop)
  /-- A flaw that is another one if the value is passed over. -/
  | stoppedString (f skipped : Flaw)
deriving Inhabited

mutual
def Doc.ofJson : Json → Doc
  | .null => .null
  | .bool b => .bool b
  | .number n => .number n
  | .string s => .string s
  | .array items => .array (Doc.ofItems items) .closed
  | .object ms => .object (Doc.ofMembers ms) .closed

def Doc.ofItems : List Json → List Doc
  | [] => []
  | v :: rest => Doc.ofJson v :: Doc.ofItems rest

def Doc.ofMembers : List (String × Json) → List (Except Flaw String × Doc)
  | [] => []
  | (k, v) :: rest => (.ok k, Doc.ofJson v) :: Doc.ofMembers rest
end

def isSpace (c : Char) : Bool := c = ' ' || c = '\n' || c = '\t' || c = '\r'

def skipSpace (s : List Char) : List Char := s.dropWhile isSpace

def hexValue (c : Char) : Option Nat :=
  if '0' ≤ c && c ≤ '9' then some (c.toNat - 48)
  else if 'a' ≤ c && c ≤ 'f' then some (c.toNat - 87)
  else if 'A' ≤ c && c ≤ 'F' then some (c.toNat - 55)
  else none

def utf8Size (s : List Char) : Nat := s.foldl (fun n c => n + c.utf8Size) 0

/-- Four hexadecimal digits; the text must hold four more bytes. -/
def hexFour (s : List Char) : Except Flaw (Nat × List Char) :=
  match s with
  | a :: b :: c :: d :: rest =>
    match hexValue a, hexValue b, hexValue c, hexValue d with
    | some a, some b, some c, some d => .ok (a * 4096 + b * 256 + c * 16 + d, rest)
    | _, _, _, _ => .error .invalidEscape
  | _ => .error (if utf8Size s < 4 then .endInString else .invalidEscape)

def readUnicode (s : List Char) : Except Flaw (Char × List Char) := do
  let (n, s) ← hexFour s
  if 0xDC00 ≤ n && n ≤ 0xDFFF then .error .loneSurrogate
  else if n < 0xD800 || 0xDBFF < n then .ok (Char.ofNat n, s)
  else
    match s with
    | [] => .error .endInString
    | ['\\'] => .error .endInString
    | '\\' :: 'u' :: s =>
      let (m, s) ← hexFour s
      if m < 0xDC00 || 0xDFFF < m then .error .loneSurrogate
      else .ok (Char.ofNat (0x10000 + (n - 0xD800) * 1024 + (m - 0xDC00)), s)
    | _ => .error .endOfHexEscape

def shortEscape : Char → Option Char
  | '"' => some '"'
  | '\\' => some '\\'
  | '/' => some '/'
  | 'b' => some (Char.ofNat 8)
  | 'f' => some (Char.ofNat 12)
  | 'n' => some '\n'
  | 'r' => some '\r'
  | 't' => some '\t'
  | _ => none

/-- Reads a string behind its opening quote.  The number bounds the steps;
the length of the text is enough. -/
def readString : Nat → List Char → List Char → Except Flaw (String × List Char)
  | 0, _, _ => .error .endInString
  | _ + 1, _, [] => .error .endInString
  | _ + 1, read, '"' :: s => .ok (String.ofList read.reverse, s)
  | _ + 1, _, ['\\'] => .error .endInString
  | steps + 1, read, '\\' :: e :: s =>
    if e = 'u' then
      match readUnicode s with
      | .ok (c, s) => readString steps (c :: read) s
      | .error f => .error f
    else
      match shortEscape e with
      | some c => readString steps (c :: read) s
      | none => .error .invalidEscape
  | steps + 1, read, c :: s =>
    if c.toNat < 0x20 then .error .controlCharacter
    else readString steps (c :: read) s

def skipString : Nat → List Char → Except Flaw (List Char)
  | 0, _ => .error .endInString
  | _ + 1, [] => .error .endInString
  | _ + 1, '"' :: s => .ok s
  | _ + 1, ['\\'] => .error .endInString
  | steps + 1, '\\' :: e :: s =>
    if e = 'u' then
      match hexFour s with
      | .ok (_, s) => skipString steps s
      | .error f => .error f
    else if (shortEscape e).isSome then skipString steps s
    else .error .invalidEscape
  | steps + 1, c :: s =>
    if c.toNat < 0x20 then .error .controlCharacter else skipString steps s

def readWord (whole : Doc) : List Char → List Char → Doc × Option (List Char)
  | [], s => (whole, some s)
  | _ :: _, [] => (.stopped (.at .endInValue), none)
  | w :: ws, c :: s =>
    if w = c then readWord whole ws s else (.stopped (.at .expectedIdent), none)

def readNumber (negative : Bool) (s : List Char) : Doc × Option (List Char) :=
  match scanUnsigned negative s with
  | (.number n, s) => (.number n, some s)
  | (.huge, s) => (.hugeNumber, some s)
  | (.invalid, _) => (.stopped (.at .invalidNumber), none)
  | (.cut, _) => (.stopped .cutNumber, none)

def readText (steps : Nat) (s : List Char) : Doc × Option (List Char) :=
  match readString steps [] s with
  | .ok (t, s) => (.string t, some s)
  | .error f =>
    match skipString steps s with
    | .ok s => (.badString f, some s)
    | .error g => (.stoppedString f g, none)

mutual
/-- Reads a value; what is left of the text, unless it stopped there.  The
number bounds the steps here as well; three for each character are enough,
with three more. -/
def scanValue : Nat → List Char → Doc × Option (List Char)
  | 0, _ => (.stopped (.at .endInValue), none)
  | steps + 1, s =>
    match skipSpace s with
    | [] => (.stopped (.at .endInValue), none)
    | 'n' :: s => readWord .null ['u', 'l', 'l'] s
    | 't' :: s => readWord (.bool true) ['r', 'u', 'e'] s
    | 'f' :: s => readWord (.bool false) ['a', 'l', 's', 'e'] s
    | '-' :: s => readNumber true s
    | '"' :: s => readText steps s
    | '[' :: s =>
      let (items, closing, rest) := scanItems steps true s []
      (.array items closing, rest)
    | '{' :: s =>
      let (members, closing, rest) := scanMembers steps true s []
      (.object members closing, rest)
    | c :: s =>
      if c.isDigit then readNumber false (c :: s)
      else (.stopped (.at .expectedValue), none)

/-- Reads the items of a list, the first of which needs no comma. -/
def scanItems : Nat → Bool → List Char → List Doc →
    List Doc × Closing × Option (List Char)
  | 0, _, _, read => (read.reverse, .stopped (.at .endInList), none)
  | steps + 1, first, s, read =>
    match skipSpace s with
    | [] => (read.reverse, .stopped (.at .endInList), none)
    | ']' :: s => (read.reverse, .closed, some s)
    | c :: s =>
      if first then scanItem steps (c :: s) read
      else if c = ',' then
        match skipSpace s with
        | [] => (read.reverse, .stopped (.commaEnd false), none)
        | ']' :: _ => (read.reverse, .stopped (.comma false), none)
        | c :: s => scanItem steps (c :: s) read
      else (read.reverse, .stopped (.separator false), none)

def scanItem : Nat → List Char → List Doc → List Doc × Closing × Option (List Char)
  | 0, _, read => (read.reverse, .stopped (.at .endInList), none)
  | steps + 1, s, read =>
    match scanValue steps s with
    | (d, some s) => scanItems steps false s (d :: read)
    | (d, none) => ((d :: read).reverse, .stopped (.at .endInList), none)

def scanMembers : Nat → Bool → List Char → List (Except Flaw String × Doc) →
    List (Except Flaw String × Doc) × Closing × Option (List Char)
  | 0, _, _, read => (read.reverse, .stopped (.at .endInObject), none)
  | steps + 1, first, s, read =>
    match skipSpace s with
    | [] => (read.reverse, .stopped (.at .endInObject), none)
    | '}' :: s => (read.reverse, .closed, some s)
    | c :: s =>
      if first then
        if c = '"' then scanMember steps s read
        else (read.reverse, .stopped (.at .keyNotString), none)
      else if c = ',' then
        match skipSpace s with
        | [] => (read.reverse, .stopped (.commaEnd true), none)
        | '}' :: _ => (read.reverse, .stopped (.comma true), none)
        | c :: s =>
          if c = '"' then scanMember steps s read
          else (read.reverse, .stopped (.at .keyNotString), none)
      else (read.reverse, .stopped (.separator true), none)

def scanMember : Nat → List Char → List (Except Flaw String × Doc) →
    List (Except Flaw String × Doc) × Closing × Option (List Char)
  | 0, _, read => (read.reverse, .stopped (.at .endInObject), none)
  | steps + 1, s, read =>
    let keyed (k : Except Flaw String) (s : List Char) :=
      match skipSpace s with
      | [] => (((k, .stopped (.at .endInObject)) :: read).reverse, .closed, none)
      | ':' :: s =>
        match scanValue steps s with
        | (d, some s) => scanMembers steps false s ((k, d) :: read)
        | (d, none) => (((k, d) :: read).reverse, .stopped (.at .endInObject), none)
      | _ => (((k, .stopped (.at .expectedColon)) :: read).reverse, .closed, none)
    match readString steps [] s with
    | .ok (k, s) => keyed (.ok k) s
    | .error f =>
      match skipString steps s with
      | .ok s => keyed (.error f) s
      | .error g =>
        (((.error f, .stopped (.at g)) :: read).reverse, .closed, none)
end

def scan (s : List Char) : Doc × Option (List Char) := scanValue (3 * s.length + 3) s

end Cardwalk.Json
