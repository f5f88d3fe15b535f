import Cardwalk.Decimal.Binary
import Cardwalk.Json.Doc
/-!
# Reading settings

Settings are a TOML text of sections that are one level deep: a section
has a header, or dotted keys before the first header, or it is one value.
Dates, deeper headers and lists of sections have no meaning in settings
and are not read.
-/

set_option autoImplicit false

namespace Cardwalk.Toml

def isBlank (c : Char) : Bool := c = ' ' || c = '\t'

def skipBlank (s : List Char) : List Char := s.dropWhile isBlank

def isControl (c : Char) : Bool := (c.toNat < 0x20 && c ≠ '\t') || c.toNat = 0x7F

def lineEnd : List Char → Option (List Char)
  | '\n' :: rest => some rest
  | '\r' :: '\n' :: rest => some rest
  | _ => none

def skipComment : List Char → List Char
  | '#' :: rest => rest.dropWhile fun c => !isControl c
  | s => s

def restOfLine (s : List Char) : Option (List Char) :=
  match skipComment (skipBlank s) with
  | [] => some []
  | rest => lineEnd rest

def codePoint (count : Nat) (s : List Char) : Option (Char × List Char) :=
  let digits := (s.take count).filterMap Json.hexValue
  let n := digits.foldl (fun n d => n * 16 + d) 0
  if digits.length = count && decide n.isValidChar then
    some (Char.ofNat n, s.drop count)
  else none

def escape : List Char → Option (Char × List Char)
  | 'b' :: rest => some ('\x08', rest)
  | 't' :: rest => some ('\t', rest)
  | 'n' :: rest => some ('\n', rest)
  | 'f' :: rest => some ('\x0c', rest)
  | 'r' :: rest => some ('\r', rest)
  | '"' :: rest => some ('"', rest)
  | '\\' :: rest => some ('\\', rest)
  | 'u' :: rest => codePoint 4 rest
  | 'U' :: rest => codePoint 8 rest
  | _ => none

/-- A string on one line, behind its opening quote.  The characters read
so far stand in reverse. -/
def basicString : Nat → List Char → List Char → Option (String × List Char)
  | 0, _, _ => none
  | _, _, [] => none
  | _, read, '"' :: rest => some (String.ofList read.reverse, rest)
  | steps + 1, read, '\\' :: rest =>
    match escape rest with
    | some (c, rest) => basicString steps (c :: read) rest
    | none => none
  | steps + 1, read, c :: rest =>
    if isControl c then none else basicString steps (c :: read) rest

def literalString (s : List Char) : Option (String × List Char) :=
  let plain (c : Char) : Bool := c ≠ '\'' && !isControl c
  match s.dropWhile plain with
  | '\'' :: rest => some (String.ofList (s.takeWhile plain), rest)
  | _ => none

def skipLines : List Char → List Char
  | ' ' :: rest => skipLines rest
  | '\t' :: rest => skipLines rest
  | '\n' :: rest => skipLines rest
  | '\r' :: '\n' :: rest => skipLines rest
  | s => s

/-- A string of several lines up to three quotes, of which two more may
stand before.  A backslash at the end of a line joins lines. -/
def longString (quote : Char) (escapes : Bool) :
    Nat → List Char → List Char → Option (String × List Char)
  | 0, _, _ => none
  | _, _, [] => none
  | steps + 1, read, c :: rest =>
    if c = quote then
      match rest with
      | b :: a :: more =>
        if b = quote && a = quote then
          let extra := (more.takeWhile (· = quote)).length
          if extra ≤ 2 then
            some (String.ofList (read.reverse ++ more.take extra), more.drop extra)
          else none
        else longString quote escapes steps (c :: read) rest
      | _ => none
    else if escapes && c = '\\' then
      if (lineEnd (skipBlank rest)).isSome then
        longString quote escapes steps read (skipLines rest)
      else
        match escape rest with
        | some (d, rest) => longString quote escapes steps (d :: read) rest
        | none => none
    else
      match lineEnd (c :: rest) with
      | some rest => longString quote escapes steps ('\n' :: read) rest
      | none =>
        if isControl c then none else longString quote escapes steps (c :: read) rest

def dropLineEnd (s : List Char) : List Char := (lineEnd s).getD s

def string (s : List Char) : Option (String × List Char) :=
  match s with
  | '"' :: '"' :: '"' :: rest => longString '"' true (s.length + 1) [] (dropLineEnd rest)
  | '\'' :: '\'' :: '\'' :: rest => longString '\'' false (s.length + 1) [] (dropLineEnd rest)
  | '"' :: rest => basicString (s.length + 1) [] rest
  | '\'' :: rest => literalString rest
  | _ => none

def isKeyChar (c : Char) : Bool := c.isAlphanum || c = '_' || c = '-'

def key (s : List Char) : Option (String × List Char) :=
  match s with
  | '"' :: rest => basicString (s.length + 1) [] rest
  | '\'' :: rest => literalString rest
  | _ =>
    let name := s.takeWhile isKeyChar
    if name.isEmpty then none else some (String.ofList name, s.dropWhile isKeyChar)

def path : Nat → List Char → Option (List String × List Char)
  | 0, _ => none
  | steps + 1, s =>
    match key (skipBlank s) with
    | none => none
    | some (k, rest) =>
      match skipBlank rest with
      | '.' :: rest => (path steps rest).map fun p => (k :: p.1, p.2)
      | rest => some ([k], rest)

/-- Digits; between two of them an underscore may stand. -/
def digits (isDigit : Char → Bool) : List Char → Option (List Char)
  | [] => none
  | [c] => if isDigit c then some [c] else none
  | c :: '_' :: rest => if isDigit c then (digits isDigit rest).map (c :: ·) else none
  | c :: next :: rest =>
    if isDigit c then (digits isDigit (next :: rest)).map (c :: ·) else none

def valueOf (base : Nat) (ds : List Char) : Nat :=
  ds.foldl (fun n c => n * base + (Json.hexValue c).getD 0) 0

def wholeDigits (s : List Char) : Option (List Char) :=
  match digits Char.isDigit s with
  | some ('0' :: _ :: _) => none
  | ds => ds

def wholeNumber (i : Int) : Option Json :=
  if Decimal.fitsSigned i then some (.ofInt i) else none

def based (base : Nat) (s : List Char) : Option Json :=
  let isDigit (c : Char) : Bool := (Json.hexValue c).any (· < base)
  (digits isDigit s).bind fun ds => wholeNumber (valueOf base ds)

def infinity : Float := 1.0 / 0.0

/-- A number with a point or an exponent.  Only a negative one may be too
large. -/
def pointed (negative : Bool) (s : List Char) : Option Json :=
  let isMark (c : Char) : Bool := c = 'e' || c = 'E'
  let mantissa := s.takeWhile fun c => !isMark c
  let whole := wholeDigits (mantissa.takeWhile (· ≠ '.'))
  let part :=
    match mantissa.dropWhile (· ≠ '.') with
    | [] => some []
    | _ :: ds => digits Char.isDigit ds
  let exponent : Option Int :=
    match s.dropWhile fun c => !isMark c with
    | [] => some 0
    | _ :: '-' :: ds => (digits Char.isDigit ds).map fun ds => -(valueOf 10 ds : Int)
    | _ :: '+' :: ds => (digits Char.isDigit ds).map fun ds => valueOf 10 ds
    | _ :: ds => (digits Char.isDigit ds).map fun ds => valueOf 10 ds
  match whole, part, exponent with
  | some whole, some part, some exponent =>
    let ds := whole ++ part
    let x := Decimal.nearestDecimal (valueOf 10 ds) (exponent - part.length)
    if negative then some (.ofFloat (-x))
    else if x.isInf then none
    else some (.ofFloat x)
  | _, _, _ => none

def unsigned (negative : Bool) (s : List Char) : Option Json :=
  match s with
  | ['i', 'n', 'f'] => some (.ofFloat (if negative then -infinity else infinity))
  | ['n', 'a', 'n'] => some (.ofFloat (0.0 / 0.0))
  | s =>
    if s.any fun c => c = '.' || c = 'e' || c = 'E' then pointed negative s
    else
      (wholeDigits s).bind fun ds =>
        wholeNumber (if negative then -(valueOf 10 ds : Int) else valueOf 10 ds)

def number : List Char → Option Json
  | '0' :: 'x' :: s => based 16 s
  | '0' :: 'o' :: s => based 8 s
  | '0' :: 'b' :: s => based 2 s
  | '-' :: s => unsigned true s
  | '+' :: s => unsigned false s
  | s => unsigned false s

def isWordChar (c : Char) : Bool := isKeyChar c || c = '+' || c = '.'

def word (s : List Char) : Option (Json × List Char) :=
  let rest := s.dropWhile isWordChar
  match s.takeWhile isWordChar with
  | ['t', 'r', 'u', 'e'] => some (.bool true, rest)
  | ['f', 'a', 'l', 's', 'e'] => some (.bool false, rest)
  | w => (number w).map fun v => (v, rest)

/-- Passes over blanks, line ends and comments; nothing if a comment holds
what it may not. -/
def skipAll : Nat → List Char → Option (List Char)
  | 0, _ => none
  | steps + 1, s =>
    match skipLines s with
    | '#' :: rest =>
      match skipComment ('#' :: rest) with
      | [] => some []
      | rest => (lineEnd rest).bind (skipAll steps)
    | s => some s

mutual
/-- A value at the head of a text; inside brackets the depth is one less. -/
def value : Nat → Nat → List Char → Option (Json × List Char)
  | 0, _, _ => none
  | steps + 1, depth, s =>
    match s with
    | '"' :: _ => (string s).map fun r => (.string r.1, r.2)
    | '\'' :: _ => (string s).map fun r => (.string r.1, r.2)
    | '[' :: rest =>
      match depth with
      | 0 => none
      | depth + 1 => items steps depth [] rest
    | '{' :: rest =>
      match depth with
      | 0 => none
      | depth + 1 =>
        match skipBlank rest with
        | '}' :: rest => some (.object [], rest)
        | rest => fields steps depth [] rest
    | s => word s

def items : Nat → Nat → List Json → List Char → Option (Json × List Char)
  | 0, _, _, _ => none
  | steps + 1, depth, read, s =>
    match skipAll steps s with
    | none => none
    | some (']' :: rest) => some (.array read.reverse, rest)
    | some s =>
      match value steps depth s with
      | none => none
      | some (v, rest) =>
        match skipAll steps rest with
        | some (',' :: rest) => items steps depth (v :: read) rest
        | some (']' :: rest) => some (.array (v :: read).reverse, rest)
        | _ => none

def fields : Nat → Nat → Members → List Char → Option (Json × List Char)
  | 0, _, _, _ => none
  | steps + 1, depth, read, s =>
    match key (skipBlank s) with
    | none => none
    | some (k, rest) =>
      match skipBlank rest with
      | '=' :: rest =>
        if read.contains k then none
        else
          match value steps depth (skipBlank rest) with
          | none => none
          | some (v, rest) =>
            match skipBlank rest with
            | ',' :: rest => fields steps depth (read ++ [(k, v)]) rest
            | '}' :: rest => some (.object (read ++ [(k, v)]), rest)
            | _ => none
      | _ => none
end

def maxDepth : Nat := 79

structure Progress where
  sections : Members := []
  /-- Sections that came about through dotted keys. -/
  dotted : List String := []
  /-- The section whose header was read last. -/
  here : Option String := none

def addField (name k : String) (v : Json) (p : Progress) : Option Progress :=
  match p.sections.get? name with
  | some (.object ms) =>
    if Members.contains k ms then none
    else some { p with sections := Members.put name (.object (ms ++ [(k, v)])) p.sections }
  | _ => none

def openSection (name : String) (v : Json) (p : Progress) : Option Progress :=
  if p.sections.contains name then none
  else some { p with sections := p.sections ++ [(name, v)] }

def addEntry (keys : List String) (v : Json) (p : Progress) : Option Progress :=
  match p.here, keys with
  | some name, [k] => addField name k v p
  | none, [k] => openSection k v p
  | none, [name, k] =>
    if p.dotted.contains name then addField name k v p
    else
      (openSection name (.object [(k, v)]) p).map fun p =>
        { p with dotted := name :: p.dotted }
  | _, _ => none

def addHeader (keys : List String) (p : Progress) : Option Progress :=
  match keys with
  | [name] => (openSection name (.object []) p).map fun p => { p with here := some name }
  | _ => none

def line (p : Progress) (s : List Char) : Option (Progress × List Char) :=
  match skipBlank s with
  | '[' :: rest =>
    match path (rest.length + 1) rest with
    | some (keys, ']' :: rest) =>
      match addHeader keys p, restOfLine rest with
      | some p, some rest => some (p, rest)
      | _, _ => none
    | _ => none
  | s =>
    match restOfLine s with
    | some rest => some (p, rest)
    | none =>
      match path (s.length + 1) s with
      | some (keys, '=' :: rest) =>
        match value (s.length + 1) maxDepth (skipBlank rest) with
        | some (v, rest) =>
          match addEntry keys v p, restOfLine rest with
          | some p, some rest => some (p, rest)
          | _, _ => none
        | none => none
      | _ => none

def lines : Nat → Progress → List Char → Option Progress
  | 0, _, _ => none
  | _, p, [] => some p
  | steps + 1, p, s =>
    match line p s with
    | some (p, rest) => lines steps p rest
    | none => none

def mark : Char := Char.ofNat 0xFEFF

def withoutMark : List Char → List Char
  | c :: rest => if c = mark then rest else c :: rest
  | [] => []

def read (s : List Char) : Option Members :=
  let s := withoutMark s
  (lines (s.length + 1) {} s).map (·.sections)

end Cardwalk.Toml
