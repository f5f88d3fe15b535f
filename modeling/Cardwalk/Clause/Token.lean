import Cardwalk.Decimal.Binary
import Cardwalk.Text.Blank
import Cardwalk.Text.Replace
/-!
# Tokens of a clause

A clause is a text with expressions between `{{` and `}}`, statements
between `{%` and `%}` and comments between `{#` and `#}`.  A dash next to
the inner side of a brace takes out the blanks on the outer side.  Every
token remembers its line.
-/

set_option autoImplicit false

namespace Cardwalk.Clause

inductive Token where
  | data (s : List Char)
  | openExpr
  | closeExpr
  | openStmt
  | closeStmt
  | name (s : String)
  | text (s : String)
  | int (n : Nat)
  | float (x : Float)
  | op (s : String)
  /-- The text cannot be read on from here. -/
  | bad
deriving Repr, BEq, Inhabited

structure Located where
  token : Token
  line : Nat
deriving Repr, Inhabited

def linesIn (s : List Char) : Nat := (s.filter (· = '\n')).length

def isOpening (c : Char) : Bool := c = '{' || c = '%' || c = '#'

def cutAtOpening : List Char → List Char → List Char × List Char
  | read, [] => (read.reverse, [])
  | read, '{' :: d :: s =>
    if isOpening d then (read.reverse, '{' :: d :: s)
    else cutAtOpening ('{' :: read) (d :: s)
  | read, c :: s => cutAtOpening (c :: read) s

/-- Cuts a text behind the end of a comment; says whether the comment ends
with a dash. -/
def cutComment : Bool → List Char → Option (Bool × List Char)
  | _, [] => none
  | dash, '#' :: '}' :: s => some (dash, s)
  | _, c :: s => cutComment (c = '-') s

def isNameStart (c : Char) : Bool :=
  ('a' ≤ c && c ≤ 'z') || ('A' ≤ c && c ≤ 'Z') || c = '_'

def isNamePart (c : Char) : Bool := isNameStart c || ('0' ≤ c && c ≤ '9')

def readQuoted (quote : Char) : List Char → List Char → Option (List Char × List Char)
  | _, [] => none
  | read, '\\' :: c :: s =>
    let shown :=
      match c with
      | 'n' => ['\n']
      | 't' => ['\t']
      | 'r' => ['\r']
      | '"' => ['"']
      | '\'' => ['\'']
      | '\\' => ['\\']
      | '/' => ['/']
      | c => [c, '\\']
    readQuoted quote (shown ++ read) s
  | read, c :: s => if c = quote then some (read.reverse, s) else readQuoted quote (c :: read) s

def closes (mark : Char) : List Char → Option (Bool × List Char)
  | '-' :: m :: '}' :: s => if m = mark then some (true, s) else none
  | m :: '}' :: s => if m = mark then some (false, s) else none
  | _ => none

def twoCharOps : List String := ["==", "!=", "<=", ">=", "//", "**"]

def oneCharOps : List Char :=
  ['+', '-', '*', '/', '%', '~', '|', '.', ',', ':', '(', ')', '[', ']', '{', '}', '<', '>', '=', '!']

def readDigits (ds : List Char) : Nat := ds.foldl (fun n c => n * 10 + (c.toNat - 48)) 0

def readNumber (s : List Char) : Token × List Char :=
  let ds := s.takeWhile Char.isDigit
  match s.dropWhile Char.isDigit with
  | '.' :: rest =>
    let fs := rest.takeWhile Char.isDigit
    if fs.isEmpty then (.int (readDigits ds), '.' :: rest)
    else
      (.float (Decimal.nearest (readDigits (ds ++ fs)) (Decimal.tenTo fs.length)),
        rest.dropWhile Char.isDigit)
  | rest => (.int (readDigits ds), rest)

def readToken : List Char → Token × List Char
  | [] => (.bad, [])
  | c :: s =>
    if isNameStart c then
      (.name (String.ofList ((c :: s).takeWhile isNamePart)), (c :: s).dropWhile isNamePart)
    else if c.isDigit then readNumber (c :: s)
    else if c = '"' || c = '\'' then
      match readQuoted c [] s with
      | some (t, rest) => (.text (String.ofList t), rest)
      | none => (.bad, [])
    else
      match s with
      | d :: rest =>
        if twoCharOps.contains (String.ofList [c, d]) then
          (.op (String.ofList [c, d]), rest)
        else if oneCharOps.contains c then (.op (String.ofList [c]), s)
        else (.bad, [])
      | [] => if oneCharOps.contains c then (.op (String.ofList [c]), s) else (.bad, [])

inductive Mode where
  | data
  | expr
  | stmt
deriving DecidableEq

/-- Reads all tokens.  `trim` says that blanks at the head are taken out. -/
def tokens : Nat → Mode → Bool → Nat → List Char → List Located
  | 0, _, _, _, _ => []
  | _ + 1, _, _, _, [] => []
  | steps + 1, .data, trim, line, s =>
    let (data, rest) := cutAtOpening [] s
    let line' := line + linesIn data
    let dashed :=
      match rest with
      | _ :: _ :: '-' :: _ => true
      | _ => false
    let shown := if trim then Text.trimStart data else data
    let shown := if dashed then Text.trimEnd shown else shown
    let start := line + (if trim then linesIn (data.takeWhile Text.isBlank) else 0)
    let here : List Located := if shown.isEmpty then [] else [⟨.data shown, start⟩]
    let skip (s : List Char) :=
      match s with
      | '-' :: s => s
      | '+' :: s => s
      | s => s
    match rest with
    | '{' :: '{' :: s => here ++ ⟨.openExpr, line'⟩ :: tokens steps .expr false line' (skip s)
    | '{' :: '%' :: s => here ++ ⟨.openStmt, line'⟩ :: tokens steps .stmt false line' (skip s)
    | '{' :: '#' :: s =>
      match cutComment false s with
      | some (dash, after) =>
        let used := s.take (s.length - after.length)
        here ++ tokens steps .data dash (line' + linesIn used) after
      | none => here ++ [⟨.bad, line'⟩]
    | _ => here
  | steps + 1, mode, _, line, s =>
    let blank := s.takeWhile Text.isBlank
    let line := line + linesIn blank
    let s := Text.trimStart s
    let mark := if mode = .expr then '}' else '%'
    let close : Token := if mode = .expr then .closeExpr else .closeStmt
    match closes mark s with
    | some (dash, rest) => ⟨close, line⟩ :: tokens steps .data dash line rest
    | none =>
      if s.isEmpty then []
      else
        match readToken s with
        | (.bad, _) => [⟨.bad, line⟩]
        | (t, rest) =>
          let used := s.take (s.length - rest.length)
          ⟨t, line⟩ :: tokens steps mode false (line + linesIn used) rest

def dropLastBreak (s : List Char) : List Char :=
  match s.reverse with
  | '\n' :: '\r' :: rest => rest.reverse
  | '\n' :: rest => rest.reverse
  | '\r' :: rest => rest.reverse
  | _ => s

def tokenize (s : List Char) : List Located :=
  let s := dropLastBreak s
  tokens (2 * s.length + 2) .data false 1 s

end Cardwalk.Clause
