import Cardwalk.Decimal.Layout
import Cardwalk.Text.Blank
/-!
# The calculator

Arithmetic over decimal numbers with the four operations, signs and
parentheses.  An expression is read into a tree, with a limit on how
deeply signs and parentheses are nested, and the tree has a value.
-/

set_option autoImplicit false

namespace Cardwalk.Calculator

inductive Operation where
  | add
  | subtract
  | multiply
  | divide
deriving DecidableEq, Repr

/-- The tree of an expression.  A number is kept as its digits and the
count of those behind the point. -/
inductive Tree where
  | number (digits : Nat) (places : Nat)
  | minus (t : Tree)
  | plus (t : Tree)
  | apply (op : Operation) (a b : Tree)
deriving DecidableEq, Repr

def Operation.value : Operation → Float → Float → Float
  | .add, x, y => x + y
  | .subtract, x, y => x - y
  | .multiply, x, y => x * y
  | .divide, x, y => x / y

def Tree.value : Tree → Float
  | .number digits places => Decimal.nearest digits (Decimal.tenTo places)
  | .minus t => -t.value
  | .plus t => t.value
  | .apply op a b => op.value a.value b.value

def maxDepth : Nat := 256

def isNumberChar (c : Char) : Bool := c.isDigit || c = '.'

def literal (s : List Char) : Option Tree :=
  let digits := s.filter Char.isDigit
  let places := (s.dropWhile (· ≠ '.')).length - 1
  if digits.isEmpty || 1 < (s.filter (· = '.')).length then none
  else some (.number (digits.foldl (fun n c => n * 10 + (c.toNat - 48)) 0) places)

def number (s : List Char) : Option (Tree × List Char) :=
  (literal (s.takeWhile isNumberChar)).map fun t => (t, s.dropWhile isNumberChar)

def sumOperation : Char → Option Operation
  | '+' => some .add
  | '-' => some .subtract
  | _ => none

def productOperation : Char → Option Operation
  | '*' => some .multiply
  | '/' => some .divide
  | _ => none

mutual
def sum : Nat → Nat → List Char → Option (Tree × List Char)
  | 0, _, _ => none
  | steps + 1, depth, s =>
    match product steps depth s with
    | some (t, s) => moreTerms steps depth t s
    | none => none

def moreTerms : Nat → Nat → Tree → List Char → Option (Tree × List Char)
  | 0, _, _, _ => none
  | _ + 1, _, t, [] => some (t, [])
  | steps + 1, depth, t, c :: s =>
    match sumOperation c with
    | none => some (t, c :: s)
    | some op =>
      match product steps depth s with
      | some (u, s) => moreTerms steps depth (.apply op t u) s
      | none => none

def product : Nat → Nat → List Char → Option (Tree × List Char)
  | 0, _, _ => none
  | steps + 1, depth, s =>
    match factor steps depth s with
    | some (t, s) => moreFactors steps depth t s
    | none => none

def moreFactors : Nat → Nat → Tree → List Char → Option (Tree × List Char)
  | 0, _, _, _ => none
  | _ + 1, _, t, [] => some (t, [])
  | steps + 1, depth, t, c :: s =>
    match productOperation c with
    | none => some (t, c :: s)
    | some op =>
      match factor steps depth s with
      | some (u, s) => moreFactors steps depth (.apply op t u) s
      | none => none

/-- A number, a signed factor or an expression in parentheses; the second
number is the depth still allowed. -/
def factor : Nat → Nat → List Char → Option (Tree × List Char)
  | 0, _, _ => none
  | _ + 1, 0, _ => none
  | _ + 1, _ + 1, [] => none
  | steps + 1, depth + 1, c :: s =>
    if c = '-' then (factor steps depth s).map fun r => (.minus r.1, r.2)
    else if c = '+' then (factor steps depth s).map fun r => (.plus r.1, r.2)
    else if c = '(' then
      match sum steps depth s with
      | some (t, ')' :: s) => some (t, s)
      | _ => none
    else number (c :: s)
end

def parse (s : List Char) : Option Tree :=
  match sum (4 * s.length + 8) maxDepth s with
  | some (t, []) => some t
  | _ => none

def dropBlanks (s : List Char) : List Char := s.filter fun c => !Text.isBlank c

def evaluateChars (s : List Char) : Option Float :=
  match parse (dropBlanks s) with
  | some t => if t.value.isFinite then some t.value else none
  | none => none

/-- The value of an expression, if it is well formed and its value is
finite. -/
def evaluate (expression : String) : Option Float := evaluateChars expression.toList

def formatNumber (x : Float) : String :=
  if x.floor == x && x.abs < 1e15 then
    String.ofList (Decimal.intDigits x.toInt64.toInt)
  else String.ofList (Decimal.plainFloat x)

end Cardwalk.Calculator
