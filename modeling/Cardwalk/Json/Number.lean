import Cardwalk.Decimal.Binary
import Cardwalk.Json.Basic
/-!
# Reading numbers

The digits of a number are gathered in a significand that fits 64 bits.
Digits behind the last one that fits only move the decimal point.  A whole
number that fits 64 bits stays whole; every other number is the significand
scaled by a power of ten, each step rounded to a floating-point number.
-/

set_option autoImplicit false

namespace Cardwalk.Json

def maxWord : Nat := Decimal.twoTo 64 - 1

/-- Gathers digits as long as the significand fits; counts them. -/
def gather (significand count : Nat) : List Char → Nat × Nat × List Char
  | [] => (significand, count, [])
  | c :: s =>
    if c.isDigit then
      let next := significand * 10 + (c.toNat - 48)
      if maxWord < next then (significand, count, c :: s)
      else gather next (count + 1) s
    else (significand, count, c :: s)

def digitAhead : List Char → Bool
  | c :: _ => c.isDigit
  | [] => false

/-- `x * 10 ^ e` in steps of at most `10 ^ 308`, `none` if it is too large.
Two divisions bring every significand down to zero. -/
def scale : Nat → Float → Int → Option Float
  | 0, x, _ => some x
  | steps + 1, x, e =>
    if 0 ≤ e then
      if e ≤ 308 then
        let y := x * Decimal.nearest (Decimal.tenTo e.toNat) 1
        if y.isInf then none else some y
      else if x == 0 then some x else none
    else if -308 ≤ e then some (x / Decimal.nearest (Decimal.tenTo e.natAbs) 1)
    else if x == 0 then some x
    else scale steps (x / Decimal.nearest (Decimal.tenTo 308) 1) (e + 308)

inductive Scanned where
  | number (n : Number)
  /-- Too large for a floating-point number. -/
  | huge
  | invalid
  /-- The text ends inside the number. -/
  | cut

def scaled (negative : Bool) (significand : Nat) (e : Int) : Scanned :=
  match scale 3 (Float.ofNat significand) e with
  | some x => .number (.float (if negative then -x else x))
  | none => .huge

def whole (negative : Bool) (significand : Nat) : Scanned :=
  if !negative then .number (.int significand)
  else if significand = 0 || Decimal.twoTo 63 < significand then
    .number (.float (-(Float.ofNat significand)))
  else .number (.int (-(significand : Int)))

def exponentDigits (s : List Char) : Int × List Char :=
  let ds := s.takeWhile Char.isDigit
  (ds.foldl (fun n c => n * 10 + (c.toNat - 48)) (0 : Nat), s.dropWhile Char.isDigit)

/-- Reads behind the `e`; the significand is already scaled by `10 ^ e`. -/
def scanExponent (negative : Bool) (significand : Nat) (e : Int) (s : List Char) :
    Scanned × List Char :=
  let (down, s) :=
    match s with
    | '+' :: s => (false, s)
    | '-' :: s => (true, s)
    | s => (false, s)
  if digitAhead s then
    let (x, rest) := exponentDigits s
    (scaled negative significand (if down then e - x else e + x), rest)
  else (if s.isEmpty then .cut else .invalid, s)

def scanTail (negative : Bool) (significand : Nat) (e : Int) : List Char →
    Scanned × List Char
  | 'e' :: s => scanExponent negative significand e s
  | 'E' :: s => scanExponent negative significand e s
  | s => (scaled negative significand e, s)

def scanFraction (negative : Bool) (significand : Nat) (e : Int) (s : List Char) :
    Scanned × List Char :=
  let (significand, count, s) := gather significand 0 s
  if digitAhead s then
    scanTail negative significand (e - count) (s.dropWhile Char.isDigit)
  else if count = 0 then (if s.isEmpty then .cut else .invalid, s)
  else scanTail negative significand (e - count) s

def scanUnsigned (negative : Bool) : List Char → Scanned × List Char
  | [] => (.cut, [])
  | '0' :: s =>
    if digitAhead s then (.invalid, s)
    else
      match s with
      | '.' :: t => scanFraction negative 0 0 t
      | 'e' :: t => scanExponent negative 0 0 t
      | 'E' :: t => scanExponent negative 0 0 t
      | _ => (whole negative 0, s)
  | c :: s =>
    if c.isDigit then
      let (significand, _, s) := gather 0 0 (c :: s)
      if digitAhead s then
        let dropped := (s.takeWhile Char.isDigit).length
        match s.dropWhile Char.isDigit with
        | '.' :: t => scanFraction negative significand dropped t
        | t => scanTail negative significand dropped t
      else
        match s with
        | '.' :: t => scanFraction negative significand 0 t
        | 'e' :: t => scanExponent negative significand 0 t
        | 'E' :: t => scanExponent negative significand 0 t
        | _ => (whole negative significand, s)
    else (.invalid, c :: s)

end Cardwalk.Json
