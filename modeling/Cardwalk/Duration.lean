import Cardwalk.Decimal.Layout
/-!
# Durations

A duration is a number of nanoseconds, at most so many that the seconds
fit 64 bits.
-/

set_option autoImplicit false

namespace Cardwalk

structure Duration where
  nanos : Nat
deriving DecidableEq, Repr, Inhabited

namespace Duration

def perSecond : Nat := 1000000000

def zero : Duration := ⟨0⟩

def ofSeconds (s : Nat) : Duration := ⟨s * perSecond⟩

def ofMillis (ms : Nat) : Duration := ⟨ms * 1000000⟩

def seconds (d : Duration) : Nat := d.nanos / perSecond

def millis (d : Duration) : Nat := d.nanos / 1000000

/-- Milliseconds, a part of one counting as a whole. -/
def millisUp (d : Duration) : Nat := (d.nanos + 999999) / 1000000

def min (a b : Duration) : Duration := if a.nanos ≤ b.nanos then a else b

/-- In seconds, the seconds and the rest rounded on their own. -/
def toFloat (d : Duration) : Float :=
  Float.ofNat d.seconds + Float.ofNat (d.nanos % perSecond) / 1000000000

/-- The duration of that many seconds, to the nearest nanosecond; none if
it would be negative or too long. -/
def ofFloat? (x : Float) : Option Duration :=
  match Decimal.partsOfFloat x with
  | .zero _ => some zero
  | .finite false b =>
    let nanos :=
      if 0 ≤ b.exponent then b.mantissa * Decimal.twoTo b.exponent.toNat * perSecond
      else Decimal.roundHalfEven (b.mantissa * perSecond) (Decimal.twoTo b.exponent.natAbs)
    if nanos < Decimal.twoTo 64 * perSecond then some ⟨nanos⟩ else none
  | _ => none

def fractionChars (fraction places : Nat) : List Char :=
  let ds := Decimal.natDigits fraction
  let padded := Decimal.zeros (places - ds.length) ++ ds
  (padded.reverse.dropWhile (· = '0')).reverse

def unitChars (whole fraction places : Nat) : List Char :=
  let fs := if fraction = 0 then [] else fractionChars fraction places
  Decimal.natDigits whole ++ if fs.isEmpty then [] else '.' :: fs

def shown (d : Duration) : String :=
  let n := d.nanos
  if perSecond ≤ n then
    String.ofList (unitChars (n / perSecond) (n % perSecond) 9) ++ "s"
  else if 1000000 ≤ n then String.ofList (unitChars (n / 1000000) (n % 1000000) 6) ++ "ms"
  else if 1000 ≤ n then String.ofList (unitChars (n / 1000) (n % 1000) 3) ++ "µs"
  else String.ofList (unitChars n 0 0) ++ "ns"

def shownOption : Option Duration → String
  | none => "None"
  | some d => "Some(" ++ d.shown ++ ")"

theorem min_nanos (a b : Duration) : (min a b).nanos = Nat.min a.nanos b.nanos := by
  unfold min
  split
  · next h => exact (Nat.min_eq_left h).symm
  · next h => exact (Nat.min_eq_right (by omega)).symm

end Duration

end Cardwalk
