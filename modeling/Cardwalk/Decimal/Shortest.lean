import Cardwalk.Decimal.Binary
/-!
# The fewest digits that read back

A decimal stands for a floating-point number if it lies among the real
numbers that round to it.  Of all such decimals the one with the fewest
digits is chosen, and of those the nearest.  For a given number of digits
only the two decimals on either side of the number have to be tried, since
the decimals that stand for it form an interval.
-/

set_option autoImplicit false

namespace Cardwalk.Decimal

structure Numeral where
  digits : Nat
  exponent : Int
deriving Repr, DecidableEq

def digitCount (n : Nat) : Nat := (Nat.toDigits 10 n).length

/-- The fraction `above / below` in quarters of the last binary place: the
lower end, the number itself and the upper end of its interval. -/
structure Interval where
  low : Nat
  mid : Nat
  high : Nat
  below : Nat
  closed : Bool

def Binary.interval (b : Binary) : Interval :=
  let scale := if 2 ≤ b.exponent then twoTo (b.exponent - 2).toNat else 1
  let below := if 2 ≤ b.exponent then 1 else twoTo (2 - b.exponent).toNat
  { low := (4 * b.mantissa - if b.tight then 1 else 2) * scale
    mid := 4 * b.mantissa * scale
    high := (4 * b.mantissa + 2) * scale
    below := below
    closed := b.mantissa % 2 == 0 }

def Interval.leading (i : Interval) : Int :=
  if i.below ≤ i.mid then digitCount (i.mid / i.below) - 1
  else
    let places := digitCount (i.below / i.mid) - 1
    if i.below ≤ i.mid * tenTo places then - (places : Int) else - (places + 1 : Int)

/-- The best decimal with its last digit at the given place, if there is
one in the interval. -/
def Interval.atPlace (i : Interval) (place : Int) : Option Numeral :=
  let up := tenTo (-place).toNat
  let down := i.below * tenTo place.toNat
  let inside (d : Nat) : Bool :=
    if i.closed then i.low * up ≤ d * down && d * down ≤ i.high * up
    else i.low * up < d * down && d * down < i.high * up
  let floor := i.mid * up / down
  let left := i.mid * up - floor * down
  if inside floor && (!inside (floor + 1) || 2 * left < down
      || (2 * left == down && floor % 2 == 0)) then
    some ⟨floor, place⟩
  else if inside (floor + 1) then some ⟨floor + 1, place⟩
  else none

def Interval.fewest (i : Interval) (leading : Int) : Nat → Nat → Numeral
  | 0, count => ⟨i.mid / i.below, - (count : Int)⟩
  | tries + 1, count =>
    match i.atPlace (leading - count) with
    | some d => d
    | none => i.fewest leading tries (count + 1)

def Numeral.strip (d : Numeral) : Nat → Numeral
  | 0 => d
  | k + 1 =>
    if d.digits % 10 == 0 && d.digits != 0 then
      Numeral.strip ⟨d.digits / 10, d.exponent + 1⟩ k
    else d

/-- Seventeen digits always suffice. -/
def Binary.shortest (b : Binary) : Numeral :=
  let i := b.interval
  (i.fewest i.leading 17 0).strip 17

end Cardwalk.Decimal
