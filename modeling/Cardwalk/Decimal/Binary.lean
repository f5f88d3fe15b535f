/-!
# Floating-point numbers

A finite floating-point number is a sign and a product of a natural number
with a power of two.  Both widths in use are read from their bits, and a
quotient of natural numbers is rounded to the nearest of them or to the nearest
whole number, a value in the middle to the even neighbour.
-/

set_option autoImplicit false

namespace Cardwalk.Decimal

def twoTo (n : Nat) : Nat := Nat.pow 2 n

def tenTo (n : Nat) : Nat := Nat.pow 10 n

def fitsSigned (i : Int) : Bool := -(twoTo 63 : Int) ≤ i && i < (twoTo 63 : Int)

/-- A positive number `mantissa * 2 ^ exponent`.  It is `tight` where its
neighbour below is only half as far away as the one above. -/
structure Binary where
  mantissa : Nat
  exponent : Int
  tight : Bool

inductive Parts where
  | zero (negative : Bool)
  | finite (negative : Bool) (magnitude : Binary)
  | infinite (negative : Bool)
  | notANumber

/-- Reads an encoding with `fieldBits` bits of fraction and an exponent
field of at most `top`, whose smallest exponent is `least`. -/
def partsOfBits (fieldBits top : Nat) (least : Int) (bits : Nat) : Parts :=
  let fraction := bits % twoTo fieldBits
  let field := bits / twoTo fieldBits % (top + 1)
  let negative := bits / twoTo fieldBits / (top + 1) != 0
  if field == top then
    if fraction == 0 then .infinite negative else .notANumber
  else if field == 0 then
    if fraction == 0 then .zero negative
    else .finite negative ⟨fraction, least, false⟩
  else
    .finite negative
      ⟨fraction + twoTo fieldBits, least + field - 1, fraction == 0 && 1 < field⟩

def partsOfFloat (x : Float) : Parts := partsOfBits 52 2047 (-1074) x.toBits.toNat

def partsOfFloat32 (x : Float32) : Parts := partsOfBits 23 255 (-149) x.toBits.toNat

def roundHalfEven (a b : Nat) : Nat :=
  let q := a / b
  let r := a % b
  if 2 * r < b then q else if b < 2 * r then q + 1 else if q % 2 = 0 then q else q + 1

def inUnits (a b : Nat) (e : Int) : Nat × Nat :=
  if 0 ≤ e then (a, b * twoTo e.toNat) else (a * twoTo e.natAbs, b)

/-- The exponent of the unit in which `a / b` has 53 bits, or of the
smallest unit there is. -/
def unitOf (a b : Nat) : Int :=
  let e : Int := (a.log2 : Int) - (b.log2 : Int) - 53
  let wide := inUnits a b e
  max (if twoTo 53 ≤ wide.1 / wide.2 then e + 1 else e) (-1074)

/-- The floating-point number nearest to `a / b`, infinite if that is too
large.  The bits of the numbers that are not negative count through them in
their order: a mantissa that was rounded up to 54 bits, and one of fewer than
53 in the smallest unit, come out right. -/
def nearest (a b : Nat) : Float :=
  if a = 0 then 0
  else
    let e := unitOf a b
    let q := inUnits a b e
    let bits := (e + 1074).toNat * twoTo 52 + roundHalfEven q.1 q.2
    Float.ofBits (.ofNat (min bits (2047 * twoTo 52)))

def nearestDecimal (digits : Nat) (exponent : Int) : Float :=
  let leading := exponent + (Nat.toDigits 10 digits).length
  if digits = 0 then 0
  else if 400 < leading then 1.0 / 0.0
  else if leading < -400 then 0
  else if 0 ≤ exponent then nearest (digits * tenTo exponent.toNat) 1
  else nearest digits (tenTo exponent.natAbs)

theorem roundHalfEven_self (a b : Nat) (h : 0 < b) : roundHalfEven (a * b) b = a := by
  simp [roundHalfEven, Nat.mul_mod_left, Nat.mul_div_cancel a h, h]

end Cardwalk.Decimal
