import Cardwalk.Decimal.Shortest
/-!
# Writing decimals

The digits of a decimal are laid out with a decimal point, or with an
exponent where the layout says so.
-/

set_option autoImplicit false

namespace Cardwalk.Decimal

def natDigits (n : Nat) : List Char := Nat.toDigits 10 n

def intDigits (i : Int) : List Char :=
  if i < 0 then '-' :: natDigits i.natAbs else natDigits i.natAbs

/-- Where the exponent of the leading digit lies in this range the number
is written without an exponent; a whole number may end in `.0`. -/
structure Layout where
  least : Int
  greatest : Int
  point : Bool

def plain : Layout := ⟨-400, 400, false⟩

def zeros (n : Nat) : List Char := List.replicate n '0'

def scientific (ds : List Char) (leading : Int) : List Char :=
  let mantissa :=
    match ds with
    | [] => []
    | [d] => [d]
    | d :: rest => d :: '.' :: rest
  mantissa ++ 'e' :: (if leading < 0 then [] else ['+']) ++ intDigits leading

def positional (point : Bool) (ds : List Char) (exponent : Int) : List Char :=
  if 0 ≤ exponent then
    ds ++ zeros exponent.toNat ++ (if point then ['.', '0'] else [])
  else
    let places := exponent.natAbs
    if places < ds.length then
      ds.take (ds.length - places) ++ '.' :: ds.drop (ds.length - places)
    else
      '0' :: '.' :: zeros (places - ds.length) ++ ds

def Layout.write (l : Layout) (d : Numeral) : List Char :=
  let ds := natDigits d.digits
  let leading := d.exponent + ds.length - 1
  if l.least ≤ leading && leading ≤ l.greatest then
    positional l.point ds d.exponent
  else scientific ds leading

def Layout.parts (l : Layout) : Parts → List Char
  | .zero negative =>
    (if negative then ['-'] else []) ++ '0' :: (if l.point then ['.', '0'] else [])
  | .finite negative m => (if negative then ['-'] else []) ++ l.write m.shortest
  | .infinite negative => (if negative then ['-'] else []) ++ ['i', 'n', 'f']
  | .notANumber => ['N', 'a', 'N']

def plainFloat (x : Float) : List Char := plain.parts (partsOfFloat x)

def plainFloat32 (x : Float32) : List Char := plain.parts (partsOfFloat32 x)

/-- A whole number of units of `10 ^ -places`. -/
def pointed (places units : Nat) : List Char :=
  let part := natDigits (units % tenTo places)
  natDigits (units / tenTo places) ++ '.' :: zeros (places - part.length) ++ part

def Binary.fixed (places : Nat) (b : Binary) : List Char :=
  let scaled := b.mantissa * tenTo places
  pointed places
    (if 0 ≤ b.exponent then scaled * twoTo b.exponent.toNat
     else roundHalfEven scaled (twoTo b.exponent.natAbs))

def fixedFloat (places : Nat) (x : Float) : List Char :=
  match partsOfFloat x with
  | .zero negative => (if negative then ['-'] else []) ++ pointed places 0
  | .finite negative b => (if negative then ['-'] else []) ++ b.fixed places
  | parts => plain.parts parts

end Cardwalk.Decimal
