/-!
# Reading UTF-8

A byte string is read from the left, one character at a time.  A byte that
starts no character is read as U+FFFD together with the bytes after it
that could have gone on with the same character, so that a damaged
character is shown once.
-/

set_option autoImplicit false

namespace Cardwalk.Text

def damaged : Char := Char.ofNat 0xFFFD

def isContinuation (b : UInt8) : Bool := 0x80 ≤ b && b ≤ 0xBF

/-- The second bytes that a first byte of a longer character allows: no
overlong forms, no surrogates, nothing above U+10FFFF. -/
def allowsSecond (first second : UInt8) : Bool :=
  if first == 0xE0 then 0xA0 ≤ second && second ≤ 0xBF
  else if first == 0xED then 0x80 ≤ second && second ≤ 0x9F
  else if first == 0xF0 then 0x90 ≤ second && second ≤ 0xBF
  else if first == 0xF4 then 0x80 ≤ second && second ≤ 0x8F
  else isContinuation second

/-- The number of bytes that a first byte announces; zero if it starts no
character. -/
def announced (first : UInt8) : Nat :=
  if first ≤ 0x7F then 1
  else if 0xC2 ≤ first && first ≤ 0xDF then 2
  else if 0xE0 ≤ first && first ≤ 0xEF then 3
  else if 0xF0 ≤ first && first ≤ 0xF4 then 4
  else 0

private def low (b : UInt8) : Nat := b.toNat % 64

/-- The character at the head of a nonempty byte string, `none` where the
bytes are damaged, and the number of bytes after the first that belong to
it. -/
def headChar (first : UInt8) (rest : List UInt8) : Option Char × Nat :=
  match announced first, rest with
  | 1, _ => (some (Char.ofNat first.toNat), 0)
  | 2, b :: _ =>
    if isContinuation b then
      (some (Char.ofNat (first.toNat % 32 * 64 + low b)), 1)
    else (none, 0)
  | 3, b :: c :: _ =>
    if allowsSecond first b then
      if isContinuation c then
        (some (Char.ofNat (first.toNat % 16 * 4096 + low b * 64 + low c)), 2)
      else (none, 1)
    else (none, 0)
  | 3, [b] => (none, if allowsSecond first b then 1 else 0)
  | 4, b :: c :: d :: _ =>
    if allowsSecond first b then
      if isContinuation c then
        if isContinuation d then
          (some (Char.ofNat
            (first.toNat % 8 * 262144 + low b * 4096 + low c * 64 + low d)), 3)
        else (none, 2)
      else (none, 1)
    else (none, 0)
  | 4, [b, c] =>
    (none, if allowsSecond first b then if isContinuation c then 2 else 1 else 0)
  | 4, [b] => (none, if allowsSecond first b then 1 else 0)
  | _, _ => (none, 0)

/-- The reading loop: the number counts the bytes that the last character
still owns, and the characters read so far stand in reverse. -/
def readBytes : List UInt8 → Nat → List (Option Char) → List (Option Char)
  | [], _, read => read.reverse
  | _ :: bytes, k + 1, read => readBytes bytes k read
  | b :: bytes, 0, read =>
    let (c, owned) := headChar b bytes
    readBytes bytes owned (c :: read)

def decodeLossy (bytes : List UInt8) : List Char :=
  (readBytes bytes 0 []).map fun c => c.getD damaged

def decode? (bytes : List UInt8) : Option (List Char) :=
  (readBytes bytes 0 []).mapM id

end Cardwalk.Text
