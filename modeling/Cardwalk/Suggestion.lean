import Cardwalk.Decimal.Layout
/-!
# Suggestions for misspelt names

The distance of two texts is counted in insertions, deletions and
substitutions of single characters.  It is computed row by row: a row
holds the distances of one beginning of the first text to all beginnings
of the second.
-/

set_option autoImplicit false

namespace Cardwalk.Suggestion

def firstRow (n : Nat) : List Char → List Nat
  | [] => [n]
  | _ :: b => n :: firstRow (n + 1) b

/-- The row behind one more character of the first text.  `diagonal` is
the entry above and to the left, `left` the entry before; the list holds
the entries above. -/
def extendRow (c : Char) (diagonal left : Nat) : List Nat → List Char → List Nat
  | above :: row, d :: b =>
    let entry := min (min (above + 1) (left + 1)) (diagonal + if c = d then 0 else 1)
    entry :: extendRow c above entry row b
  | _, _ => []

def nextRow (c : Char) (row : List Nat) (b : List Char) : List Nat :=
  match row with
  | [] => []
  | first :: rest => (first + 1) :: extendRow c first (first + 1) rest b

def rows : List Nat → List Char → List Char → List Nat
  | row, [], _ => row
  | row, c :: a, b => rows (nextRow c row b) a b

def distance (a b : List Char) : Nat := (rows (firstRow 0 b) a b).getLast?.getD 0

/-- A name is proposed up to this distance: half of the bytes, at least
two. -/
def reach (typo : String) : Nat := max 2 (typo.utf8ByteSize / 2)

def nearer (a b : Nat × String) : Nat × String := if b.1 < a.1 then b else a

def nearest : List (Nat × String) → Option (Nat × String)
  | [] => none
  | a :: rest => some (rest.foldl nearer a)

def correction (typo : String) (candidates : List String) : Option String :=
  let rated := candidates.map fun c => (distance typo.toList c.toList, c)
  (nearest (rated.filter fun r => r.1 ≤ reach typo)).map (·.2)

end Cardwalk.Suggestion
