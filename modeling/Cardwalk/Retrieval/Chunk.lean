import Cardwalk.Json.Basic
import Cardwalk.Text.Blank
import Cardwalk.Text.Lowercase

/-!
# Chunks of a document

A text is cut into chunks that overlap, so that every place of the text
stands in a chunk together with what is around it.  A chunk may be a
little longer than usual in order to end with a sentence.  How well it fits a
query is told by the pairs of neighbouring characters, in lower case and
without blanks: a chunk fits as well as it holds the pairs of the query.
-/

set_option autoImplicit false

namespace Cardwalk.Chunk

def size : Nat := 500

/-- The number of characters that a chunk repeats of the one before it,
and the number that it may be longer than usual. -/
def overlap : Nat := 100

def isSeparator (c : Char) : Bool := c = '.' || c = '?' || c = '!' || c = '\n'

def throughLastSeparator (s : List Char) : Nat :=
  (s.reverse.dropWhile fun c => !isSeparator c).length

def headLength (s : List Char) : Nat :=
  if s.length ≤ size then s.length
  else size + throughLastSeparator ((s.drop size).take overlap)

/-- The chunks of a text.  The number bounds the steps; the length of the
text is enough. -/
def cut : Nat → List Char → List (List Char)
  | 0, _ => []
  | _ + 1, [] => []
  | steps + 1, s =>
    let n := headLength s
    if s.length ≤ n then [s]
    else s.take n :: cut steps (s.drop (n - overlap))

def ofText (s : List Char) : List (List Char) := cut (s.length + 1) s

end Cardwalk.Chunk

namespace Cardwalk.Score

def letters (s : List Char) : List Char :=
  Text.lower (s.filter fun c => !Text.isBlank c)

def pairs : List Char → List (List Char)
  | a :: b :: s => [a, b] :: pairs (b :: s)
  | _ => []

/-- The grams of a text, each once; a text of one character is its own
gram. -/
def grams (s : List Char) : List (List Char) :=
  match letters s with
  | [] => []
  | [c] => [[c]]
  | cs => (pairs cs).eraseDups

structure Share where
  shared : Nat
  total : Nat
deriving DecidableEq, Repr

def share (query chunk : List Char) : Share :=
  let wanted := grams query
  let held := grams chunk
  ⟨(wanted.filter held.contains).length, wanted.length⟩

def Share.value (s : Share) : Float :=
  if s.total = 0 then 0 else Float.ofNat s.shared / Float.ofNat s.total

end Cardwalk.Score
