import Cardwalk.Text.Replace
import Cardwalk.Json.Print
/-!
# Addresses of requests

The path and the query of an address as they are sent: dot segments are
resolved, and what may not stand there is written as percent escapes.  A
fragment is not sent.
-/

set_option autoImplicit false

namespace Cardwalk.Address

def utf8Bytes (c : Char) : List Nat :=
  let n := c.toNat
  if n < 0x80 then [n]
  else if n < 0x800 then [0xC0 + n / 64, 0x80 + n % 64]
  else if n < 0x10000 then [0xE0 + n / 4096, 0x80 + n / 64 % 64, 0x80 + n % 64]
  else [0xF0 + n / 262144, 0x80 + n / 4096 % 64, 0x80 + n / 64 % 64, 0x80 + n % 64]

def upperHex (n : Nat) : Char := (Nat.digitChar n).toUpper

def escaped (c : Char) : List Char :=
  (utf8Bytes c).flatMap fun b => ['%', upperHex (b / 16), upperHex (b % 16)]

def isReserved (c : Char) : Bool :=
  c.toNat ≤ 0x20 || 0x7F ≤ c.toNat || c = '"' || c = '<' || c = '>'

def isReservedInPath (c : Char) : Bool :=
  isReserved c || c = '#' || c = '?' || c = '{' || c = '}' || c = '`' || c = '^'

def isReservedInQuery (c : Char) : Bool := isReserved c || c = '#' || c = '\''

def escapeWith (reserved : Char → Bool) (s : List Char) : List Char :=
  s.flatMap fun c => if reserved c then escaped c else [c]

def undotted (s : List Char) : List Char :=
  Text.replace ['%', '2', 'e'] ['.'] (s.map Char.toLower)

def isDot (segment : List Char) : Bool := undotted segment = ['.']

def isDotDot (segment : List Char) : Bool := undotted segment = ['.', '.']

/-- Resolves dot segments; the segments kept so far stand in reverse. -/
def resolveDots : List (List Char) → List (List Char) → List (List Char)
  | kept, [] => kept.reverse
  | kept, [last] =>
    if isDotDot last then ([] :: kept.drop 1).reverse
    else if isDot last then ([] :: kept).reverse
    else (last :: kept).reverse
  | kept, segment :: next :: rest =>
    if isDotDot segment then resolveDots (kept.drop 1) (next :: rest)
    else if isDot segment then resolveDots kept (next :: rest)
    else resolveDots (segment :: kept) (next :: rest)

def withoutBreaks (s : List Char) : List Char :=
  s.filter fun c => !(c = '\t' || c = '\n' || c = '\r')

/-- Can a text stand behind a host?  Any other text would make the host
another one. -/
def followsHost (s : List Char) : Bool :=
  match withoutBreaks s with
  | [] => true
  | c :: _ => c = '/' || c = '\\' || c = '?' || c = '#'

def target (s : List Char) : List Char :=
  let s := (withoutBreaks s).takeWhile (· ≠ '#')
  let path := (s.takeWhile (· ≠ '?')).map fun c => if c = '\\' then '/' else c
  let query := s.dropWhile (· ≠ '?')
  let segments :=
    match Text.splitAt '/' path with
    | [] :: rest => rest
    | segments => segments
  let path := '/' :: Text.joinWith ['/'] (resolveDots [] segments)
  escapeWith isReservedInPath path
    ++ (match query with
      | '?' :: q => '?' :: escapeWith isReservedInQuery q
      | _ => [])

def completionsUrl (base : String) : String :=
  String.ofList ((base.toList.reverse.dropWhile (· = '/')).reverse) ++ "/chat/completions"

end Cardwalk.Address
