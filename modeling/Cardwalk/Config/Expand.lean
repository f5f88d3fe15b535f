import Cardwalk.Text.Letters
import Cardwalk.Text.Replace
/-!
# Variables in paths

A path may begin with a tilde for the home folder and may name variables
as `$NAME`, as `${NAME}` or, with a default, as `${NAME:-default}`; `$$` is
a dollar sign.
-/

set_option autoImplicit false

namespace Cardwalk.Expand

def isNameChar (c : Char) : Bool := Text.isLetterOrDigit c || c = '_'

/-- What stands before the first `:-` and what behind it. -/
def cutDefault : List Char → List Char × Option (List Char)
  | [] => ([], none)
  | ':' :: '-' :: rest => ([], some rest)
  | c :: rest => (c :: (cutDefault rest).1, (cutDefault rest).2)

/-- What stands between braces: the name and the default.  A default needs
a name before it. -/
def splitDefault (inner : List Char) : List Char × Option (List Char) :=
  match cutDefault inner with
  | ([], _) => (inner, none)
  | split => split

/-- A variable in braces that is empty stands for itself unless it has a
default. -/
def braced (env : String → Option String) (inner : List Char) : Option (List Char) :=
  let (name, standard) := splitDefault inner
  match env (String.ofList name), standard with
  | some v, _ =>
    if v.isEmpty then some (standard.getD ('$' :: '{' :: inner ++ ['}'])) else some v.toList
  | none, some d => some d
  | none, none => none

def substitute (env : String → Option String) : Nat → List Char → Option (List Char)
  | 0, _ => some []
  | _, [] => some []
  | steps + 1, '$' :: rest =>
    match rest with
    | '{' :: behind =>
      if behind.contains '}' then
        let inner := behind.takeWhile (· ≠ '}')
        match braced env inner, substitute env steps (behind.drop (inner.length + 1)) with
        | some v, some more => some (v ++ more)
        | _, _ => none
      else (substitute env steps behind).map fun more => '$' :: '{' :: more
    | '$' :: behind => (substitute env steps behind).map ('$' :: ·)
    | _ =>
      let name := rest.takeWhile isNameChar
      if name.isEmpty then (substitute env steps rest).map ('$' :: ·)
      else
        match env (String.ofList name), substitute env steps (rest.drop name.length) with
        | some v, some more => some (v.toList ++ more)
        | _, _ => none
  | steps + 1, c :: rest => (substitute env steps rest).map (c :: ·)

def names : List Char → List (List Char)
  | [] => []
  | '$' :: rest =>
    match rest with
    | '{' :: behind => (splitDefault (behind.takeWhile (· ≠ '}'))).1 :: names rest
    | _ => rest.takeWhile isNameChar :: names rest
  | _ :: rest => names rest

def tilde (home : Option String) (s : List Char) : List Char :=
  match s, home with
  | '~' :: rest, some h =>
    match rest with
    | [] => h.toList
    | '/' :: _ => h.toList ++ rest
    | _ => s
  | _, _ => s

/-- The path that a text stands for.  A tilde out of a variable is not
expanded, and neither is a text with a variable that has no value. -/
def expand (env : String → Option String) (home : Option String) (s : String) : String :=
  let raw := s.toList
  match substitute env (raw.length + 1) raw with
  | none => s
  | some t =>
    if !Text.startsWith ['~'] raw && Text.startsWith ['~'] t then String.ofList t
    else String.ofList (tilde home t)

end Cardwalk.Expand
