import Cardwalk.Json.Doc
/-!
# Reading values out of documents

A document is read as a value, or passed over where nothing is to be read
from it.  Passing over is more lenient: it asks neither for numbers in
range nor for well-formed surrogate pairs, and it has no depth limit.
-/

set_option autoImplicit false

namespace Cardwalk.Json

def maxDepth : Nat := 127

def Closing.check : Closing → Except ReadError Unit
  | .closed => .ok ()
  | .stopped s => .error (.flaw s.flaw)

mutual
def Doc.value : Nat → Doc → Except ReadError Json
  | _, .null => .ok .null
  | _, .bool b => .ok (.bool b)
  | _, .number n => .ok (.number n)
  | _, .hugeNumber => .error (.flaw .numberOutOfRange)
  | _, .string s => .ok (.string s)
  | _, .badString f => .error (.flaw f)
  | 0, .array _ _ => .error (.flaw .tooDeep)
  | 0, .object _ _ => .error (.flaw .tooDeep)
  | depth + 1, .array items closing =>
    match Doc.values depth items with
    | .ok vs => closing.check.map fun _ => .array vs
    | .error e => .error e
  | depth + 1, .object members closing =>
    match Doc.memberValues depth members with
    | .ok ms => closing.check.map fun _ => .object (Members.ofList ms)
    | .error e => .error e
  | _, .stopped s => .error (.flaw s.flaw)
  | _, .stoppedString f _ => .error (.flaw f)

def Doc.values : Nat → List Doc → Except ReadError (List Json)
  | _, [] => .ok []
  | depth, d :: rest =>
    match Doc.value depth d with
    | .ok v => (Doc.values depth rest).map (v :: ·)
    | .error e => .error e

def Doc.memberValues : Nat → List (Except Flaw String × Doc) →
    Except ReadError (List (String × Json))
  | _, [] => .ok []
  | _, (.error f, _) :: _ => .error (.flaw f)
  | depth, (.ok k, d) :: rest =>
    match Doc.value depth d with
    | .ok v => (Doc.memberValues depth rest).map ((k, v) :: ·)
    | .error e => .error e
end

mutual
def Doc.skip : Doc → Except Flaw Unit
  | .array items closing =>
    match Doc.skipItems items with
    | .ok _ => Doc.skipClosing closing
    | .error f => .error f
  | .object members closing =>
    match Doc.skipMembers members with
    | .ok _ => Doc.skipClosing closing
    | .error f => .error f
  | .stopped s => .error s.flawSkipped
  | .stoppedString _ skipped => .error skipped
  | .null | .bool _ | .number _ | .hugeNumber | .string _ | .badString _ => .ok ()

def Doc.skipItems : List Doc → Except Flaw Unit
  | [] => .ok ()
  | d :: rest =>
    match Doc.skip d with
    | .ok _ => Doc.skipItems rest
    | .error f => .error f

def Doc.skipMembers : List (Except Flaw String × Doc) → Except Flaw Unit
  | [] => .ok ()
  | (_, d) :: rest =>
    match Doc.skip d with
    | .ok _ => Doc.skipMembers rest
    | .error f => .error f

def Doc.skipClosing : Closing → Except Flaw Unit
  | .closed => .ok ()
  | .stopped s => .error s.flawSkipped
end

/-- Where a document comes from: a text that is being read, a value that
was read before, the part of a text that was set aside until its kind was
known, or settings, whose lists may be longer than needed. -/
inductive Origin where
  | text
  | value
  | aside
  | settings
deriving DecidableEq, Repr

/-- Reads something out of a document, given the depth still allowed. -/
abbrev Decoder (α : Type) := Origin → Nat → Doc → Except ReadError α

def decode {α : Type} (d : Decoder α) (s : List Char) : Except ReadError α :=
  match scan s with
  | (doc, rest) =>
    match d .text maxDepth doc with
    | .error e => .error e
    | .ok a =>
      match rest with
      | none => .error (.flaw .endInValue)
      | some r =>
        if (skipSpace r).isEmpty then .ok a else .error (.flaw .trailingCharacters)

def decodeValue {α : Type} (d : Decoder α) (v : Json) : Except ReadError α :=
  d .value maxDepth (Doc.ofJson v)

def decodeSettings {α : Type} (d : Decoder α) (v : Json) : Except ReadError α :=
  d .settings maxDepth (Doc.ofJson v)

def any : Decoder Json := fun _ depth doc => doc.value depth

def parse (s : List Char) : Except ReadError Json := decode any s

def parseString (s : String) : Except ReadError Json := parse s.toList

end Cardwalk.Json
