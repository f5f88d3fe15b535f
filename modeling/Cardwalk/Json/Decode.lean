import Cardwalk.Json.Read
/-!
# Reading records

Decoders for the leaves of a record, and for records themselves.  A record
is written as an object or as the list of its fields.  Fields are read in
the order of the text, so that the first fault of the text is reported.
-/

set_option autoImplicit false

namespace Cardwalk.Json.Decoder

def mismatch {α : Type} (expected : String) (doc : Doc) : Except ReadError α :=
  .error <| match doc with
    | .null => .invalidType .null expected
    | .bool b => .invalidType (.bool b) expected
    | .number (.int i) => .invalidType (.int i) expected
    | .number (.float x) => .invalidType (.float x) expected
    | .hugeNumber => .flaw .numberOutOfRange
    | .string s => .invalidType (.string s) expected
    | .badString f => .flaw f
    | .array _ _ => .invalidType .list expected
    | .object _ _ => .invalidType .object expected
    | .stopped s => .flaw s.flaw
    | .stoppedString f _ => .flaw f

def text : Decoder String
  | _, _, .string s => .ok s
  | _, _, doc => mismatch "a string" doc

def double : Decoder Float
  | _, _, .number n => .ok n.toFloat
  | _, _, doc => mismatch "f64" doc

def single : Decoder Float32
  | _, _, .number (.float x) => .ok x.toFloat32
  | _, _, .number (.int i) => .ok (Float32.ofInt i)
  | _, _, doc => mismatch "f32" doc

def natural (max : Nat) (expected : String) : Decoder Nat
  | _, _, .number (.int i) =>
    if 0 ≤ i ∧ i ≤ max then .ok i.toNat
    else .error (.invalidValue (.int i) expected)
  | _, _, doc => mismatch expected doc

def word : Decoder Nat := natural maxWord "u64"

def size : Decoder Nat := natural maxWord "usize"

def halfWord : Decoder Nat := natural (Decimal.twoTo 32 - 1) "u32"

def nullable {α : Type} (d : Decoder α) : Decoder (Option α)
  | _, _, .null => .ok none
  | origin, depth, doc => (d origin depth doc).map some

def readItems {α : Type} (d : Doc → Except ReadError α) :
    List Doc → Except ReadError (List α)
  | [] => .ok []
  | doc :: rest =>
    match d doc with
    | .ok a => (readItems d rest).map (a :: ·)
    | .error e => .error e

def list {α : Type} (d : Decoder α) : Decoder (List α)
  | .text, 0, .array _ _ => .error (.flaw .tooDeep)
  | origin, depth, .array items closing =>
    match readItems (d origin (depth - 1)) items with
    | .ok as => closing.check.map fun _ => as
    | .error e => .error e
  | _, _, doc => mismatch "a sequence" doc

def members : Decoder Members
  | _, depth, .object ms closing =>
    match Doc.value depth (.object ms closing) with
    | .ok (.object vs) => .ok vs
    | .ok _ => .ok []
    | .error e => .error e
  | _, _, doc => mismatch "a map" doc

def lookup {α : Type} (names : List (String × α)) (name : String) :
    Except ReadError α :=
  match names.find? fun n => n.1 = name with
  | some (_, a) => .ok a
  | none => .error (.unknownVariant name (names.map Prod.fst))

/-- One of several names, as a string or as the only key of an object whose
value is `null`. -/
def oneName {α : Type} (names : List (String × α)) : Decoder α
  | _, _, .string s => lookup names s
  | _, _, .badString f => .error (.flaw f)
  | _, _, .stopped s => .error (.flaw s.flaw)
  | _, _, .stoppedString f _ => .error (.flaw f)
  | .text, 0, .object _ _ => .error (.flaw .tooDeep)
  | .text, _, .object [] closing =>
    match closing with
    | .stopped (.at .endInObject) => .error (.flaw .endInValue)
    | _ => .error (.flaw .expectedValue)
  | .text, _, .object ((.error f, _) :: _) _ => .error (.flaw f)
  | .text, _, .object ((.ok k, doc) :: rest) closing => do
    let a ← lookup names k
    match doc with
    | .null =>
      match rest, closing with
      | [], .closed => .ok a
      | [], .stopped (.at .endInObject) => .error (.flaw .endInObject)
      | _, _ => .error (.flaw .expectedValue)
    | doc => mismatch "unit" doc
  | .text, _, _ => .error (.flaw .expectedValue)
  | origin, _, .object [(.ok k, doc)] .closed => do
    let a ← lookup names k
    match origin, doc with
    | _, .null => .ok a
    | .aside, .object [] _ => .ok a
    | _, doc => mismatch "unit" doc
  | _, _, .object _ _ =>
    .error (.invalidValue .object "map with a single key")
  | _, _, doc => mismatch "string or map" doc

inductive Absent where
  | required
  /-- May be missing in an object, not in a list. -/
  | nothing
  | default
deriving DecidableEq, Repr

/-- A field of a record: its key and how it is read into the record. -/
structure Slot (ρ : Type) where
  key : String
  absent : Absent
  read : Origin → Nat → Doc → Except ReadError (ρ → ρ)

def slot {ρ α : Type} (key : String) (absent : Absent) (d : Decoder α)
    (put : α → ρ → ρ) : Slot ρ :=
  { key, absent, read := fun origin depth doc => (d origin depth doc).map put }

/-- A kind of record.  The blank record has the defaults in it. -/
structure RecordKind (ρ : Type) where
  title : String
  blank : ρ
  slots : List (Slot ρ)
  /-- No other keys are allowed. -/
  sealed : Bool

namespace RecordKind

variable {ρ : Type}

def lengthText (kind : RecordKind ρ) : String :=
  kind.title ++ " with " ++ String.ofList (Decimal.natDigits kind.slots.length)
    ++ (if kind.slots.length = 1 then " element" else " elements")

def missing (kind : RecordKind ρ) (seen : List String) : Option String :=
  (kind.slots.find? fun s => s.absent = .required && !seen.contains s.key).map (·.key)

def readMembers (kind : RecordKind ρ) (origin : Origin) (depth : Nat) :
    List (Except Flaw String × Doc) → List String → ρ →
      Except ReadError (List String × ρ)
  | [], seen, record => .ok (seen, record)
  | (.error f, _) :: _, _, _ => .error (.flaw f)
  | (.ok k, doc) :: rest, seen, record =>
    match kind.slots.find? fun s => s.key = k with
    | some s =>
      if seen.contains k then .error (.duplicateField k)
      else
        match s.read origin depth doc with
        | .ok put => readMembers kind origin depth rest (k :: seen) (put record)
        | .error e => .error e
    | none =>
      if kind.sealed then .error (.unknownField k (kind.slots.map (·.key)))
      else
        match doc.skip with
        | .ok _ => readMembers kind origin depth rest seen record
        | .error f => .error (.flaw f)

/-- What stands behind the last field that was read from a list. -/
def readSurplus (origin : Origin) (count : Nat) (closing : Closing) :
    List Doc → Except ReadError Unit
  | [] =>
    match closing with
    | .closed => .ok ()
    | .stopped s => .error (.flaw s.flawAtEnd)
  | rest =>
    match origin with
    | .text => .error (.flaw .trailingCharacters)
    | .settings => .ok ()
    | .value =>
      .error (.invalidLength (count + rest.length) "fewer elements in array")
    | .aside =>
      .error (.invalidLength (count + rest.length)
        (String.ofList (Decimal.natDigits count)
          ++ (if count = 1 then " element in sequence" else " elements in sequence")))

def readList (kind : RecordKind ρ) (origin : Origin) (depth : Nat) (closing : Closing) :
    List (Slot ρ) → Nat → List Doc → ρ → Except ReadError ρ
  | [], count, docs, record =>
    (readSurplus origin count closing docs).map fun _ => record
  | s :: slots, count, doc :: docs, record =>
    match s.read origin depth doc with
    | .ok put => readList kind origin depth closing slots (count + 1) docs (put record)
    | .error e => .error e
  | s :: slots, count, [], record =>
    match closing with
    | .stopped stop => .error (.flaw stop.flaw)
    | .closed =>
      if s.absent = .default then readList kind origin depth closing slots count [] record
      else .error (.invalidLength (kind.slots.length - (slots.length + 1)) kind.lengthText)

def readObject (kind : RecordKind ρ) (origin : Origin) (depth : Nat)
    (ms : List (Except Flaw String × Doc)) (closing : Closing) : Except ReadError ρ :=
  match kind.readMembers origin depth ms [] kind.blank with
  | .error e => .error e
  | .ok (seen, record) =>
    match closing.check with
    | .error e => .error e
    | .ok _ =>
      match kind.missing seen with
      | some key => .error (.missingField key)
      | none => .ok record

def decoder (kind : RecordKind ρ) : Decoder ρ
  | .text, 0, .array _ _ => .error (.flaw .tooDeep)
  | .text, 0, .object _ _ => .error (.flaw .tooDeep)
  | origin, depth, .object ms closing => kind.readObject origin (depth - 1) ms closing
  | origin, depth, .array docs closing =>
    kind.readList origin (depth - 1) closing kind.slots 0 docs kind.blank
  | _, _, doc => mismatch kind.title doc

end RecordKind

/-- Picks the member that names the kind of a record; every other value is
read and set aside. -/
def splitTag {α : Type} (tag : String) (names : List (String × α)) (depth : Nat) :
    List (Except Flaw String × Doc) → Option α → List (Except Flaw String × Doc) →
      Except ReadError (Option α × List (Except Flaw String × Doc))
  | [], found, aside => .ok (found, aside.reverse)
  | (.error f, _) :: _, _, _ => .error (.flaw f)
  | (.ok k, doc) :: rest, found, aside =>
    if k = tag then
      if found.isSome then .error (.duplicateField tag)
      else
        match doc with
        | .string s =>
          match lookup names s with
          | .ok a => splitTag tag names depth rest (some a) aside
          | .error e => .error e
        | doc => mismatch "variant identifier" doc
    else
      match doc.value depth with
      | .ok _ => splitTag tag names depth rest found ((.ok k, doc) :: aside)
      | .error e => .error e

/-- A record whose kind is named by one of its members, or by the first
item of its list form. -/
def tagged {ρ α : Type} (title tag : String)
    (kinds : List (String × RecordKind ρ × (ρ → α))) : Decoder α
  | .text, 0, .array _ _ => .error (.flaw .tooDeep)
  | .text, 0, .object _ _ => .error (.flaw .tooDeep)
  | _, depth, .object ms closing =>
    match splitTag tag kinds (depth - 1) ms none [] with
    | .error e => .error e
    | .ok (found, aside) =>
      match closing.check with
      | .error e => .error e
      | .ok _ =>
        match found with
        | none => .error (.missingField tag)
        | some (kind, make) =>
          (kind.readObject .aside (depth - 1) aside .closed).map make
  | _, _, .array [] closing =>
    match closing with
    | .closed => .error (.missingField tag)
    | .stopped s => .error (.flaw s.flaw)
  | _, depth, .array (doc :: docs) closing =>
    match doc with
    | .string s =>
      match lookup kinds s with
      | .error e => .error e
      | .ok (kind, make) =>
        match Doc.values (depth - 1) docs, closing.check with
        | .error e, _ => .error e
        | .ok _, .error e => .error e
        | .ok _, .ok _ =>
          (kind.readList .aside (depth - 1) .closed kind.slots 0 docs kind.blank).map make
    | doc => mismatch "variant identifier" doc
  | _, _, doc => mismatch title doc

end Cardwalk.Json.Decoder
