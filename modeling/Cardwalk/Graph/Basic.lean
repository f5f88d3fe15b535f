import Cardwalk.Card
/-!
# Graphs

A graph is a list of cards and a list of connections.  Identifiers may be
repeated and connections may lead nowhere; every question about a graph is
answered by the first card or connection that fits.
-/

set_option autoImplicit false

namespace Cardwalk

structure Connection where
  id : String
  source : String
  sourcePort : Nat
  target : String
  targetPort : Nat
deriving DecidableEq, Repr, Inhabited

structure Graph where
  cards : List Card
  connections : List Connection
deriving Repr, Inhabited

namespace Connection

def new (id source target : String) : Connection := ⟨id, source, 0, target, 0⟩

def isLoop (c : Connection) : Bool := c.source == c.target

def toJson (c : Connection) : Json :=
  .object [("id", .string c.id), ("startCardId", .string c.source),
    ("startPortIndex", .ofNat c.sourcePort), ("endCardId", .string c.target),
    ("endPortIndex", .ofNat c.targetPort)]

def recordKind : Json.Decoder.RecordKind Connection :=
  { title := "struct Connection"
    blank := ⟨"", "", 0, "", 0⟩
    sealed := false
    slots :=
      [Json.Decoder.slot "id" .required Json.Decoder.text fun v c => { c with id := v },
       Json.Decoder.slot "startCardId" .required Json.Decoder.text fun v c => { c with source := v },
       Json.Decoder.slot "startPortIndex" .default Json.Decoder.size fun v c => { c with sourcePort := v },
       Json.Decoder.slot "endCardId" .required Json.Decoder.text fun v c => { c with target := v },
       Json.Decoder.slot "endPortIndex" .default Json.Decoder.size fun v c => { c with targetPort := v }] }

def decoder : Json.Decoder Connection := recordKind.decoder

end Connection

namespace Graph

def empty : Graph := ⟨[], []⟩

def card? (g : Graph) (id : String) : Option Card := g.cards.find? fun c => c.id = id

def startCards (g : Graph) : List Card := g.cards.filter fun c => c.kind = .start

def start? (g : Graph) : Option Card := g.cards.find? fun c => c.kind = .start

def outgoing? (g : Graph) (id : String) : Option Connection :=
  g.connections.find? fun c => c.source = id

def next? (g : Graph) (c : Card) : Option Card :=
  (g.outgoing? c.id).bind fun e => g.card? e.target

/-- The cards that a run comes to, as far as `n` steps. -/
def pathFrom (g : Graph) : Nat → Card → List Card
  | 0, c => [c]
  | n + 1, c =>
    match g.next? c with
    | some d => c :: g.pathFrom n d
    | none => [c]

def addCard (g : Graph) (c : Card) : Graph := { g with cards := g.cards ++ [c] }

def connect (g : Graph) (source target : String) : Graph :=
  let id := "conn_" ++ String.ofList (Decimal.natDigits (g.connections.length + 1))
  { g with connections := g.connections ++ [.new id source target] }

def normalize (g : Graph) : Graph := { g with cards := g.cards.map Card.fillDefaults }

def toJson (g : Graph) : Json :=
  .object [("cards", .array (g.cards.map Card.toJson)),
    ("connections", .array (g.connections.map Connection.toJson))]

def recordKind : Json.Decoder.RecordKind Graph :=
  { title := "struct Graph"
    blank := empty
    sealed := false
    slots :=
      [Json.Decoder.slot "cards" .default (Json.Decoder.list Card.decoder) fun v g => { g with cards := v },
       Json.Decoder.slot "connections" .default (Json.Decoder.list Connection.decoder)
        fun v g => { g with connections := v }] }

def decoder : Json.Decoder Graph := recordKind.decoder

def ofText (s : String) : Except Json.ReadError Graph :=
  (Json.decode decoder s.toList).map normalize

theorem start?_eq_head? (g : Graph) : g.start? = g.startCards.head? := by
  simp [start?, startCards, List.head?_filter]

theorem pathFrom_head (g : Graph) (n : Nat) (c : Card) :
    (g.pathFrom n c).head? = some c := by
  cases n with
  | zero => rfl
  | succ n =>
    unfold pathFrom
    split <;> rfl

end Graph

end Cardwalk
