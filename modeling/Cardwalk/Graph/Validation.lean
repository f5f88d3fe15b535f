import Cardwalk.Graph.Basic
/-!
# Checking a graph

A graph is checked without being run.  What would stop a run or cannot be
drawn on the canvas is an error; what is only of no use is a warning.
-/

set_option autoImplicit false

namespace Cardwalk

namespace Graph

inductive Problem where
  | noCards
  | duplicateCard (id : String)
  | noStart
  | loop (connection card : String)
  | unknownSource (connection card : String)
  | outputPort (connection : String) (port : Nat) (label : String) (ports : Nat)
  | unknownTarget (connection card : String)
  | inputPort (connection : String) (port : Nat) (label : String) (ports : Nat)
deriving DecidableEq, Repr

inductive Warning where
  | manyStarts (count : Nat) (first : String)
  | noEnd
  | manyOutgoing (card : String)
deriving DecidableEq, Repr

structure Report where
  errors : List Problem
  warnings : List Warning
deriving DecidableEq, Repr

private def digits (n : Nat) : String := String.ofList (Decimal.natDigits n)

def Problem.message : Problem → String
  | .noCards => "graph has no cards"
  | .duplicateCard id => "duplicate card id: " ++ id
  | .noStart => "graph needs a start card"
  | .loop connection card =>
    "connection '" ++ connection ++ "' connects card '" ++ card ++ "' to itself"
  | .unknownSource connection card =>
    "connection '" ++ connection ++ "' starts at unknown card '" ++ card ++ "'"
  | .outputPort connection port label ports =>
    "connection '" ++ connection ++ "' uses output port " ++ digits port ++ " of " ++ label
      ++ ", which has " ++ digits ports ++ " output(s)"
  | .unknownTarget connection card =>
    "connection '" ++ connection ++ "' ends at unknown card '" ++ card ++ "'"
  | .inputPort connection port label ports =>
    "connection '" ++ connection ++ "' uses input port " ++ digits port ++ " of " ++ label
      ++ ", which has " ++ digits ports ++ " input(s)"

def Warning.message : Warning → String
  | .manyStarts count first =>
    "graph has " ++ digits count ++ " start cards; runs begin at the first (" ++ first ++ ")"
  | .noEnd => "graph has no end card; runs cannot complete"
  | .manyOutgoing card =>
    "card '" ++ card ++ "' has more than one outgoing connection; only the first is followed"

def Report.isValid (r : Report) : Bool := r.errors.isEmpty

/-- The elements that stand in the list already, once for each time they
are repeated. -/
def repeated : List String → List String → List String
  | _, [] => []
  | seen, x :: rest =>
    if seen.contains x then x :: repeated seen rest else repeated (x :: seen) rest

def startErrors (g : Graph) : List Problem :=
  if g.startCards.isEmpty then [.noStart] else []

def startWarnings (g : Graph) : List Warning :=
  match g.startCards with
  | first :: _ :: rest => [.manyStarts (rest.length + 2) first.id]
  | _ => []

def endWarnings (g : Graph) : List Warning :=
  if g.cards.any fun c => c.kind = .finish then [] else [.noEnd]

def sourceErrors (g : Graph) (e : Connection) : List Problem :=
  match g.card? e.source with
  | none => [.unknownSource e.id e.source]
  | some c =>
    if c.kind.outputs ≤ e.sourcePort then
      [.outputPort e.id e.sourcePort c.label c.kind.outputs]
    else []

def targetErrors (g : Graph) (e : Connection) : List Problem :=
  match g.card? e.target with
  | none => [.unknownTarget e.id e.target]
  | some c =>
    if c.kind.inputs ≤ e.targetPort then
      [.inputPort e.id e.targetPort c.label c.kind.inputs]
    else []

def connectionErrors (g : Graph) (e : Connection) : List Problem :=
  (if e.isLoop then [.loop e.id e.source] else []) ++ g.sourceErrors e ++ g.targetErrors e

/-- The report on a graph.  A graph without cards has no other problem. -/
def validate (g : Graph) : Report :=
  if g.cards.isEmpty then ⟨[.noCards], []⟩
  else
    { errors := (repeated [] (g.cards.map (·.id))).map .duplicateCard
        ++ g.startErrors ++ g.connections.flatMap g.connectionErrors
      warnings := g.startWarnings ++ g.endWarnings
        ++ (repeated [] (g.connections.map (·.source))).map .manyOutgoing }

end Graph

end Cardwalk
