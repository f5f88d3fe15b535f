import Cardwalk.Graph.Validation
import Cardwalk.Run.Event
import Cardwalk.Run.Executor
import Cardwalk.Run.State
/-!
# Walking through a graph

A run begins at the first start card and follows the first connection out
of every card.  It ends at an end card with no way on, where there is
nowhere to go, where a card fails, or where it is cancelled; cancelling is
noticed before a card, never inside one.
-/

set_option autoImplicit false

namespace Cardwalk

structure Runner (σ : Type) where
  context : Context σ
  registry : Registry σ := Registry.builtin
  /-- The pause before each card. -/
  pacing : Duration := .zero
  isCancelled : σ → Bool := fun _ => false
  sleep : Duration → σ → σ := fun _ s => s
  /-- A clock in milliseconds. -/
  clock : σ → Nat := fun _ => 0

structure Progress (σ : Type) where
  world : σ
  book : RunState
  events : List Event

namespace Progress

variable {σ : Type}

def emit (p : Progress σ) (e : Event) : Progress σ := { p with events := p.events ++ [e] }

end Progress

inductive Turn where
  | halt (r : Except RunError Envelope)
  | next (card : Card) (previous : Envelope)

namespace Runner

variable {σ : Type}

def execute (r : Runner σ) (card : Card) (previous : Option Envelope) : Action σ Envelope :=
  fun s =>
    match r.registry card.kind with
    | some executor => executor card previous r.context s
    | none => (.error (.unregistered card.kind), s)

def follow (g : Graph) (card : Card) (output : Envelope) : Turn :=
  match g.outgoing? card.id with
  | none =>
    if card.kind = .finish then .halt (.ok (output.finalResult.getD .empty))
    else .halt (.error (.stranded card.id card.kind card.label))
  | some e =>
    match g.card? e.target with
    | some next => .next next output
    | none => .halt (.error (.dangling e.id e.source e.target))

def settle (card : Card) (turn : Turn) (p : Progress σ) : Progress σ :=
  match turn with
  | .halt (.error (.stranded _ _ _)) => { p with book := p.book.markError card.id }
  | _ => p

def turn (r : Runner σ) (g : Graph) (index : Nat) (card : Card) (previous : Option Envelope)
    (p : Progress σ) : Turn × Progress σ :=
  if r.isCancelled p.world then (.halt (.error (.cancelled card.id)), p)
  else
    let p := p.emit (.cardStart card.id card.kind card.kind.title index)
    let p := { p with book := p.book.markRunning card.id }
    let world := if r.pacing.nanos = 0 then p.world else r.sleep r.pacing p.world
    match r.execute card previous world with
    | (.error cause, world') =>
      let p := { p with world := world', book := p.book.markError card.id }
      (.halt (.error (.executor card.id card.kind card.label cause)),
        p.emit (.cardError card.id cause.message))
    | (.ok output, world') =>
      let ms := r.clock world' - r.clock world
      let p := { p with world := world' }.emit (.cardComplete card.id ms)
      let p := { p with book := p.book.markSuccess ⟨card.id, card.kind, ms, output⟩ }
      let next := follow g card output
      (next, settle card next p)

/-- The cards of a run from one card on, as far as the number of turns
allows; nothing if it does not end within them. -/
def walk (r : Runner σ) (g : Graph) : Nat → Nat → Card → Option Envelope → Progress σ →
    Option (Except RunError Envelope × Progress σ)
  | 0, _, _, _, _ => none
  | turns + 1, index, card, previous, p =>
    match r.turn g index card previous p with
    | (.halt result, p) => some (result, p)
    | (.next card output, p) => walk r g turns (index + 1) card (some output) p

def begin (r : Runner σ) (g : Graph) (turns : Nat) (p : Progress σ) :
    Option (Except RunError Envelope × Progress σ) :=
  if g.cards.isEmpty then some (.error .noCards, p)
  else
    match g.start? with
    | none => some (.error .noStart, p)
    | some start =>
      walk r g turns 1 start none (p.emit (.runStart g.cards.length start.id))

structure Outcome (σ : Type) where
  result : Except RunError Envelope
  progress : Progress σ

def conclude (r : Runner σ) (started : Nat) (result : Except RunError Envelope)
    (p : Progress σ) : Progress σ :=
  let ms := r.clock p.world - started
  match result with
  | .ok _ =>
    { p with book := p.book.finish .completed }.emit
      (.runComplete .completed ms p.book.steps.length)
  | .error e =>
    ({ p with book := p.book.finish e.status }.emit
      (.runError e.stage e.card? e.message)).emit
        (.runComplete e.status ms p.book.steps.length)

/-- A run of a graph; nothing if it does not end within the given number
of turns. -/
def run (r : Runner σ) (g : Graph) (turns : Nat) (world : σ) : Option (Outcome σ) :=
  let p : Progress σ := ⟨world, (RunState.ofGraph g).begin, []⟩
  (begin r g turns p).map fun (result, p) =>
    ⟨result, conclude r (r.clock world) result p⟩

end Runner

end Cardwalk
