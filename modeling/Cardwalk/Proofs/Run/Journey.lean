import Cardwalk.Run.Walk

/-!
# Journeys

A journey is a run told card by card: the cards that were carried out, with
what each was given and what it gave, and how it came to stop. Every walk
that ends is a journey, and the events and the book of the walk are those of
its visits.
-/

set_option autoImplicit false

namespace Cardwalk

/-- A card that was carried out, between the states outside around it. -/
structure Visit (σ : Type) where
  card : Card
  previous : Option Envelope
  before : σ
  output : Envelope
  after : σ

structure Attempt (σ : Type) where
  card : Card
  previous : Option Envelope
  before : σ
  result : Except ExecutionError Envelope
  after : σ

/-- How a journey stops: before a card, at a card that fails, or behind the
last card. -/
inductive Stop (σ : Type) where
  | cancelled (card : Card)
  | unregistered (card : Card)
  | failed (card : Card) (previous : Option Envelope) (before : σ) (cause : ExecutionError)
      (after : σ)
  | halted (result : Except RunError Envelope)

variable {σ : Type}

def Visit.attempt (v : Visit σ) : Attempt σ :=
  ⟨v.card, v.previous, v.before, .ok v.output, v.after⟩

namespace Stop

def result : Stop σ → Except RunError Envelope
  | .cancelled c => .error (.cancelled c.id)
  | .unregistered c => .error (.executor c.id c.kind c.label (.unregistered c.kind))
  | .failed c _ _ cause _ => .error (.executor c.id c.kind c.label cause)
  | .halted result => result

def attempts : Stop σ → List (Attempt σ)
  | .failed c previous before cause after => [⟨c, previous, before, .error cause, after⟩]
  | _ => []

end Stop

namespace Runner

def pause (r : Runner σ) (s : σ) : σ := if r.pacing.nanos = 0 then s else r.sleep r.pacing s

inductive Journey (r : Runner σ) (g : Graph) :
    Card → Option Envelope → σ → List (Visit σ) → Stop σ → σ → Prop
  | cancelled {c : Card} {previous : Option Envelope} {s : σ} (hc : r.isCancelled s = true) :
      Journey r g c previous s [] (.cancelled c) s
  | unregistered {c : Card} {previous : Option Envelope} {s : σ}
      (hc : r.isCancelled s = false) (hr : r.registry c.kind = none) :
      Journey r g c previous s [] (.unregistered c) (r.pause s)
  | failed {c : Card} {previous : Option Envelope} {s s' : σ} {executor : Executor σ}
      {cause : ExecutionError} (hc : r.isCancelled s = false)
      (hr : r.registry c.kind = some executor)
      (he : executor c previous r.context (r.pause s) = (.error cause, s')) :
      Journey r g c previous s [] (.failed c previous (r.pause s) cause s') s'
  | halted {c : Card} {previous : Option Envelope} {s s' : σ} {executor : Executor σ}
      {output : Envelope} {result : Except RunError Envelope} (hc : r.isCancelled s = false)
      (hr : r.registry c.kind = some executor)
      (he : executor c previous r.context (r.pause s) = (.ok output, s'))
      (hf : follow g c output = .halt result) :
      Journey r g c previous s [⟨c, previous, r.pause s, output, s'⟩] (.halted result) s'
  | onward {c d : Card} {previous : Option Envelope} {s s' s'' : σ} {executor : Executor σ}
      {output : Envelope} {visits : List (Visit σ)} {stop : Stop σ}
      (hc : r.isCancelled s = false) (hr : r.registry c.kind = some executor)
      (he : executor c previous r.context (r.pause s) = (.ok output, s'))
      (hf : follow g c output = .next d output)
      (rest : Journey r g d (some output) s' visits stop s'') :
      Journey r g c previous s (⟨c, previous, r.pause s, output, s'⟩ :: visits) stop s''

def stepOf (r : Runner σ) (v : Visit σ) : Step :=
  ⟨v.card.id, v.card.kind, r.clock v.after - r.clock v.before, v.output⟩

def startEvent (c : Card) (index : Nat) : Event := .cardStart c.id c.kind c.kind.title index

def visited (r : Runner σ) (index : Nat) (v : Visit σ) (p : Progress σ) : Progress σ :=
  { world := v.after
    book := (p.book.markRunning v.card.id).markSuccess (r.stepOf v)
    events := p.events ++ [startEvent v.card index, .cardComplete v.card.id (r.stepOf v).ms] }

def visitedAll (r : Runner σ) : Nat → List (Visit σ) → Progress σ → Progress σ
  | _, [], p => p
  | index, v :: vs, p => visitedAll r (index + 1) vs (r.visited index v p)

def failedAt (index : Nat) (c : Card) (cause : ExecutionError) (world : σ) (p : Progress σ) :
    Progress σ :=
  { world
    book := (p.book.markRunning c.id).markError c.id
    events := p.events ++ [startEvent c index, .cardError c.id cause.message] }

def stopped (r : Runner σ) (index : Nat) (stop : Stop σ) (p : Progress σ) : Progress σ :=
  match stop with
  | .unregistered c => failedAt index c (.unregistered c.kind) (r.pause p.world) p
  | .failed c _ _ cause after => failedAt index c cause after p
  | .halted (.error (.stranded id _ _)) => { p with book := p.book.markError id }
  | _ => p

section Turn

variable {r : Runner σ} {g : Graph} {index : Nat} {c : Card} {previous : Option Envelope}
  {p : Progress σ}

theorem turn_cancelled (hc : r.isCancelled p.world = true) :
    r.turn g index c previous p = (.halt (.error (.cancelled c.id)), p) := by
  simp [turn, hc]

theorem turn_unregistered (hc : r.isCancelled p.world = false)
    (hr : r.registry c.kind = none) :
    r.turn g index c previous p =
      (.halt (.error (.executor c.id c.kind c.label (.unregistered c.kind))),
        failedAt index c (.unregistered c.kind) (r.pause p.world) p) := by
  simp [turn, hc, execute, hr, failedAt, pause, Progress.emit, startEvent]

theorem turn_failed {executor : Executor σ} {cause : ExecutionError} {s' : σ}
    (hc : r.isCancelled p.world = false) (hr : r.registry c.kind = some executor)
    (he : executor c previous r.context (r.pause p.world) = (.error cause, s')) :
    r.turn g index c previous p =
      (.halt (.error (.executor c.id c.kind c.label cause)), failedAt index c cause s' p) := by
  unfold pause at he
  simp [turn, hc, execute, hr, he, failedAt, Progress.emit, startEvent]

theorem turn_visited {executor : Executor σ} {output : Envelope} {s' : σ}
    (hc : r.isCancelled p.world = false) (hr : r.registry c.kind = some executor)
    (he : executor c previous r.context (r.pause p.world) = (.ok output, s')) :
    r.turn g index c previous p =
      (follow g c output, settle c (follow g c output)
        (r.visited index ⟨c, previous, r.pause p.world, output, s'⟩ p)) := by
  unfold pause at he
  simp [turn, hc, execute, hr, he, visited, stepOf, pause, Progress.emit, startEvent]

end Turn

theorem settle_halt {g : Graph} {c : Card} {output : Envelope}
    {result : Except RunError Envelope} (hf : follow g c output = .halt result)
    (r : Runner σ) (index : Nat) (p : Progress σ) :
    settle c (.halt result) p = r.stopped index (.halted result) p := by
  unfold follow at hf
  split at hf
  · split at hf <;> cases hf <;> rfl
  · split at hf <;> cases hf
    rfl

theorem visitedAll_steps (r : Runner σ) (index : Nat) (visits : List (Visit σ))
    (p : Progress σ) :
    (r.visitedAll index visits p).book.steps = p.book.steps ++ visits.map r.stepOf := by
  induction visits generalizing index p with
  | nil => simp [visitedAll]
  | cons v vs ih =>
    rw [visitedAll, ih]
    simp [visited, RunState.markSuccess, RunState.markRunning]

theorem stopped_steps (r : Runner σ) (index : Nat) (stop : Stop σ) (p : Progress σ) :
    (r.stopped index stop p).book.steps = p.book.steps := by
  cases stop with
  | cancelled | unregistered | failed => rfl
  | halted result =>
    cases result with
    | ok e => rfl
    | error e => cases e <;> rfl

theorem stopped_halted_world (r : Runner σ) (index : Nat) (result : Except RunError Envelope)
    (p : Progress σ) : (r.stopped index (.halted result) p).world = p.world := by
  cases result with
  | ok e => rfl
  | error e => cases e <;> rfl

theorem follow_next {g : Graph} {c d : Card} {output given : Envelope}
    (hf : follow g c output = .next d given) : given = output ∧ g.next? c = some d := by
  unfold follow at hf
  split at hf
  · split at hf <;> cases hf
  · rename_i e he
    split at hf
    · rename_i next hn
      cases hf
      exact ⟨rfl, by simp [Graph.next?, he, hn]⟩
    · cases hf

end Runner

/-- The turns that a stop takes besides those of the visits. -/
def Stop.turns : Stop σ → Nat
  | .halted _ => 0
  | _ => 1

namespace Runner

/-- A walk that ends is a journey, and it leaves what its visits leave. -/
theorem walk_journey {r : Runner σ} {g : Graph} {turns index : Nat} {c : Card}
    {previous : Option Envelope} {p p' : Progress σ} {result : Except RunError Envelope}
    (h : walk r g turns index c previous p = some (result, p')) :
    ∃ visits stop, Journey r g c previous p.world visits stop p'.world ∧
      visits.length + stop.turns ≤ turns ∧ result = stop.result ∧
      p' = r.stopped (index + visits.length) stop (r.visitedAll index visits p) := by
  -- The turns are only a bound; the ways out of a turn are those of a journey.
  induction turns generalizing index c previous p with
  | zero => simp [walk] at h
  | succ turns ih =>
    rw [walk] at h
    cases hc : r.isCancelled p.world with
    | true =>
      simp only [turn_cancelled hc, Option.some.injEq, Prod.mk.injEq] at h
      obtain ⟨rfl, rfl⟩ := h
      exact ⟨[], .cancelled c, .cancelled hc, by simp [Stop.turns], rfl, rfl⟩
    | false =>
      cases hr : r.registry c.kind with
      | none =>
        simp only [turn_unregistered hc hr, Option.some.injEq, Prod.mk.injEq] at h
        obtain ⟨rfl, rfl⟩ := h
        exact ⟨[], .unregistered c, .unregistered hc hr, by simp [Stop.turns], rfl, rfl⟩
      | some executor =>
        rcases he : executor c previous r.context (r.pause p.world) with ⟨answer, s'⟩
        cases answer with
        | error cause =>
          simp only [turn_failed hc hr he, Option.some.injEq, Prod.mk.injEq] at h
          obtain ⟨rfl, rfl⟩ := h
          exact ⟨[], .failed c previous (r.pause p.world) cause s', .failed hc hr he,
            by simp [Stop.turns], rfl, rfl⟩
        | ok output =>
          rw [turn_visited hc hr he] at h
          cases hf : follow g c output with
          | halt outcome =>
            simp only [hf, Option.some.injEq, Prod.mk.injEq] at h
            obtain ⟨rfl, rfl⟩ := h
            rw [settle_halt hf r (index + 1)]
            refine ⟨[⟨c, previous, r.pause p.world, output, s'⟩], .halted outcome, ?_,
              by simp [Stop.turns], rfl, rfl⟩
            rw [stopped_halted_world]
            exact .halted hc hr he hf
          | next d given =>
            obtain ⟨rfl, -⟩ := follow_next hf
            simp only [hf, settle] at h
            obtain ⟨visits, stop, hj, hl, hres, hp⟩ := ih h
            refine ⟨⟨c, previous, r.pause p.world, given, s'⟩ :: visits, stop,
              .onward hc hr he hf hj, ?_, hres, ?_⟩
            · simp only [List.length_cons]; omega
            · rw [hp, List.length_cons, visitedAll, show index + 1 + visits.length =
                index + (visits.length + 1) by omega]

theorem Journey.walk {r : Runner σ} {g : Graph} {c : Card} {previous : Option Envelope}
    {s s' : σ} {visits : List (Visit σ)} {stop : Stop σ}
    (h : Journey r g c previous s visits stop s') (turns index : Nat) (p : Progress σ)
    (hp : p.world = s) (ht : visits.length + stop.turns ≤ turns) :
    Runner.walk r g turns index c previous p = some (stop.result,
      r.stopped (index + visits.length) stop (r.visitedAll index visits p)) := by
  induction h generalizing turns index p with
  | cancelled hc =>
    subst hp
    cases turns with
    | zero => simp [Stop.turns] at ht
    | succ k => simp only [Runner.walk, turn_cancelled hc]; rfl
  | unregistered hc hr =>
    subst hp
    cases turns with
    | zero => simp [Stop.turns] at ht
    | succ k => simp only [Runner.walk, turn_unregistered hc hr]; rfl
  | failed hc hr he =>
    subst hp
    cases turns with
    | zero => simp [Stop.turns] at ht
    | succ k => simp only [Runner.walk, turn_failed hc hr he]; rfl
  | halted hc hr he hf =>
    subst hp
    cases turns with
    | zero => simp at ht
    | succ k =>
      simp only [Runner.walk, turn_visited hc hr he, hf, settle_halt hf r (index + 1)]
      rfl
  | onward hc hr he hf rest ih =>
    subst hp
    cases turns with
    | zero => simp at ht
    | succ k =>
      simp only [Runner.walk, turn_visited hc hr he, hf, settle]
      rw [ih k (index + 1) _ rfl (by simp only [List.length_cons] at ht; omega)]
      simp only [List.length_cons, visitedAll, Nat.add_right_comm, ← Nat.add_assoc]

def departure (g : Graph) (start : Card) (world : σ) : Progress σ :=
  Progress.emit ⟨world, (RunState.ofGraph g).begin, []⟩ (.runStart g.cards.length start.id)

/-- All that a journey leaves, from the first event of the run to the last. -/
def travelled (r : Runner σ) (g : Graph) (start : Card) (world : σ) (visits : List (Visit σ))
    (stop : Stop σ) : Progress σ :=
  r.conclude (r.clock world) stop.result
    (r.stopped (1 + visits.length) stop (r.visitedAll 1 visits (departure g start world)))

theorem conclude_world (r : Runner σ) (started : Nat) (result : Except RunError Envelope)
    (p : Progress σ) : (r.conclude started result p).world = p.world := by
  cases result <;> rfl

theorem conclude_steps (r : Runner σ) (started : Nat) (result : Except RunError Envelope)
    (p : Progress σ) : (r.conclude started result p).book.steps = p.book.steps := by
  cases result <;> rfl

theorem travelled_steps (r : Runner σ) (g : Graph) (start : Card) (world : σ)
    (visits : List (Visit σ)) (stop : Stop σ) :
    (r.travelled g start world visits stop).book.steps = visits.map r.stepOf := by
  rw [travelled, conclude_steps, stopped_steps, visitedAll_steps]
  rfl

theorem cards_ne_nil {g : Graph} {start : Card} (hs : g.start? = some start) :
    g.cards.isEmpty = false := by
  cases hg : g.cards with
  | nil => simp [Graph.start?, hg] at hs
  | cons c cs => rfl

theorem Journey.run {r : Runner σ} {g : Graph} {start : Card} {world s' : σ}
    {visits : List (Visit σ)} {stop : Stop σ} (hs : g.start? = some start)
    (h : Journey r g start none world visits stop s') (turns : Nat)
    (ht : visits.length + stop.turns ≤ turns) :
    Runner.run r g turns world =
      some ⟨stop.result, r.travelled g start world visits stop⟩ := by
  simp only [Runner.run, begin, cards_ne_nil hs, hs]
  rw [if_neg (by simp), h.walk turns 1 _ rfl ht]
  rfl

def unstartable (g : Graph) : RunError := if g.cards.isEmpty then .noCards else .noStart

theorem unstartable_configuration (g : Graph) : ∃ m, unstartable g = .configuration m := by
  unfold unstartable
  split <;> exact ⟨_, rfl⟩

theorem run_unstartable {r : Runner σ} {g : Graph} (hs : g.start? = none) (turns : Nat)
    (world : σ) :
    Runner.run r g turns world = some ⟨.error (unstartable g),
      r.conclude (r.clock world) (.error (unstartable g))
        ⟨world, (RunState.ofGraph g).begin, []⟩⟩ := by
  unfold Runner.run begin unstartable
  split
  · rfl
  · rw [hs]
    rfl

theorem run_journey {r : Runner σ} {g : Graph} {turns : Nat} {world : σ} {o : Outcome σ}
    {start : Card} (hs : g.start? = some start) (h : Runner.run r g turns world = some o) :
    ∃ visits stop, Journey r g start none world visits stop o.progress.world ∧
      visits.length + stop.turns ≤ turns ∧
      o = ⟨stop.result, r.travelled g start world visits stop⟩ := by
  simp only [Runner.run, begin, cards_ne_nil hs, hs, Bool.false_eq_true, if_false,
    Option.map_eq_some_iff] at h
  obtain ⟨⟨result, p⟩, hw, rfl⟩ := h
  obtain ⟨visits, stop, hj, hl, rfl, rfl⟩ := walk_journey hw
  exact ⟨visits, stop, by rw [conclude_world]; exact hj, hl, rfl⟩

theorem run_more_turns {r : Runner σ} {g : Graph} {turns turns' : Nat} {world : σ}
    {o : Outcome σ} (h : Runner.run r g turns world = some o) (ht : turns ≤ turns') :
    Runner.run r g turns' world = some o := by
  cases hs : g.start? with
  | none => rw [← h, run_unstartable hs, run_unstartable hs]
  | some start =>
    obtain ⟨visits, stop, hj, hl, rfl⟩ := run_journey hs h
    exact hj.run hs turns' (by omega)

end Runner

end Cardwalk
