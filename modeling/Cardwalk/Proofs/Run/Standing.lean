import Mathlib.Logic.Function.Iterate
import Cardwalk.Proofs.Run.Path

/-!
# Runs turn by turn

A run stands ahead of a card until it has its result, and one turn leads from
one standing to the next. So a run that never ends can be followed as far as
one likes, and every run can be followed from one written mark to the next.
-/

set_option autoImplicit false

namespace Cardwalk

/-- How far a run has come. -/
inductive Standing (σ : Type) where
  | ahead (index : Nat) (card : Card) (previous : Option Envelope) (p : Progress σ)
  | ended (result : Except RunError Envelope) (p : Progress σ)

variable {σ : Type}

namespace Standing

def progress : Standing σ → Progress σ
  | .ahead _ _ _ p => p
  | .ended _ p => p

def result? : Standing σ → Option (Except RunError Envelope × Progress σ)
  | .ahead _ _ _ _ => none
  | .ended result p => some (result, p)

theorem result?_eq_some {s : Standing σ} {result : Except RunError Envelope}
    {p : Progress σ} : s.result? = some (result, p) ↔ s = .ended result p := by
  cases s <;> simp [result?]

end Standing

namespace Runner

def unwritten (g : Graph) (world : σ) : Progress σ := ⟨world, (RunState.ofGraph g).begin, []⟩

def outset (g : Graph) (world : σ) : Standing σ :=
  match g.start? with
  | none => .ended (.error (unstartable g)) (unwritten g world)
  | some start => .ahead 1 start none (departure g start world)

def further (r : Runner σ) (g : Graph) : Standing σ → Standing σ
  | .ahead index card previous p =>
    match r.turn g index card previous p with
    | (.halt result, p) => .ended result p
    | (.next card output, p) => .ahead (index + 1) card (some output) p
  | .ended result p => .ended result p

/-- Where a run stands after so many turns. -/
def standing (r : Runner σ) (g : Graph) (world : σ) (turns : Nat) : Standing σ :=
  (r.further g)^[turns] (outset g world)

section Turns

variable {r : Runner σ} {g : Graph} {world : σ}

theorem outset_start {start : Card} (hs : g.start? = some start) (world : σ) :
    outset g world = .ahead 1 start none (departure g start world) := by
  simp [outset, hs]

theorem outset_none (hs : g.start? = none) (world : σ) :
    outset g world = .ended (.error (unstartable g)) (unwritten g world) := by
  simp [outset, hs]

theorem standing_succ (r : Runner σ) (g : Graph) (world : σ) (turns : Nat) :
    r.standing g world (turns + 1) = r.further g (r.standing g world turns) :=
  Function.iterate_succ_apply' _ _ _

theorem iterate_ended (r : Runner σ) (g : Graph) (result : Except RunError Envelope)
    (p : Progress σ) (turns : Nat) :
    (r.further g)^[turns] (.ended result p) = .ended result p :=
  Function.iterate_fixed rfl turns

theorem standing_ended {turns : Nat} {result : Except RunError Envelope} {p : Progress σ}
    (h : r.standing g world turns = .ended result p) (more : Nat) :
    r.standing g world (turns + more) = .ended result p := by
  rw [Nat.add_comm, standing, Function.iterate_add_apply]
  exact (congrArg _ h).trans (iterate_ended r g result p more)

theorem walk_eq (r : Runner σ) (g : Graph) (turns index : Nat) (c : Card)
    (previous : Option Envelope) (p : Progress σ) :
    walk r g turns index c previous p =
      ((r.further g)^[turns] (.ahead index c previous p)).result? := by
  induction turns generalizing index c previous p with
  | zero => rfl
  | succ turns ih =>
    rw [walk, Function.iterate_succ_apply, further]
    rcases r.turn g index c previous p with ⟨result | ⟨d, output⟩, q⟩
    · simp [iterate_ended, Standing.result?]
    · exact ih (index + 1) d (some output) q

theorem run_eq (r : Runner σ) (g : Graph) (turns : Nat) (world : σ) :
    r.run g turns world = (r.standing g world turns).result?.map fun x =>
      ⟨x.1, r.conclude (r.clock world) x.1 x.2⟩ := by
  cases hs : g.start? with
  | none =>
    rw [run_unstartable hs, standing, outset_none hs, iterate_ended]
    rfl
  | some start =>
    rw [standing, outset_start hs, ← walk_eq]
    simp only [run, begin, cards_ne_nil hs, hs, Bool.false_eq_true, if_false]
    rfl

theorem run_eq_some {turns : Nat} {o : Outcome σ} :
    r.run g turns world = some o ↔ ∃ p, r.standing g world turns = .ended o.result p ∧
      o.progress = r.conclude (r.clock world) o.result p := by
  rw [run_eq]
  constructor
  · intro h
    obtain ⟨⟨result, p⟩, hp, rfl⟩ := Option.map_eq_some_iff.mp h
    exact ⟨p, Standing.result?_eq_some.mp hp, rfl⟩
  · rintro ⟨p, hp, ho⟩
    rw [hp, Standing.result?, Option.map_some, ← ho]

theorem run_eq_none {turns : Nat} :
    r.run g turns world = none ↔
      ∃ index c previous p, r.standing g world turns = .ahead index c previous p := by
  rw [run_eq]
  cases r.standing g world turns <;> simp [Standing.result?]

theorem turn_executed {index : Nat} {c : Card} {previous : Option Envelope} {p : Progress σ}
    (hc : r.isCancelled p.world = false) :
    r.turn g index c previous p =
      match r.execute c previous (r.pause p.world) with
      | (.error cause, s') =>
        (.halt (.error (.executor c.id c.kind c.label cause)), failedAt index c cause s' p)
      | (.ok output, s') =>
        (follow g c output, settle c (follow g c output)
          (r.visited index ⟨c, previous, r.pause p.world, output, s'⟩ p)) := by
  cases hr : r.registry c.kind with
  | none => simp [turn_unregistered hc hr, execute, hr]
  | some executor =>
    rcases he : executor c previous r.context (r.pause p.world) with ⟨cause | output, s'⟩
    · simp [turn_failed hc hr he, execute, hr, he]
    · simp [turn_visited hc hr he, execute, hr, he]

theorem further_cancelled {index : Nat} {c : Card} {previous : Option Envelope}
    {p : Progress σ} (hc : r.isCancelled p.world = true) :
    r.further g (.ahead index c previous p) = .ended (.error (.cancelled c.id)) p := by
  simp [further, turn_cancelled hc]

theorem further_failed {index : Nat} {c : Card} {previous : Option Envelope} {p : Progress σ}
    {cause : ExecutionError} {s' : σ} (hc : r.isCancelled p.world = false)
    (he : r.execute c previous (r.pause p.world) = (.error cause, s')) :
    r.further g (.ahead index c previous p) =
      .ended (.error (.executor c.id c.kind c.label cause)) (failedAt index c cause s' p) := by
  simp [further, turn_executed hc, he]

theorem further_visited {index : Nat} {c : Card} {previous : Option Envelope} {p : Progress σ}
    {output : Envelope} {s' : σ} (hc : r.isCancelled p.world = false)
    (he : r.execute c previous (r.pause p.world) = (.ok output, s')) :
    r.further g (.ahead index c previous p) =
      match follow g c output with
      | .halt result => .ended result (settle c (.halt result)
          (r.visited index ⟨c, previous, r.pause p.world, output, s'⟩ p))
      | .next d given => .ahead (index + 1) d (some given)
          (r.visited index ⟨c, previous, r.pause p.world, output, s'⟩ p) := by
  rw [further, turn_executed hc, he]
  cases hf : follow g c output with
  | halt result => simp only [hf]
  | next d given =>
    simp only [hf]
    rfl

theorem further_progress (r : Runner σ) (g : Graph) (index : Nat) (c : Card)
    (previous : Option Envelope) (p : Progress σ) :
    (r.further g (.ahead index c previous p)).progress = (r.turn g index c previous p).2 := by
  rw [further]
  rcases r.turn g index c previous p with ⟨result | ⟨d, output⟩, q⟩ <;> rfl

theorem further_ahead {index index' : Nat} {c d : Card} {previous given : Option Envelope}
    {p q : Progress σ}
    (h : r.further g (.ahead index c previous p) = .ahead index' d given q) :
    r.isCancelled p.world = false ∧ index' = index + 1 ∧ g.next? c = some d ∧
      ∃ output s', r.execute c previous (r.pause p.world) = (.ok output, s') ∧
        given = some output ∧
        q = r.visited index ⟨c, previous, r.pause p.world, output, s'⟩ p := by
  cases hc : r.isCancelled p.world with
  | true =>
    rw [further_cancelled hc] at h
    cases h
  | false =>
    rcases he : r.execute c previous (r.pause p.world) with ⟨cause | output, s'⟩
    · rw [further_failed hc he] at h
      cases h
    · rw [further_visited hc he] at h
      cases hf : follow g c output with
      | halt result =>
        rw [hf] at h
        cases h
      | next e out =>
        rw [hf] at h
        obtain ⟨rfl, hn⟩ := follow_next hf
        cases h
        exact ⟨rfl, rfl, hn, out, s', rfl, rfl, rfl⟩

end Turns

end Runner

/-- What is written down on the way: an event is told, the book is kept, or
the state outside has changed. -/
inductive Mark (σ : Type) where
  | tell (e : Event)
  | running (id : String)
  | success (step : Step)
  | error (id : String)
  | finish (status : RunStatus)
  | outside (world : σ)

namespace Progress

def write (p : Progress σ) : Mark σ → Progress σ
  | .tell e => p.emit e
  | .running id => { p with book := p.book.markRunning id }
  | .success step => { p with book := p.book.markSuccess step }
  | .error id => { p with book := p.book.markError id }
  | .finish status => { p with book := p.book.finish status }
  | .outside world => { p with world := world }

end Progress

namespace Runner

def strandedMarks (c : Card) : Turn → List (Mark σ)
  | .halt (.error (.stranded _ _ _)) => [.error c.id]
  | _ => []

/-- The marks of one turn, in the order in which they are written. -/
def marks (r : Runner σ) (g : Graph) (index : Nat) (c : Card) (previous : Option Envelope)
    (s : σ) : List (Mark σ) :=
  if r.isCancelled s then []
  else
    .tell (startEvent c index) :: .running c.id :: .outside (r.pause s) ::
      match r.execute c previous (r.pause s) with
      | (.error cause, s') =>
        [.outside s', .error c.id, .tell (.cardError c.id cause.message)]
      | (.ok output, s') =>
        let step := r.stepOf ⟨c, previous, r.pause s, output, s'⟩
        .outside s' :: .tell (.cardComplete c.id step.ms) :: .success step ::
          strandedMarks c (follow g c output)

/-- The marks behind the last turn. -/
def closingMarks (ms : Nat) (steps : Nat) : Except RunError Envelope → List (Mark σ)
  | .ok _ => [.finish .completed, .tell (.runComplete .completed ms steps)]
  | .error e =>
    [.finish e.status, .tell (.runError e.stage e.card? e.message),
      .tell (.runComplete e.status ms steps)]

theorem strandedMarks_cases (c : Card) (t : Turn) :
    strandedMarks (σ := σ) c t = [] ∨ strandedMarks (σ := σ) c t = [.error c.id] := by
  rcases t with (e | e) | ⟨d, given⟩
  · cases e <;> simp [strandedMarks]
  · exact .inl rfl
  · exact .inl rfl

theorem settle_marks (c : Card) (t : Turn) (p : Progress σ) :
    (strandedMarks c t).foldl Progress.write p = settle c t p := by
  rcases t with (e | e) | ⟨d, given⟩
  · cases e <;> rfl
  · rfl
  · rfl

theorem turn_marks (r : Runner σ) (g : Graph) (index : Nat) (c : Card)
    (previous : Option Envelope) (p : Progress σ) :
    (r.turn g index c previous p).2 =
      (r.marks g index c previous p.world).foldl Progress.write p := by
  cases hc : r.isCancelled p.world with
  | true => simp [turn_cancelled hc, marks, hc]
  | false =>
    rw [turn_executed hc, marks, if_neg (by simp [hc])]
    rcases r.execute c previous (r.pause p.world) with ⟨cause | output, s'⟩
    · simp [Progress.write, Progress.emit, failedAt]
    · simp [Progress.write, Progress.emit, visited, settle_marks]

theorem conclude_marks (r : Runner σ) (began : Nat) (result : Except RunError Envelope)
    (p : Progress σ) :
    r.conclude began result p =
      (closingMarks (r.clock p.world - began) p.book.steps.length result).foldl
        Progress.write p := by
  cases result <;> rfl

/-- The points that a run passes through, from one mark to the next. -/
inductive Passes (r : Runner σ) (g : Graph) (world : σ) : Progress σ → Prop
  | unwritten : Passes r g world (unwritten g world)
  | within {turns index : Nat} {c : Card} {previous : Option Envelope} {p : Progress σ}
      {before : List (Mark σ)} (hs : r.standing g world turns = .ahead index c previous p)
      (hb : before <+: r.marks g index c previous p.world) :
      Passes r g world (before.foldl Progress.write p)
  | closing {turns : Nat} {result : Except RunError Envelope} {p : Progress σ}
      {before : List (Mark σ)} (hs : r.standing g world turns = .ended result p)
      (hb : before <+: closingMarks (r.clock p.world - r.clock world) p.book.steps.length
        result) :
      Passes r g world (before.foldl Progress.write p)

end Runner

end Cardwalk
