import Cardwalk.Proofs.Run.Calls
import Cardwalk.Proofs.Run.Journey

/-!
# Records of runs

The executors of a run may write down their calls. A run whose executors do
takes the same journey, and the record is the calls of that journey in their
order.
-/

set_option autoImplicit false

namespace Cardwalk

theorem noting_eq {σ α τ : Type} {act : σ → α × σ} {note : σ → α × σ → List τ} {s s' : σ}
    {a : α} (h : act s = (a, s')) (log : List τ) :
    noting act note (s, log) = (a, s', log ++ note s (a, s')) := by
  simp [noting, h]

variable {σ : Type}

def Services.beside (τ : Type) (c : Services σ) : Services (σ × List τ) where
  complete prompt model := noting (c.complete prompt model) fun _ _ => []
  retrieve query count := noting (c.retrieve query count) fun _ _ => []
  callTool name args := noting (c.callTool name args) fun _ _ => []

namespace Runner

/-- The same runner with executors that write down their calls. -/
def recorded (r : Runner σ) : Runner (σ × List (Attempt σ)) where
  context := { r.context.toServices.beside (Attempt σ) with
    clauses := r.context.clauses, model := r.context.model }
  registry k := (r.registry k).map fun executor c previous _ =>
    noting (executor c previous r.context) fun s a => [⟨c, previous, s, a.1, a.2⟩]
  pacing := r.pacing
  isCancelled w := r.isCancelled w.1
  sleep d w := (r.sleep d w.1, w.2)
  clock w := r.clock w.1

theorem recorded_pause (r : Runner σ) (s : σ) (log : List (Attempt σ)) :
    r.recorded.pause (s, log) = (r.pause s, log) := by
  unfold pause recorded
  split <;> rfl

theorem recorded_none {r : Runner σ} {k : CardKind} (h : r.registry k = none) :
    r.recorded.registry k = none := by
  simp [recorded, h]

theorem recorded_some {r : Runner σ} {k : CardKind} {executor : Executor σ}
    (h : r.registry k = some executor) :
    r.recorded.registry k = some fun c previous _ =>
      noting (executor c previous r.context) fun s a => [⟨c, previous, s, a.1, a.2⟩] := by
  simp [recorded, h]

end Runner

def Visit.beside (log : List (Attempt σ)) (v : Visit σ) : Visit (σ × List (Attempt σ)) :=
  ⟨v.card, v.previous, (v.before, log), v.output, (v.after, log ++ [v.attempt])⟩

def Visit.besideAll : List (Attempt σ) → List (Visit σ) → List (Visit (σ × List (Attempt σ)))
  | _, [] => []
  | log, v :: vs => v.beside log :: besideAll (log ++ [v.attempt]) vs

def Stop.beside (log : List (Attempt σ)) : Stop σ → Stop (σ × List (Attempt σ))
  | .cancelled c => .cancelled c
  | .unregistered c => .unregistered c
  | .failed c previous before cause after =>
    .failed c previous (before, log) cause
      (after, log ++ [⟨c, previous, before, .error cause, after⟩])
  | .halted result => .halted result

def Progress.beside (log : List (Attempt σ)) (p : Progress σ) :
    Progress (σ × List (Attempt σ)) :=
  ⟨(p.world, log), p.book, p.events⟩

/-- The calls of the executors on a journey. -/
def callsOf (visits : List (Visit σ)) (stop : Stop σ) : List (Attempt σ) :=
  visits.map Visit.attempt ++ stop.attempts

namespace Runner

theorem Journey.recorded {r : Runner σ} {g : Graph} {c : Card} {previous : Option Envelope}
    {s s' : σ} {visits : List (Visit σ)} {stop : Stop σ}
    (h : Journey r g c previous s visits stop s') (log : List (Attempt σ)) :
    Journey r.recorded g c previous (s, log) (Visit.besideAll log visits)
      (stop.beside (log ++ visits.map Visit.attempt)) (s', log ++ callsOf visits stop) := by
  induction h generalizing log with
  | @cancelled c previous s hc =>
    have hc' : r.recorded.isCancelled (s, log) = true := hc
    have hj : Journey r.recorded g c previous (s, log) [] (.cancelled c) (s, log) :=
      .cancelled hc'
    simpa [callsOf, Stop.attempts, Visit.besideAll, Stop.beside] using hj
  | @unregistered c previous s hc hr =>
    have hc' : r.recorded.isCancelled (s, log) = false := hc
    have hj : Journey r.recorded g c previous (s, log) [] (.unregistered c)
        (r.recorded.pause (s, log)) := .unregistered hc' (recorded_none hr)
    simpa [callsOf, Stop.attempts, Visit.besideAll, Stop.beside, recorded_pause] using hj
  | @failed c previous s s' executor cause hc hr he =>
    have hc' : r.recorded.isCancelled (s, log) = false := hc
    simpa [callsOf, Stop.attempts, Visit.besideAll, Stop.beside, recorded_pause] using
      Journey.failed (g := g) hc' (recorded_some hr)
        (by rw [recorded_pause]; exact noting_eq he log)
  | @halted c previous s s' executor output result hc hr he hf =>
    have hc' : r.recorded.isCancelled (s, log) = false := hc
    simpa [callsOf, Stop.attempts, Visit.besideAll, Visit.beside, Visit.attempt, Stop.beside,
      recorded_pause] using
      Journey.halted (g := g) hc' (recorded_some hr)
        (by rw [recorded_pause]; exact noting_eq he log) hf
  | @onward c d previous s s' s'' executor output visits stop hc hr he hf rest ih =>
    have hc' : r.recorded.isCancelled (s, log) = false := hc
    have hnext := ih (log ++ [⟨c, previous, r.pause s, .ok output, s'⟩])
    simpa [callsOf, Visit.besideAll, Visit.beside, Visit.attempt, recorded_pause] using
      Journey.onward (g := g) hc' (recorded_some hr)
        (by rw [recorded_pause]; exact noting_eq he log) hf
        (by simpa [callsOf] using hnext)

theorem visitedAll_beside (r : Runner σ) (index : Nat) (visits : List (Visit σ))
    (log : List (Attempt σ)) (p : Progress σ) :
    r.recorded.visitedAll index (Visit.besideAll log visits) (p.beside log) =
      (r.visitedAll index visits p).beside (log ++ visits.map Visit.attempt) := by
  induction visits generalizing index log p with
  | nil => simp [Visit.besideAll, visitedAll]
  | cons v vs ih =>
    have hv : r.recorded.visited index (v.beside log) (p.beside log) =
        (r.visited index v p).beside (log ++ [v.attempt]) := rfl
    rw [Visit.besideAll, visitedAll, hv, ih, visitedAll]
    simp

theorem stopped_beside (r : Runner σ) (index : Nat) (stop : Stop σ) (log : List (Attempt σ))
    (p : Progress σ) :
    r.recorded.stopped index (stop.beside log) (p.beside log) =
      (r.stopped index stop p).beside (log ++ stop.attempts) := by
  cases stop with
  | cancelled c => simp [Stop.beside, Stop.attempts, stopped]
  | unregistered c =>
    simp [Stop.beside, Stop.attempts, stopped, failedAt, Progress.beside, recorded_pause]
  | failed c previous before cause after => rfl
  | halted result =>
    cases result with
    | ok e => simp [Stop.beside, Stop.attempts, stopped]
    | error e => cases e <;> simp [Stop.beside, Stop.attempts, stopped, Progress.beside]

theorem conclude_beside (r : Runner σ) (started : Nat) (result : Except RunError Envelope)
    (log : List (Attempt σ)) (p : Progress σ) :
    r.recorded.conclude started result (p.beside log) =
      (r.conclude started result p).beside log := by
  cases result <;> rfl

theorem beside_result (stop : Stop σ) (log : List (Attempt σ)) :
    (stop.beside log).result = stop.result := by
  cases stop <;> rfl

theorem beside_turns (stop : Stop σ) (log : List (Attempt σ)) :
    (stop.beside log).turns = stop.turns := by
  cases stop <;> rfl

theorem besideAll_length (visits : List (Visit σ)) (log : List (Attempt σ)) :
    (Visit.besideAll log visits).length = visits.length := by
  induction visits generalizing log with
  | nil => rfl
  | cons v vs ih => simp [Visit.besideAll, ih]

theorem Journey.recorded_walk {r : Runner σ} {g : Graph} {c : Card}
    {previous : Option Envelope} {s s' : σ} {visits : List (Visit σ)} {stop : Stop σ}
    (h : Journey r g c previous s visits stop s') (turns index : Nat) (p : Progress σ)
    (hp : p.world = s) (ht : visits.length + stop.turns ≤ turns) (log : List (Attempt σ)) :
    r.recorded.walk g turns index c previous (p.beside log) = some (stop.result,
      (r.stopped (index + visits.length) stop (r.visitedAll index visits p)).beside
        (log ++ callsOf visits stop)) := by
  subst hp
  have hj := h.recorded log
  rw [hj.walk turns index _ rfl (by rw [besideAll_length, beside_turns]; exact ht),
    beside_result, besideAll_length, visitedAll_beside, stopped_beside, List.append_assoc,
    callsOf]

/-- A recorded run ends as the run does, and its record is the calls of the
journey. -/
theorem recorded_run {r : Runner σ} {g : Graph} {start : Card} {world s' : σ}
    {visits : List (Visit σ)} {stop : Stop σ} (hs : g.start? = some start)
    (h : Journey r g start none world visits stop s') (turns : Nat)
    (ht : visits.length + stop.turns ≤ turns) :
    r.recorded.run g turns (world, []) = some ⟨stop.result,
      (r.travelled g start world visits stop).beside (callsOf visits stop)⟩ := by
  have hwalk := h.recorded_walk turns 1 (departure g start world) rfl ht []
  simp only [run, begin, cards_ne_nil hs, hs, Bool.false_eq_true, if_false]
  change (r.recorded.walk g turns 1 start none ((departure g start world).beside [])).map _ = _
  rw [hwalk, Option.map_some, List.nil_append, conclude_beside]
  rfl

theorem recorded_unstartable {r : Runner σ} {g : Graph} (hs : g.start? = none) (turns : Nat)
    (world : σ) :
    r.recorded.run g turns (world, []) = (r.run g turns world).map fun o =>
      ⟨o.result, o.progress.beside []⟩ := by
  rw [run_unstartable hs, run_unstartable hs]
  rfl

end Runner

end Cardwalk
