import Cardwalk.Proofs.Graph.Route
import Cardwalk.Proofs.Run.Standing

/-!
# Runs on their way

A run that stands ahead of a card has begun and carried out the cards of the
path before it, each as a journey would. So what holds of the cards of every
journey holds of those of a run that never ends.
-/

set_option autoImplicit false

namespace Cardwalk

/-- The cards that these events tell the start of. -/
def started (events : List Event) : List (String × CardKind) :=
  events.filterMap fun
    | .cardStart id kind _ _ => some (id, kind)
    | _ => none

variable {σ : Type}

/-- The card that was started last and not carried out. -/
def Stop.cards : Stop σ → List Card
  | .unregistered c => [c]
  | .failed c _ _ _ _ => [c]
  | _ => []

def Standing.beside (log : List (Attempt σ)) : Standing σ → Standing (σ × List (Attempt σ))
  | .ahead index c previous p => .ahead index c previous (p.beside log)
  | .ended result p => .ended result (p.beside log)

namespace Runner

def told (c : Card) : String × CardKind := (c.id, c.kind)

theorem visitedAll_started (r : Runner σ) (index : Nat) (visits : List (Visit σ))
    (p : Progress σ) :
    started (r.visitedAll index visits p).events =
      started p.events ++ visits.map fun v => told v.card := by
  induction visits generalizing index p with
  | nil => simp [visitedAll]
  | cons v vs ih =>
    rw [visitedAll, ih]
    simp [visited, started, startEvent, told]

theorem stopped_started (r : Runner σ) (index : Nat) (stop : Stop σ) (p : Progress σ) :
    started (r.stopped index stop p).events = started p.events ++ stop.cards.map told := by
  cases stop with
  | cancelled c => simp [stopped, Stop.cards]
  | unregistered c =>
    simp [stopped, failedAt, started, startEvent, Stop.cards, told]
  | failed c previous before cause after =>
    simp [stopped, failedAt, started, startEvent, Stop.cards, told]
  | halted result =>
    cases result with
    | ok e => simp [stopped, Stop.cards]
    | error e => cases e <;> simp [stopped, Stop.cards]

theorem conclude_started (r : Runner σ) (began : Nat) (result : Except RunError Envelope)
    (p : Progress σ) : started (r.conclude began result p).events = started p.events := by
  cases result <;> simp [conclude, Progress.emit, started]

/-- All cards that were begun on a journey, in their order. -/
def begun (visits : List (Visit σ)) (stop : Stop σ) : List Card :=
  visits.map (·.card) ++ stop.cards

theorem departure_started (g : Graph) (start : Card) (world : σ) :
    started (departure g start world).events = [] := rfl

theorem travelled_started (r : Runner σ) (g : Graph) (start : Card) (world : σ)
    (visits : List (Visit σ)) (stop : Stop σ) :
    started (r.travelled g start world visits stop).events = (begun visits stop).map told := by
  rw [travelled, conclude_started, stopped_started, visitedAll_started, departure_started]
  simp [begun]

/-- The visits are to the first cards of the path, each after the token was
found not set and with the output of the card before. -/
def Carried (r : Runner σ) (g : Graph) (world : σ) (visits : List (Visit σ)) : Prop :=
  ∀ i v, visits[i]? = some v → g.station i = some v.card ∧
    v.previous = givenAfter none (visits.take i) ∧
    r.isCancelled (stateAfter world (visits.take i)) = false ∧
    v.before = r.pause (stateAfter world (visits.take i)) ∧
    ∃ executor, r.registry v.card.kind = some executor ∧
      executor v.card v.previous r.context v.before = (.ok v.output, v.after)

section Journey

variable {r : Runner σ} {g : Graph} {start : Card} {world s' : σ} {visits : List (Visit σ)}
  {stop : Stop σ}

theorem Journey.begun_path {c : Card} {previous : Option Envelope}
    (h : Journey r g c previous world visits stop s') :
    begun visits stop <+: g.pathFrom visits.length c := by
  induction h with
  | cancelled => exact List.nil_prefix
  | unregistered | failed => exact List.prefix_refl _
  | halted hc hr he hf =>
    rw [g.pathFrom_dead_end (follow_halt hf).1]
    exact List.prefix_refl _
  | onward hc hr he hf rest ih =>
    rw [List.length_cons, g.pathFrom_next (follow_next hf).2]
    exact (List.prefix_cons_inj _).mpr ih

theorem Journey.begun_station (hs : g.start? = some start)
    (h : Journey r g start none world visits stop s') {i : Nat} {c : Card}
    (hc : (begun visits stop)[i]? = some c) : g.station i = some c := by
  obtain ⟨hi, rfl⟩ := List.getElem?_eq_some_iff.mp hc
  have hpath := List.prefix_iff_getElem?.mp h.begun_path i hi
  rw [← g.path_start hs] at hpath
  obtain ⟨hlt, -⟩ := List.getElem?_eq_some_iff.mp hpath
  have hle := g.path_length_le visits.length
  rwa [Graph.path_getElem? (by omega)] at hpath

theorem Journey.carried (hs : g.start? = some start)
    (h : Journey r g start none world visits stop s') : Carried r g world visits := by
  intro i v hv
  have hbegun : (begun visits stop)[i]? = some v.card := by
    obtain ⟨hi, -⟩ := List.getElem?_eq_some_iff.mp hv
    rw [begun, List.getElem?_append_left (by simpa using hi), List.getElem?_map, hv,
      Option.map_some]
  exact ⟨h.begun_station hs hbegun, h.visited_at hv⟩

end Journey

section Standing

variable {r : Runner σ} {g : Graph} {world : σ}

/-- A run that has not ended after some turns has carried out as many cards,
and it has kept to the path. -/
theorem standing_ahead {turns index : Nat} {c : Card} {previous : Option Envelope}
    {p : Progress σ} (h : r.standing g world turns = .ahead index c previous p) :
    index = turns + 1 ∧ g.station turns = some c ∧ p.book.steps.length = turns := by
  induction turns generalizing index c previous p with
  | zero =>
    cases hs : g.start? with
    | none =>
      rw [standing, outset_none hs] at h
      cases h
    | some start =>
      rw [standing, outset_start hs] at h
      cases h
      exact ⟨rfl, by rw [g.station_zero, hs], rfl⟩
  | succ turns ih =>
    rw [standing_succ] at h
    cases hst : r.standing g world turns with
    | ended result q =>
      rw [hst] at h
      cases h
    | ahead index' d given q =>
      rw [hst] at h
      obtain ⟨rfl, hd, hq⟩ := ih hst
      obtain ⟨-, rfl, hn, output, s', -, -, rfl⟩ := further_ahead h
      refine ⟨rfl, by rw [g.station_succ, hd, Option.bind_some, hn], ?_⟩
      simp [visited, RunState.markSuccess, RunState.markRunning, hq]

theorem execute_ok {c : Card} {previous : Option Envelope} {s s' : σ} {output : Envelope}
    (h : r.execute c previous s = (.ok output, s')) :
    ∃ executor, r.registry c.kind = some executor ∧
      executor c previous r.context s = (.ok output, s') := by
  unfold execute at h
  split at h
  · rename_i executor hr
    exact ⟨executor, hr, h⟩
  · cases h

theorem carried_nil (r : Runner σ) (g : Graph) (world : σ) : Carried r g world [] := by
  intro i v hv
  cases hv

theorem Carried.append {visits : List (Visit σ)} {v : Visit σ} (h : Carried r g world visits)
    (hs : g.station visits.length = some v.card) (hp : v.previous = givenAfter none visits)
    (hc : r.isCancelled (stateAfter world visits) = false)
    (hb : v.before = r.pause (stateAfter world visits))
    (he : r.execute v.card v.previous v.before = (.ok v.output, v.after)) :
    Carried r g world (visits ++ [v]) := by
  intro i w hw
  rcases Nat.lt_or_ge i visits.length with hi | hi
  · rw [List.getElem?_append_left hi] at hw
    rw [List.take_append_of_le_length (Nat.le_of_lt hi)]
    exact h i w hw
  · rw [List.getElem?_append_right hi] at hw
    obtain ⟨hlt, rfl⟩ := List.getElem?_eq_some_iff.mp hw
    obtain rfl : i = visits.length := by
      rw [List.length_singleton] at hlt
      omega
    simp only [List.take_left', List.getElem_singleton]
    exact ⟨hs, hp, hc, hb, execute_ok he⟩

theorem visitedAll_append (r : Runner σ) (index : Nat) (visits : List (Visit σ)) (v : Visit σ)
    (p : Progress σ) :
    r.visitedAll index (visits ++ [v]) p =
      r.visited (index + visits.length) v (r.visitedAll index visits p) := by
  induction visits generalizing index p with
  | nil => rfl
  | cons w ws ih =>
    rw [List.cons_append, visitedAll, ih, visitedAll, List.length_cons, Nat.add_right_comm]
    rfl

theorem visitedAll_world (r : Runner σ) (index : Nat) (visits : List (Visit σ))
    (p : Progress σ) : (r.visitedAll index visits p).world = stateAfter p.world visits := by
  induction visits generalizing index p with
  | nil => rfl
  | cons v vs ih =>
    rw [visitedAll, ih, stateAfter_cons]
    rfl

theorem recorded_execute {c : Card} {previous : Option Envelope} {s s' : σ} {output : Envelope}
    (h : r.execute c previous s = (.ok output, s')) (log : List (Attempt σ)) :
    r.recorded.execute c previous (s, log) =
      (.ok output, s', log ++ [⟨c, previous, s, .ok output, s'⟩]) := by
  obtain ⟨executor, hr, he⟩ := execute_ok h
  simp only [execute, recorded_some hr]
  exact noting_eq he log

theorem recorded_further {index index' : Nat} {c d : Card} {previous given : Option Envelope}
    {p q : Progress σ} {output : Envelope} {s' : σ}
    (h : r.further g (.ahead index c previous p) = .ahead index' d given q)
    (he : r.execute c previous (r.pause p.world) = (.ok output, s')) (log : List (Attempt σ)) :
    r.recorded.further g (.ahead index c previous (p.beside log)) = .ahead index' d given
      (q.beside (log ++ [⟨c, previous, r.pause p.world, .ok output, s'⟩])) := by
  have hc := (further_ahead h).1
  have hpause : r.recorded.pause (p.beside log).world = (r.pause p.world, log) :=
    recorded_pause r p.world log
  have hexecute : r.recorded.execute c previous (r.recorded.pause (p.beside log).world) =
      (.ok output, s', log ++ [⟨c, previous, r.pause p.world, .ok output, s'⟩]) := by
    rw [hpause]
    exact recorded_execute he log
  rw [further_visited hc he] at h
  rw [further_visited (show r.recorded.isCancelled (p.beside log).world = false from hc)
    hexecute, hpause]
  cases hf : follow g c output with
  | halt result =>
    rw [hf] at h
    cases h
  | next e out =>
    rw [hf] at h
    cases h
    rfl

theorem standing_underway {start : Card} (hs : g.start? = some start) {turns index : Nat}
    {c : Card} {previous : Option Envelope} {p : Progress σ}
    (h : r.standing g world turns = .ahead index c previous p) :
    ∃ visits, Carried r g world visits ∧ visits.length = turns ∧
      previous = givenAfter none visits ∧
      p = r.visitedAll 1 visits (departure g start world) ∧
      r.recorded.standing g (world, []) turns =
        (r.standing g world turns).beside (visits.map Visit.attempt) := by
  induction turns generalizing index c previous p with
  | zero =>
    rw [standing, outset_start hs] at h
    cases h
    refine ⟨[], carried_nil r g world, rfl, rfl, rfl, ?_⟩
    rw [standing, standing, outset_start hs, outset_start hs]
    rfl
  | succ turns ih =>
    rw [standing_succ] at h
    cases hst : r.standing g world turns with
    | ended result q =>
      rw [hst] at h
      cases h
    | ahead index' d given q =>
      obtain ⟨visits, hcarried, hlength, rfl, hq, hrec⟩ := ih hst
      obtain ⟨rfl, hd, -⟩ := standing_ahead hst
      rw [hst] at h hrec
      obtain ⟨hc, rfl, -, output, s', he, rfl, hp⟩ := further_ahead h
      have hworld : q.world = stateAfter world visits := by
        rw [hq, visitedAll_world]
        rfl
      rw [hworld] at hc he hp
      let v : Visit σ :=
        ⟨d, givenAfter none visits, r.pause (stateAfter world visits), output, s'⟩
      have hstep : Carried r g world (visits ++ [v]) :=
        hcarried.append (hlength ▸ hd) rfl hc rfl he
      have hall : p = r.visitedAll 1 (visits ++ [v]) (departure g start world) := by
        rw [hp, hq, visitedAll_append, hlength, Nat.add_comm 1]
      have hnext := recorded_further h (hworld ▸ he) (visits.map Visit.attempt)
      rw [hworld] at hnext
      refine ⟨visits ++ [v], hstep, by simp [hlength], by simp [givenAfter, v], hall, ?_⟩
      rw [standing_succ, standing_succ, hrec, hst, h, List.map_append]
      exact hnext

theorem standing_journey {start : Card} (hs : g.start? = some start) {turns : Nat}
    {result : Except RunError Envelope} {p : Progress σ}
    (h : r.standing g world turns = .ended result p) :
    ∃ visits stop, Journey r g start none world visits stop p.world ∧ result = stop.result ∧
      p = r.stopped (1 + visits.length) stop (r.visitedAll 1 visits (departure g start world)) ∧
      r.recorded.standing g (world, []) turns =
        (r.standing g world turns).beside (callsOf visits stop) := by
  have hwalk : walk r g turns 1 start none (departure g start world) = some (result, p) := by
    rw [walk_eq, ← outset_start hs, Standing.result?_eq_some]
    exact h
  obtain ⟨visits, stop, hj, hl, hres, hp⟩ := walk_journey hwalk
  refine ⟨visits, stop, hj, hres, hp, ?_⟩
  have hrec := hj.recorded_walk turns 1 (departure g start world) rfl hl []
  rw [walk_eq, Standing.result?_eq_some] at hrec
  rw [h, hres, hp, standing, outset_start hs]
  exact hrec

end Standing

end Runner

end Cardwalk
