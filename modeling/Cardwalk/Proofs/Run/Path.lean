import Cardwalk.Proofs.Run.Record

/-!
# Runs follow the path of the graph

The path of a graph begins at the first start card and goes on, from card to
card, along the first connection out of each. A run carries out a beginning
of it, hands every card the output of the card before, and its result tells
which of six reasons kept it from the card that comes next.
-/

set_option autoImplicit false

namespace Cardwalk

/-- The path of a graph, as far as `n` steps. -/
def Graph.path (g : Graph) (n : Nat) : List Card :=
  match g.start? with
  | some start => g.pathFrom n start
  | none => []

namespace Graph

theorem path_start {g : Graph} {start : Card} (hs : g.start? = some start) (n : Nat) :
    g.path n = g.pathFrom n start := by
  simp [path, hs]

theorem pathFrom_next {g : Graph} {c d : Card} (hn : g.next? c = some d) (n : Nat) :
    g.pathFrom (n + 1) c = c :: g.pathFrom n d := by
  simp [pathFrom, hn]

theorem pathFrom_dead_end {g : Graph} {c : Card} (hn : g.next? c = none) (n : Nat) :
    g.pathFrom n c = [c] := by
  cases n <;> simp [pathFrom, hn]

end Graph

variable {σ : Type}

/-- What the card behind these visits is given. -/
def givenAfter (previous : Option Envelope) (visits : List (Visit σ)) : Option Envelope :=
  (visits.getLast?.map fun v => some v.output).getD previous

/-- The state outside behind these visits. -/
def stateAfter (world : σ) (visits : List (Visit σ)) : σ :=
  (visits.getLast?.map (·.after)).getD world

theorem givenAfter_cons (previous : Option Envelope) (v : Visit σ) (vs : List (Visit σ)) :
    givenAfter previous (v :: vs) = givenAfter (some v.output) vs := by
  cases vs <;> simp [givenAfter, List.getLast?_cons]

theorem stateAfter_cons (world : σ) (v : Visit σ) (vs : List (Visit σ)) :
    stateAfter world (v :: vs) = stateAfter v.after vs := by
  cases vs <;> simp [stateAfter, List.getLast?_cons]

namespace Runner

/-- What is known where a journey stops; `ahead` is the card that would have
come next. -/
def Stands (r : Runner σ) (g : Graph) (previous : Option Envelope) (world : σ)
    (visits : List (Visit σ)) (ahead : Option Card) : Stop σ → Prop
  | .cancelled d => ahead = some d ∧ r.isCancelled (stateAfter world visits) = true
  | .unregistered d => ahead = some d ∧ r.isCancelled (stateAfter world visits) = false ∧
      r.registry d.kind = none
  | .failed d given before cause after => ahead = some d ∧
      r.isCancelled (stateAfter world visits) = false ∧ given = givenAfter previous visits ∧
      before = r.pause (stateAfter world visits) ∧
      ∃ executor, r.registry d.kind = some executor ∧
        executor d given r.context before = (.error cause, after)
  | .halted result => ahead = none ∧
      ∃ v, visits.getLast? = some v ∧ follow g v.card v.output = .halt result

theorem follow_halt {g : Graph} {c : Card} {output : Envelope}
    {result : Except RunError Envelope} (hf : follow g c output = .halt result) :
    g.next? c = none ∧
      (g.outgoing? c.id = none ∧ c.kind = .finish ∧
          result = .ok (output.finalResult.getD .empty) ∨
        g.outgoing? c.id = none ∧ c.kind ≠ .finish ∧
          result = .error (.stranded c.id c.kind c.label) ∨
        ∃ e, g.outgoing? c.id = some e ∧ g.card? e.target = none ∧
          result = .error (.dangling e.id e.source e.target)) := by
  unfold follow at hf
  split at hf
  · rename_i hn
    refine ⟨by simp [Graph.next?, hn], ?_⟩
    split at hf
    · rename_i hk
      cases hf
      exact .inl ⟨hn, hk, rfl⟩
    · rename_i hk
      cases hf
      exact .inr (.inl ⟨hn, hk, rfl⟩)
  · rename_i e he
    split at hf
    · cases hf
    · rename_i ht
      cases hf
      exact ⟨by simp [Graph.next?, he, ht], .inr (.inr ⟨e, he, ht, rfl⟩)⟩

theorem follow_halt_ne {g : Graph} {c : Card} {output : Envelope}
    {result : Except RunError Envelope} (hf : follow g c output = .halt result) :
    (∀ m, result ≠ .error (.configuration m)) ∧ (∀ id, result ≠ .error (.cancelled id)) ∧
      ∀ id kind label cause, result ≠ .error (.executor id kind label cause) := by
  obtain ⟨-, ⟨-, -, rfl⟩ | ⟨-, -, rfl⟩ | ⟨e, -, -, rfl⟩⟩ := follow_halt hf <;> simp

theorem follow_dangling {g : Graph} {c : Card} {output : Envelope}
    {id source target : String} :
    follow g c output = .halt (.error (.dangling id source target)) ↔
      ∃ e, g.outgoing? c.id = some e ∧ g.card? e.target = none ∧
        e.id = id ∧ e.source = source ∧ e.target = target := by
  unfold follow
  cases ho : g.outgoing? c.id with
  | none => by_cases hk : c.kind = .finish <;> simp [hk]
  | some e => cases ht : g.card? e.target <;> simp [ht]

theorem follow_stranded {g : Graph} {c : Card} {output : Envelope} {id label : String}
    {kind : CardKind} :
    follow g c output = .halt (.error (.stranded id kind label)) ↔
      g.outgoing? c.id = none ∧ c.kind ≠ .finish ∧ c.id = id ∧ c.kind = kind ∧
        c.label = label := by
  unfold follow
  cases ho : g.outgoing? c.id with
  | none => by_cases hk : c.kind = .finish <;> simp [hk]
  | some e => cases ht : g.card? e.target <;> simp [ht]

theorem follow_completed {g : Graph} {c : Card} {output final : Envelope} :
    follow g c output = .halt (.ok final) ↔
      g.outgoing? c.id = none ∧ c.kind = .finish ∧
        output.finalResult.getD .empty = final := by
  unfold follow
  cases ho : g.outgoing? c.id with
  | none => by_cases hk : c.kind = .finish <;> simp [hk]
  | some e => cases ht : g.card? e.target <;> simp [ht]

section Journey

variable {r : Runner σ} {g : Graph} {c : Card} {previous : Option Envelope} {s s' : σ}
  {visits : List (Visit σ)} {stop : Stop σ}

theorem Journey.route (h : Journey r g c previous s visits stop s') :
    visits.map (·.card) = (g.pathFrom visits.length c).take visits.length := by
  induction h with
  | cancelled | unregistered | failed => rfl
  | halted hc hr he hf =>
    simp [g.pathFrom_dead_end (follow_halt hf).1]
  | onward hc hr he hf rest ih =>
    simp [g.pathFrom_next (follow_next hf).2, ih]

theorem Journey.stands (h : Journey r g c previous s visits stop s') :
    Stands r g previous s visits (g.pathFrom visits.length c)[visits.length]? stop := by
  induction h with
  | cancelled hc => exact ⟨rfl, hc⟩
  | unregistered hc hr => exact ⟨rfl, hc, hr⟩
  | failed hc hr he => exact ⟨rfl, hc, rfl, rfl, _, hr, he⟩
  | halted hc hr he hf =>
    exact ⟨by simp [g.pathFrom_dead_end (follow_halt hf).1], _, rfl, hf⟩
  | @onward c d previous s s' s'' executor output visits stop hc hr he hf rest ih =>
    rw [List.length_cons, g.pathFrom_next (follow_next hf).2, List.getElem?_cons_succ]
    cases stop with
    | cancelled d => simpa [Stands, stateAfter_cons] using ih
    | unregistered d => simpa [Stands, stateAfter_cons] using ih
    | failed d given before cause after =>
      simpa [Stands, stateAfter_cons, givenAfter_cons] using ih
    | halted result =>
      obtain ⟨ha, v, hv, hres⟩ := ih
      exact ⟨ha, v, by simp [List.getLast?_cons, hv], hres⟩

theorem Journey.ahead (h : Journey r g c previous s visits stop s') {v : Visit σ}
    (hv : visits.getLast? = some v) :
    (g.pathFrom visits.length c)[visits.length]? = g.next? v.card := by
  induction h with
  | cancelled | unregistered | failed => cases hv
  | halted hc hr he hf =>
    cases hv
    simp [g.pathFrom_dead_end (follow_halt hf).1, (follow_halt hf).1]
  | @onward c d previous s s' s'' executor output visits stop hc hr he hf rest ih =>
    have hn := (follow_next hf).2
    rw [List.length_cons, g.pathFrom_next hn, List.getElem?_cons_succ]
    cases visits with
    | nil =>
      cases hv
      simp [Graph.pathFrom, hn]
    | cons w ws => exact ih (by simpa [List.getLast?_cons] using hv)

/-- Every card of a journey was carried out by its executor, after the token
was found not set, with the output of the card before. -/
theorem Journey.visited_at (h : Journey r g c previous s visits stop s') {i : Nat}
    {v : Visit σ} (hv : visits[i]? = some v) :
    v.previous = givenAfter previous (visits.take i) ∧
      r.isCancelled (stateAfter s (visits.take i)) = false ∧
      v.before = r.pause (stateAfter s (visits.take i)) ∧
      ∃ executor, r.registry v.card.kind = some executor ∧
        executor v.card v.previous r.context v.before = (.ok v.output, v.after) := by
  induction h generalizing i with
  | cancelled | unregistered | failed => simp at hv
  | halted hc hr he hf =>
    cases i with
    | zero =>
      cases hv
      exact ⟨rfl, hc, rfl, _, hr, he⟩
    | succ i => simp at hv
  | onward hc hr he hf rest ih =>
    cases i with
    | zero =>
      cases hv
      exact ⟨rfl, hc, rfl, _, hr, he⟩
    | succ i =>
      rw [List.take_succ_cons, givenAfter_cons, stateAfter_cons]
      exact ih hv

end Journey

theorem givenAfter_take {previous : Option Envelope} {visits : List (Visit σ)} {i : Nat}
    {v : Visit σ} (hv : visits[i]? = some v) :
    givenAfter previous (visits.take (i + 1)) = some v.output := by
  simp [givenAfter, List.take_add_one, hv]

def Fails (r : Runner σ) (d : Card) (given : Option Envelope) (before : σ)
    (cause : ExecutionError) : Prop :=
  r.registry d.kind = none ∧ cause = .unregistered d.kind ∨
    ∃ executor, r.registry d.kind = some executor ∧
      (executor d given r.context before).1 = .error cause

theorem fails_unregistered {r : Runner σ} {d : Card} (hr : r.registry d.kind = none)
    (given : Option Envelope) (before : σ) (cause : ExecutionError) :
    r.Fails d given before cause ↔ .unregistered d.kind = cause := by
  simp [Fails, hr, eq_comm]

theorem fails_failed {r : Runner σ} {d : Card} {executor : Executor σ}
    {given : Option Envelope} {before after : σ} {cause : ExecutionError}
    (hr : r.registry d.kind = some executor)
    (he : executor d given r.context before = (.error cause, after)) (cause' : ExecutionError) :
    r.Fails d given before cause' ↔ cause = cause' := by
  simp [Fails, hr, he]

section Stands

variable {r : Runner σ} {g : Graph} {previous : Option Envelope} {world : σ}
  {visits : List (Visit σ)} {ahead : Option Card} {stop : Stop σ}

theorem configuration_never (h : Stands r g previous world visits ahead stop) (m : String) :
    stop.result ≠ .error (.configuration m) := by
  intro hm
  cases stop with
  | cancelled | unregistered | failed => cases hm
  | halted result =>
    obtain ⟨-, v, -, hf⟩ := h
    exact (follow_halt_ne hf).1 m hm

theorem cancelled_iff (h : Stands r g previous world visits ahead stop) (id : String) :
    stop.result = .error (.cancelled id) ↔
      ∃ d, ahead = some d ∧ d.id = id ∧ r.isCancelled (stateAfter world visits) = true := by
  cases stop with
  | cancelled d =>
    obtain ⟨rfl, hc⟩ := h
    simp [Stop.result, hc]
  | unregistered d =>
    obtain ⟨rfl, hc, -⟩ := h
    simp [Stop.result, hc]
  | failed d given before cause after =>
    obtain ⟨rfl, hc, -⟩ := h
    simp [Stop.result, hc]
  | halted result =>
    obtain ⟨rfl, v, -, hf⟩ := h
    simp [Stop.result, (follow_halt_ne hf).2.1 id]

theorem executor_iff (h : Stands r g previous world visits ahead stop) (id : String)
    (kind : CardKind) (label : String) (cause : ExecutionError) :
    stop.result = .error (.executor id kind label cause) ↔
      ∃ d, ahead = some d ∧ d.id = id ∧ d.kind = kind ∧ d.label = label ∧
        r.isCancelled (stateAfter world visits) = false ∧
        r.Fails d (givenAfter previous visits) (r.pause (stateAfter world visits)) cause := by
  cases stop with
  | cancelled d =>
    obtain ⟨rfl, hc⟩ := h
    simp [Stop.result, hc]
  | unregistered d =>
    obtain ⟨rfl, hc, hr⟩ := h
    simp [Stop.result, hc, fails_unregistered hr]
  | failed d given before cause after =>
    obtain ⟨rfl, hc, rfl, rfl, executor, hr, he⟩ := h
    simp [Stop.result, hc, fails_failed hr he]
  | halted result =>
    obtain ⟨rfl, v, -, hf⟩ := h
    simp [Stop.result, (follow_halt_ne hf).2.2 id kind label cause]

theorem halts_iff (h : Stands r g previous world visits ahead stop)
    (hl : ∀ v, visits.getLast? = some v → ahead = g.next? v.card)
    {result : Except RunError Envelope} (hc : ∀ id, result ≠ .error (.cancelled id))
    (he : ∀ id kind label cause, result ≠ .error (.executor id kind label cause)) :
    stop.result = result ↔
      ∃ v, visits.getLast? = some v ∧ follow g v.card v.output = .halt result := by
  constructor
  · rintro rfl
    cases stop with
    | cancelled d => exact absurd rfl (hc d.id)
    | unregistered d => exact absurd rfl (he d.id d.kind d.label (.unregistered d.kind))
    | failed d given before cause after => exact absurd rfl (he d.id d.kind d.label cause)
    | halted result => exact h.2
  · rintro ⟨v, hv, hf⟩
    have hn : ahead = none := by rw [hl v hv, (follow_halt hf).1]
    cases stop with
    | cancelled d => simp [h.1] at hn
    | unregistered d => simp [h.1] at hn
    | failed d given before cause after => simp [h.1] at hn
    | halted result' =>
      obtain ⟨-, w, hw, hf'⟩ := h
      obtain rfl : v = w := by simpa [hv] using hw
      rw [hf] at hf'
      cases hf'
      rfl

end Stands

/-- The card that comes next on the path behind these visits. -/
def ahead (g : Graph) (visits : List (Visit σ)) : Option Card :=
  (g.path visits.length)[visits.length]?

/-- A run that keeps to the path of its graph: `visits` are the cards that
were carried out and `calls` what the executors wrote down. -/
structure KeepsToPath (r : Runner σ) (g : Graph) (world : σ) (o : Outcome σ)
    (visits : List (Visit σ)) (calls : List (Attempt σ)) : Prop where
  route : visits.map (·.card) = (g.path visits.length).take visits.length
  first : ∀ v, visits[0]? = some v → v.previous = none
  thread : ∀ i v next, visits[i]? = some v → visits[i + 1]? = some next →
    next.previous = some v.output
  carried : ∀ i v, visits[i]? = some v →
    r.isCancelled (stateAfter world (visits.take i)) = false ∧
    v.before = r.pause (stateAfter world (visits.take i)) ∧
    ∃ executor, r.registry v.card.kind = some executor ∧
      executor v.card v.previous r.context v.before = (.ok v.output, v.after)
  calls_made : calls = visits.map Visit.attempt ∨
    ∃ d cause after, ahead g visits = some d ∧ calls = visits.map Visit.attempt ++
      [⟨d, givenAfter none visits, r.pause (stateAfter world visits), .error cause, after⟩]
  steps : o.progress.book.steps = visits.map r.stepOf
  configuration : (∃ m, o.result = .error (.configuration m)) ↔ g.start? = none
  idle : g.start? = none → calls = []
  cancelled : ∀ id, o.result = .error (.cancelled id) ↔
    ∃ d, ahead g visits = some d ∧ d.id = id ∧
      r.isCancelled (stateAfter world visits) = true
  executor : ∀ id kind label cause, o.result = .error (.executor id kind label cause) ↔
    ∃ d, ahead g visits = some d ∧ d.id = id ∧ d.kind = kind ∧ d.label = label ∧
      r.isCancelled (stateAfter world visits) = false ∧
      r.Fails d (givenAfter none visits) (r.pause (stateAfter world visits)) cause
  dangling : ∀ id source target, o.result = .error (.dangling id source target) ↔
    ∃ v e, visits.getLast? = some v ∧ g.outgoing? v.card.id = some e ∧
      g.card? e.target = none ∧ e.id = id ∧ e.source = source ∧ e.target = target
  stranded : ∀ id kind label, o.result = .error (.stranded id kind label) ↔
    ∃ v, visits.getLast? = some v ∧ g.outgoing? v.card.id = none ∧ v.card.kind ≠ .finish ∧
      v.card.id = id ∧ v.card.kind = kind ∧ v.card.label = label
  completed : ∀ final, o.result = .ok final ↔
    ∃ v, visits.getLast? = some v ∧ g.outgoing? v.card.id = none ∧ v.card.kind = .finish ∧
      v.output.finalResult.getD .empty = final

theorem calls_of_stop {r : Runner σ} {g : Graph} {world : σ} {visits : List (Visit σ)}
    {next : Option Card} {stop : Stop σ} (h : Stands r g none world visits next stop) :
    callsOf visits stop = visits.map Visit.attempt ∨
      ∃ d cause after, next = some d ∧ callsOf visits stop = visits.map Visit.attempt ++
        [⟨d, givenAfter none visits, r.pause (stateAfter world visits), .error cause, after⟩] := by
  cases stop with
  | cancelled | unregistered | halted => exact .inl (by simp [callsOf, Stop.attempts])
  | failed d given before cause after =>
    obtain ⟨rfl, -, rfl, rfl, -⟩ := h
    exact .inr ⟨d, cause, after, rfl, rfl⟩

theorem journey_keeps_to_path {r : Runner σ} {g : Graph} {start : Card} {world s' : σ}
    {visits : List (Visit σ)} {stop : Stop σ} (hs : g.start? = some start)
    (h : Journey r g start none world visits stop s') :
    KeepsToPath r g world ⟨stop.result, r.travelled g start world visits stop⟩ visits
      (callsOf visits stop) := by
  have hst : Stands r g none world visits (ahead g visits) stop := by
    rw [ahead, g.path_start hs]
    exact h.stands
  have hl : ∀ v, visits.getLast? = some v → ahead g visits = g.next? v.card := by
    intro v hv
    rw [ahead, g.path_start hs]
    exact h.ahead hv
  exact {
    route := by rw [g.path_start hs]; exact h.route
    first := fun v hv => (h.visited_at hv).1
    thread := fun i v next hv hn => by rw [(h.visited_at hn).1, givenAfter_take hv]
    carried := fun i v hv => (h.visited_at hv).2
    calls_made := calls_of_stop hst
    steps := r.travelled_steps g start world visits stop
    configuration := iff_of_false (fun ⟨m, hm⟩ => configuration_never hst m hm) (by simp [hs])
    idle := fun hn => by simp [hs] at hn
    cancelled := cancelled_iff hst
    executor := executor_iff hst
    dangling := fun id source target => by
      rw [halts_iff hst hl (by simp) (by simp)]
      simp only [follow_dangling, exists_and_left]
    stranded := fun id kind label => by
      rw [halts_iff hst hl (by simp) (by simp)]
      simp only [follow_stranded]
    completed := fun final => by
      rw [halts_iff hst hl (by simp) (by simp)]
      simp only [follow_completed] }

theorem unstartable_keeps_to_path {r : Runner σ} {g : Graph} (hs : g.start? = none) (world : σ)
    (p : Progress σ) (hp : p.book.steps = []) :
    KeepsToPath r g world ⟨.error (unstartable g), p⟩ [] [] := by
  obtain ⟨m, hm⟩ := unstartable_configuration g
  have ha : ahead g ([] : List (Visit σ)) = none := by simp [ahead, Graph.path, hs]
  exact {
    route := rfl
    first := by simp
    thread := by simp
    carried := by simp
    calls_made := .inl rfl
    steps := hp
    configuration := iff_of_true ⟨m, by rw [hm]⟩ hs
    idle := fun _ => rfl
    cancelled := by simp [ha, hm]
    executor := by simp [ha, hm]
    dangling := by simp [hm]
    stranded := by simp [hm]
    completed := by simp }

/-- Every run that ends keeps to the path of its graph. -/
theorem run_keeps_to_path (r : Runner σ) (g : Graph) (turns : Nat) (world : σ) (o : Outcome σ)
    (h : r.run g turns world = some o) :
    ∃ visits calls,
      r.recorded.run g turns (world, []) = some ⟨o.result, o.progress.beside calls⟩ ∧
      KeepsToPath r g world o visits calls := by
  cases hs : g.start? with
  | some start =>
    obtain ⟨visits, stop, hj, hl, rfl⟩ := run_journey hs h
    exact ⟨visits, callsOf visits stop, recorded_run hs hj turns hl,
      journey_keeps_to_path hs hj⟩
  | none =>
    refine ⟨[], [], by rw [recorded_unstartable hs, h]; rfl, ?_⟩
    rw [run_unstartable hs] at h
    cases h
    exact unstartable_keeps_to_path hs world _ (conclude_steps _ _ _ _)

/-- Two cards in a circle; a second card with the first one's identifier is
never reached. -/
def circle : Graph where
  cards := [.new "s" .start, .new "t" .textInput, .new "s" .finish]
  connections := [.new "out" "s" "t", .new "back" "t" "s", .new "lost" "s" "nowhere"]

def counting : Runner Nat where
  context :=
    { complete := fun _ _ n => (.error .emptyBody, n)
      retrieve := fun _ _ n => (.error .uninitialized, n)
      callTool := fun name _ n => (.error ⟨name, ""⟩, n) }
  registry := fun _ => some fun c _ _ n => (.ok (.ofText c.id), n + 1)
  isCancelled := fun n => 3 ≤ n

theorem circle_keeps_to_path :
    ∃ o, counting.run circle 5 0 = some o ∧ o.result = .error (.cancelled "t") ∧
      ∃ visits calls,
        counting.recorded.run circle 5 (0, []) = some ⟨o.result, o.progress.beside calls⟩ ∧
        KeepsToPath counting circle 0 o visits calls :=
  ⟨_, rfl, rfl, run_keeps_to_path counting circle 5 0 _ rfl⟩

end Runner

end Cardwalk
