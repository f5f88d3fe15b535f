import Cardwalk.Proofs.Run.Statuses
import Cardwalk.Proofs.Run.Validated

/-!
# What a run tells is true

The events of a run, its status, the statuses of the cards and the list of
steps are written at different places and on six ways out. Still they agree:
each card that begins is told to end before another one begins, and what is
left in the book is what the events told.
-/

set_option autoImplicit false

namespace Cardwalk

variable {σ : Type}

/-- The events of cards that begin one after the other, numbered from
`index`: a card that has begun is carried out before the next one begins, or
it fails and is the last. -/
inductive CardEvents : Nat → List Card → List Event → Prop
  | none (index : Nat) : CardEvents index [] []
  | failed (index : Nat) (c : Card) (error : String) :
      CardEvents index [c] [Runner.startEvent c index, .cardError c.id error]
  | carried {index : Nat} {c : Card} {ms : Nat} {cards : List Card} {events : List Event}
      (rest : CardEvents (index + 1) cards events) :
      CardEvents index (c :: cards)
        (Runner.startEvent c index :: .cardComplete c.id ms :: events)

/-- The cards that these events tell to be carried out. -/
def completed (events : List Event) : List String :=
  events.filterMap fun
    | .cardComplete id _ => some id
    | _ => none

/-- What an event says of the cards. -/
def tally (m : StatusMap) : Event → StatusMap
  | .cardStart id _ _ _ => m.set id .running
  | .cardComplete id _ => m.set id .success
  | .cardError id _ => m.set id .error
  | .runStart _ _ | .runComplete _ _ _ | .runError _ _ _ | .info _ => m

namespace Runner

def visitEvents (r : Runner σ) : Nat → List (Visit σ) → List Event
  | _, [] => []
  | index, v :: vs =>
    startEvent v.card index :: .cardComplete v.card.id (r.stepOf v).ms ::
      visitEvents r (index + 1) vs

def stopEvents (index : Nat) : Stop σ → List Event
  | .unregistered c =>
    [startEvent c index, .cardError c.id (ExecutionError.unregistered c.kind).message]
  | .failed c _ _ cause _ => [startEvent c index, .cardError c.id cause.message]
  | .cancelled _ | .halted _ => []

def cardEvents (r : Runner σ) (visits : List (Visit σ)) (stop : Stop σ) : List Event :=
  r.visitEvents 1 visits ++ stopEvents (1 + visits.length) stop

theorem cardEvents_numbered (r : Runner σ) (index : Nat) (visits : List (Visit σ))
    (stop : Stop σ) :
    CardEvents index (begun visits stop)
      (r.visitEvents index visits ++ stopEvents (index + visits.length) stop) := by
  induction visits generalizing index with
  | nil =>
    cases stop with
    | cancelled | halted => exact .none index
    | unregistered | failed => exact .failed index _ _
  | cons v vs ih =>
    have hrest := ih (index + 1)
    rw [Nat.add_right_comm] at hrest
    exact .carried hrest

theorem completed_cardEvents (r : Runner σ) (index number : Nat) (visits : List (Visit σ))
    (stop : Stop σ) :
    completed (r.visitEvents index visits ++ stopEvents number stop) =
      visits.map (·.card.id) := by
  induction visits generalizing index with
  | nil => cases stop <;> rfl
  | cons v vs ih =>
    have hrest := ih (index + 1)
    simpa [visitEvents, completed, startEvent] using hrest

theorem visitedAll_events (r : Runner σ) (index : Nat) (visits : List (Visit σ))
    (p : Progress σ) :
    (r.visitedAll index visits p).events = p.events ++ r.visitEvents index visits := by
  induction visits generalizing index p with
  | nil => simp [visitedAll, visitEvents]
  | cons v vs ih =>
    rw [visitedAll, ih]
    simp [visited, visitEvents]

theorem stopped_events (r : Runner σ) (index : Nat) (stop : Stop σ) (p : Progress σ) :
    (r.stopped index stop p).events = p.events ++ stopEvents index stop := by
  cases stop with
  | cancelled c => simp [stopped, stopEvents]
  | unregistered c => rfl
  | failed c previous before cause after => rfl
  | halted result =>
    cases result with
    | ok e => simp [stopped, stopEvents]
    | error e => cases e <;> simp [stopped, stopEvents]

theorem visitedAll_statuses (r : Runner σ) (index : Nat) (visits : List (Visit σ))
    (p : Progress σ) :
    (r.visitedAll index visits p).book.statuses =
      (r.visitEvents index visits).foldl tally p.book.statuses := by
  induction visits generalizing index p with
  | nil => rfl
  | cons v vs ih =>
    rw [visitedAll, ih]
    rfl

theorem stopped_statuses (r : Runner σ) (index : Nat) {stop : Stop σ}
    (h : ∀ id kind label, stop.result ≠ .error (.stranded id kind label)) (p : Progress σ) :
    (r.stopped index stop p).book.statuses =
      (stopEvents index stop).foldl tally p.book.statuses := by
  cases stop with
  | cancelled c => rfl
  | unregistered c => rfl
  | failed c previous before cause after => rfl
  | halted result =>
    rcases result with e | e
    · cases e with
      | stranded id kind label => exact absurd rfl (h id kind label)
      | configuration | dangling | executor | cancelled => rfl
    · rfl

def opening (g : Graph) : List Event :=
  match g.start? with
  | some start => [.runStart g.cards.length start.id]
  | none => []

def failure : Except RunError Envelope → List Event
  | .ok _ => []
  | .error e => [.runError e.stage e.card? e.message]

/-- How a run with this result stands. -/
def finalStatus : Except RunError Envelope → RunStatus
  | .ok _ => .completed
  | .error e => e.status

theorem conclude_events (r : Runner σ) (began : Nat) (result : Except RunError Envelope)
    (p : Progress σ) :
    (r.conclude began result p).events = p.events ++ failure result ++
      [.runComplete (finalStatus result) (r.clock p.world - began) p.book.steps.length] := by
  cases result <;> simp [conclude, Progress.emit, failure, finalStatus]

theorem conclude_statuses (r : Runner σ) (began : Nat) (result : Except RunError Envelope)
    (p : Progress σ) : (r.conclude began result p).book.statuses = p.book.statuses := by
  cases result <;> rfl

theorem finalStatus_completed (result : Except RunError Envelope) :
    finalStatus result = .completed ↔ ∃ e, result = .ok e := by
  rcases result with e | e
  · cases e <;> simp [finalStatus, RunError.status]
  · simp [finalStatus]

theorem finalStatus_terminated (result : Except RunError Envelope) :
    finalStatus result = .terminated ↔
      ∃ id kind label, result = .error (.stranded id kind label) := by
  rcases result with e | e
  · cases e <;> simp [finalStatus, RunError.status]
  · simp [finalStatus]

theorem finalStatus_failed (result : Except RunError Envelope) :
    finalStatus result = .failed ↔ (∀ e, result ≠ .ok e) ∧
      ∀ id kind label, result ≠ .error (.stranded id kind label) := by
  rcases result with e | e
  · cases e <;> simp [finalStatus, RunError.status]
  · simp [finalStatus]

theorem cardError_mem (r : Runner σ) (index number : Nat) (visits : List (Visit σ))
    (stop : Stop σ) (id error : String) :
    .cardError id error ∈ r.visitEvents index visits ++ stopEvents number stop ↔
      .cardError id error ∈ stopEvents number stop := by
  induction visits generalizing index with
  | nil => rfl
  | cons v vs ih =>
    simpa [visitEvents, startEvent] using ih (index + 1)

theorem tallied_keys {index : Nat} {cards : List Card} {events : List Event}
    (h : CardEvents index cards events) {m : StatusMap} (hm : ∀ c ∈ cards, c.id ∈ m.keys) :
    (events.foldl tally m).keys = m.keys := by
  induction h generalizing m with
  | none index => rfl
  | failed index c error =>
    have hc := hm c (by simp)
    have hstart := StatusMap.keys_set_of_mem hc .running
    show (StatusMap.set c.id .error (m.set c.id .running)).keys = m.keys
    rw [StatusMap.keys_set_of_mem (by rwa [hstart]), hstart]
  | @carried index c ms cards events rest ih =>
    have hc := hm c (by simp)
    have hstart := StatusMap.keys_set_of_mem hc .running
    have hdone := StatusMap.keys_set_of_mem (by rwa [hstart]) .success
    show (events.foldl tally (StatusMap.set c.id .success (m.set c.id .running))).keys = m.keys
    rw [ih (fun d hd => by rw [hdone, hstart]; exact hm d (by simp [hd])), hdone, hstart]

theorem tallied_visits (r : Runner σ) (index : Nat) (visits : List (Visit σ)) (m : StatusMap)
    (id : String) :
    ((r.visitEvents index visits).foldl tally m).get? id =
      if id ∈ visits.map (·.card.id) then some .success else m.get? id := by
  induction visits generalizing index m with
  | nil => simp [visitEvents]
  | cons v vs ih =>
    show ((r.visitEvents (index + 1) vs).foldl tally
      (StatusMap.set v.card.id .success (m.set v.card.id .running))).get? id = _
    rw [ih, StatusMap.get?_set, StatusMap.get?_set]
    by_cases hm : id ∈ vs.map (·.card.id)
    · simp only [List.map_cons, List.mem_cons, hm, or_true, if_true]
    · by_cases hid : v.card.id = id
      · simp [hid]
      · have hid' : ¬ id = v.card.id := Ne.symm hid
        simp only [List.map_cons, List.mem_cons, hm, hid, hid', or_self, if_false]

section Journey

variable {r : Runner σ} {g : Graph} {c : Card} {previous : Option Envelope} {s s' : σ}
  {visits : List (Visit σ)} {stop : Stop σ}

theorem Journey.stopEvents_failed (h : Journey r g c previous s visits stop s') (index : Nat)
    (id error : String) :
    .cardError id error ∈ stopEvents index stop ↔
      ∃ kind label cause, stop.result = .error (.executor id kind label cause) ∧
        cause.message = error := by
  cases stop with
  | cancelled d => simp [stopEvents, Stop.result]
  | unregistered d => simp [stopEvents, startEvent, Stop.result, eq_comm]
  | failed d given before cause after => simp [stopEvents, startEvent, Stop.result, eq_comm]
  | halted result =>
    obtain ⟨-, v, -, hf⟩ := h.stands
    simp [stopEvents, Stop.result, (follow_halt_ne hf).2.2]

end Journey

/-- A run that tells the truth: `cards` are the cards that it began and
`told` their events. -/
structure TellsTruth (r : Runner σ) (g : Graph) (world : σ) (o : Outcome σ)
    (cards : List Card) (told : List Event) (status : RunStatus) (ms : Nat) : Prop where
  events : o.progress.events = opening g ++ told ++ failure o.result ++
    [.runComplete status ms (completed told).length]
  numbered : CardEvents 1 cards told
  route : ∃ n, cards <+: g.path n
  failed : ∀ id error, .cardError id error ∈ told ↔
    ∃ kind label cause, o.result = .error (.executor id kind label cause) ∧
      cause.message = error
  status_completed : status = .completed ↔ ∃ e, o.result = .ok e
  status_terminated : status = .terminated ↔
    ∃ id kind label, o.result = .error (.stranded id kind label)
  status_failed : status = .failed ↔ (∀ e, o.result ≠ .ok e) ∧
    ∀ id kind label, o.result ≠ .error (.stranded id kind label)
  steps : o.progress.book.steps.map (·.card) = completed told
  one_running : ∀ q, Passes r g world q → ∃ who, q.book.statuses.Busy who
  tallied : (∀ id kind label, o.result ≠ .error (.stranded id kind label)) →
    o.progress.book.statuses = told.foldl tally (RunState.ofGraph g).statuses
  keys : ∀ e, o.result = .ok e → o.progress.book.statuses.keys.Nodup ∧
    ∀ id, id ∈ o.progress.book.statuses.keys ↔ id ∈ g.cards.map (·.id)
  statuses : ∀ e, o.result = .ok e → ∀ id ∈ g.cards.map (·.id),
    o.progress.book.statuses.get? id =
      some (if id ∈ completed told then .success else .pending)

theorem journey_tells_truth {r : Runner σ} {g : Graph} {start : Card} {world s' : σ}
    {visits : List (Visit σ)} {stop : Stop σ} (hs : g.start? = some start)
    (h : Journey r g start none world visits stop s') :
    TellsTruth r g world ⟨stop.result, r.travelled g start world visits stop⟩
      (begun visits stop) (r.cardEvents visits stop) (finalStatus stop.result)
      (r.clock (r.stopped (1 + visits.length) stop
        (r.visitedAll 1 visits (departure g start world))).world - r.clock world) := by
  have hnumbered : CardEvents 1 (begun visits stop) (r.cardEvents visits stop) :=
    r.cardEvents_numbered 1 visits stop
  have hroute : begun visits stop <+: g.path visits.length := by
    rw [g.path_start hs]
    exact h.begun_path
  have hcompleted : completed (r.cardEvents visits stop) = visits.map (·.card.id) :=
    r.completed_cardEvents 1 _ visits stop
  have htallied : (∀ id kind label, stop.result ≠ .error (.stranded id kind label)) →
      (r.travelled g start world visits stop).book.statuses =
        (r.cardEvents visits stop).foldl tally (RunState.ofGraph g).statuses := by
    intro hstop
    rw [travelled, conclude_statuses, stopped_statuses r _ hstop, visitedAll_statuses,
      cardEvents, List.foldl_append]
    rfl
  have hok : ∀ e, stop.result = .ok e →
      ∀ id kind label, stop.result ≠ .error (.stranded id kind label) := by
    intro e he
    simp [he]
  exact {
    events := by
      rw [travelled, conclude_events, stopped_events, visitedAll_events, stopped_steps,
        visitedAll_steps, hcompleted, opening, hs]
      simp [departure, Progress.emit, cardEvents, RunState.begin, RunState.ofGraph]
    numbered := hnumbered
    route := ⟨visits.length, hroute⟩
    failed := fun id error => by
      rw [cardEvents, cardError_mem]
      exact h.stopEvents_failed (1 + visits.length) id error
    status_completed := finalStatus_completed stop.result
    status_terminated := finalStatus_terminated stop.result
    status_failed := finalStatus_failed stop.result
    steps := by
      rw [travelled_steps, hcompleted, List.map_map]
      rfl
    one_running := fun q => passes_busy
    tallied := htallied
    keys := fun e he => by
      have hmem : ∀ c ∈ begun visits stop, c.id ∈ (RunState.ofGraph g).statuses.keys := by
        intro c hc
        have hin := g.path_mem visits.length c (hroute.subset hc)
        exact (ofGraph_keys g c.id).mpr (List.mem_map_of_mem hin)
      rw [htallied (hok e he), tallied_keys hnumbered hmem]
      exact ⟨pending_nodup g.cards List.nodup_nil, ofGraph_keys g⟩
    statuses := fun e he id hid => by
      have hstop : stopEvents (1 + visits.length) stop = [] := by
        cases stop with
        | halted => rfl
        | cancelled | unregistered | failed => cases he
      rw [htallied (hok e he), hcompleted, cardEvents, hstop, List.append_nil, tallied_visits,
        ofGraph_get?, if_pos hid]
      split <;> rfl }

theorem unstartable_tells_truth {r : Runner σ} {g : Graph} (hs : g.start? = none) (world : σ) :
    TellsTruth r g world ⟨.error (unstartable g), r.conclude (r.clock world)
      (.error (unstartable g)) (unwritten g world)⟩ [] [] .failed 0 := by
  obtain ⟨m, hm⟩ := unstartable_configuration g
  exact {
    events := by
      rw [conclude_events, opening, hs, hm]
      simp [unwritten, finalStatus, RunError.status, completed, RunState.begin, RunState.ofGraph]
    numbered := .none 1
    route := ⟨0, List.nil_prefix⟩
    failed := by simp [hm]
    status_completed := by simp [hm]
    status_terminated := by simp [hm]
    status_failed := by simp [hm]
    steps := by
      rw [conclude_steps]
      rfl
    one_running := fun q => passes_busy
    tallied := fun _ => conclude_statuses _ _ _ _
    keys := by simp [hm]
    statuses := by simp [hm] }

/-- Every run that ends has told the truth. -/
theorem run_tells_truth (r : Runner σ) (g : Graph) (turns : Nat) (world : σ) (o : Outcome σ)
    (h : r.run g turns world = some o) :
    ∃ cards told status ms, TellsTruth r g world o cards told status ms := by
  cases hs : g.start? with
  | some start =>
    obtain ⟨visits, stop, hj, -, rfl⟩ := run_journey hs h
    exact ⟨_, _, _, _, journey_tells_truth hs hj⟩
  | none =>
    rw [run_unstartable hs] at h
    cases h
    exact ⟨_, _, _, _, unstartable_tells_truth hs world⟩

def aside : Graph where
  cards := [.new "s" .start, .new "e" .finish, .new "t" .textInput]
  connections := [.new "on" "s" "e"]

theorem aside_tells_truth :
    ∃ o, counting.run aside 2 0 = some o ∧ o.result = .ok .empty ∧
      o.progress.book.statuses = [("s", .success), ("e", .success), ("t", .pending)] ∧
      ∃ cards told status ms, TellsTruth counting aside 0 o cards told status ms :=
  ⟨_, rfl, rfl, rfl, run_tells_truth counting aside 2 0 _ rfl⟩

end Runner

end Cardwalk
