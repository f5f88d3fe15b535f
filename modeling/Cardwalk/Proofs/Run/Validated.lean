import Cardwalk.Proofs.Graph.Validity
import Cardwalk.Proofs.Run.Underway

/-!
# Runs of graphs without errors

The check of a graph and the walk through it look at the connections in two
different ways: the check looks at all of them and at their ports, the walk
takes the first that leads on and ignores the ports. Still a report without
errors is enough for a run to begin at a start card, never to come back to
one, never to lead nowhere, and to end at its first end card.
-/

set_option autoImplicit false

namespace Cardwalk

variable {σ : Type}

namespace Graph

variable {g : Graph}

theorem station_mem {n : Nat} {c : Card} (h : g.station n = some c) : c ∈ g.cards :=
  g.path_mem n c (List.mem_of_getElem? h)

theorem Valid.station_succ (hv : g.Valid) {n : Nat} {c d : Card} (hc : g.station n = some c)
    (hd : g.station (n + 1) = some d) : c.kind ≠ .finish ∧ d.kind ≠ .start := by
  rw [Graph.station_succ, hc, Option.bind_some] at hd
  obtain ⟨hfinish, -, hstart⟩ := hv.next (station_mem hc) hd
  exact ⟨hfinish, hstart⟩

end Graph

namespace Runner

/-- What a run keeps to as far as it has come: `cards` are the cards it began,
whether they were carried out or not, and `calls` what the executors wrote
down. -/
structure Proceeds (g : Graph) (p : Progress σ) (cards : List Card)
    (calls : List (Attempt σ)) : Prop where
  told : started p.events = cards.map told
  called : calls.map (·.card) <+: cards
  known : ∀ c ∈ cards, c ∈ g.cards
  first : ∀ c ∈ cards.head?, g.start? = some c
  once : ∀ c ∈ cards.tail, c.kind ≠ .start ∧ ∀ start, g.start? = some start → c.id ≠ start.id
  last : ∀ before c after, cards = before ++ c :: after → c.kind = .finish → after = []

structure GoesOn (g : Graph) (s : Standing σ) (cards : List Card)
    (calls : List (Attempt σ)) : Prop extends Proceeds g s.progress cards calls where
  completes : ∀ step ∈ s.progress.book.steps, step.kind = .finish →
    ∃ e p, s = .ended (.ok e) p

structure GoesWell (g : Graph) (o : Outcome σ) (cards : List Card) (calls : List (Attempt σ)) :
    Prop extends Proceeds g o.progress cards calls where
  configured : ∀ m, o.result ≠ .error (.configuration m)
  joined : ∀ id source target, o.result ≠ .error (.dangling id source target)
  completes : ∀ step ∈ o.progress.book.steps, step.kind = .finish → ∃ e, o.result = .ok e

theorem called_begun (visits : List (Visit σ)) (stop : Stop σ) :
    (callsOf visits stop).map (·.card) <+: begun visits stop := by
  cases stop <;> simp [callsOf, begun, Stop.attempts, Stop.cards, Visit.attempt,
    Function.comp_def]

theorem proceeds_of_stations {g : Graph} (hv : g.Valid) {p : Progress σ} {cards : List Card}
    {calls : List (Attempt σ)} (ht : started p.events = cards.map told)
    (hc : calls.map (·.card) <+: cards)
    (h : ∀ i c, cards[i]? = some c → g.station i = some c) : Proceeds g p cards calls where
  told := ht
  called := hc
  known c hm := by
    obtain ⟨i, hi⟩ := List.mem_iff_getElem?.mp hm
    exact Graph.station_mem (h i c hi)
  first c hm := by
    rw [List.head?_eq_getElem?] at hm
    rw [← g.station_zero]
    exact h 0 c hm
  once c hm := by
    obtain ⟨i, hi⟩ := List.mem_iff_getElem?.mp hm
    have hstation := h (i + 1) c (by rwa [List.getElem?_tail] at hi)
    obtain ⟨b, hb⟩ := Graph.station_before hstation (Nat.le_succ i)
    have hk := (hv.station_succ hb hstation).2
    refine ⟨hk, fun start hs hid => hk ?_⟩
    obtain ⟨hsm, hsk⟩ := g.start_mem hs
    rw [hv.eq_of_id (Graph.station_mem hstation) hsm hid, hsk]
  last before c after hcards hk := by
    have hstation := h before.length c (by rw [hcards]; simp)
    cases after with
    | nil => rfl
    | cons d after =>
      have hnext := h (before.length + 1) d (by rw [hcards]; simp)
      exact absurd hk (hv.station_succ hstation hnext).1

theorem journey_goes_well {r : Runner σ} {g : Graph} {start : Card} {world s' : σ}
    {visits : List (Visit σ)} {stop : Stop σ} (hv : g.Valid) (hs : g.start? = some start)
    (h : Journey r g start none world visits stop s') :
    GoesWell g ⟨stop.result, r.travelled g start world visits stop⟩ (begun visits stop)
      (callsOf visits stop) := by
  have hkeeps := journey_keeps_to_path hs h
  have hproceeds : Proceeds g (r.travelled g start world visits stop) (begun visits stop)
      (callsOf visits stop) :=
    proceeds_of_stations hv (r.travelled_started g start world visits stop)
      (called_begun visits stop) fun _ _ => h.begun_station hs
  exact {
    toProceeds := hproceeds
    configured := fun m hm => by
      simpa [hs] using hkeeps.configuration.mp ⟨m, hm⟩
    joined := fun id source target hd => by
      obtain ⟨v, e, -, he, hnone, -⟩ := (hkeeps.dangling id source target).mp hd
      obtain ⟨d, hsome, -⟩ := hv.target he
      simp [hnone] at hsome
    completes := fun step hm hk => by
      rw [hkeeps.steps] at hm
      obtain ⟨v, hvm, rfl⟩ := List.mem_map.mp hm
      -- Nothing was begun behind the end card, so the run was decided there.
      obtain ⟨before, after, rfl⟩ := List.append_of_mem hvm
      have ha := hproceeds.last (before.map (·.card)) v.card
        (after.map (·.card) ++ stop.cards) (by simp [begun]) hk
      obtain ⟨hnil, -⟩ := List.append_eq_nil_iff.mp ha
      obtain rfl := List.map_eq_nil_iff.mp hnil
      refine ⟨_, (hkeeps.completed _).mpr ⟨v, by simp, ?_, hk, rfl⟩⟩
      have hknown := hproceeds.known v.card (by simp [begun])
      cases hout : g.outgoing? v.card.id with
      | none => rfl
      | some e => exact absurd hk (hv.source hknown hout) }

section Standing

variable {r : Runner σ} {g : Graph} {start : Card} {world : σ} {turns : Nat}

theorem ended_goes_on (hv : g.Valid) (hs : g.start? = some start)
    {result : Except RunError Envelope} {p : Progress σ}
    (h : r.standing g world turns = .ended result p) :
    ∃ cards calls, r.recorded.standing g (world, []) turns =
        (r.standing g world turns).beside calls ∧
      GoesOn g (r.standing g world turns) cards calls := by
  obtain ⟨visits, stop, hj, rfl, hp, hrec⟩ := standing_journey hs h
  refine ⟨begun visits stop, callsOf visits stop, hrec, ?_⟩
  have hwell := journey_goes_well hv hs hj
  have htravelled : r.travelled g start world visits stop =
      r.conclude (r.clock world) stop.result p := by
    rw [hp]
    rfl
  rw [htravelled] at hwell
  rw [h]
  exact {
    toProceeds := proceeds_of_stations hv
      (by rw [← hwell.told]; exact (conclude_started _ _ _ _).symm)
      (called_begun visits stop) fun _ _ => hj.begun_station hs
    completes := fun step hm hk => by
      obtain ⟨e, he⟩ := hwell.completes step (by rw [conclude_steps]; exact hm) hk
      exact ⟨e, p, congrArg (Standing.ended · p) he⟩ }

theorem ahead_goes_on (hv : g.Valid) (hs : g.start? = some start) {index : Nat} {c : Card}
    {previous : Option Envelope} {p : Progress σ}
    (h : r.standing g world turns = .ahead index c previous p) :
    ∃ cards calls, r.recorded.standing g (world, []) turns =
        (r.standing g world turns).beside calls ∧
      GoesOn g (r.standing g world turns) cards calls := by
  obtain ⟨visits, hcarried, hlength, -, hp, hrec⟩ := standing_underway hs h
  refine ⟨visits.map (·.card), visits.map Visit.attempt, hrec, ?_⟩
  have hstations : ∀ i d, (visits.map (·.card))[i]? = some d → g.station i = some d := by
    intro i d hd
    rw [List.getElem?_map] at hd
    obtain ⟨v, hv, rfl⟩ := Option.map_eq_some_iff.mp hd
    exact (hcarried i v hv).1
  rw [h]
  exact {
    toProceeds := proceeds_of_stations hv
      (by
        rw [Standing.progress, hp, visitedAll_started, departure_started, List.nil_append,
          List.map_map]
        rfl)
      (by rw [List.map_map]; exact List.prefix_refl _) hstations
    completes := fun step hm hk => by
      -- Behind every card that was carried out the path goes on.
      rw [Standing.progress, hp, visitedAll_steps] at hm
      obtain ⟨v, hvm, rfl⟩ := List.mem_map.mp hm
      obtain ⟨i, hi⟩ := List.mem_iff_getElem?.mp hvm
      obtain ⟨hlt, -⟩ := List.getElem?_eq_some_iff.mp hi
      obtain ⟨d, hd⟩ := Graph.station_before (standing_ahead h).2.1
        (show i + 1 ≤ turns by omega)
      exact absurd hk (hv.station_succ (hcarried i v hi).1 hd).1 }

end Standing

/-- Every run of a graph whose report has no errors goes well, as far as one
follows it and, where it ends, to its end. -/
theorem validated_run_goes_well (r : Runner σ) (g : Graph) (turns : Nat) (world : σ)
    (hg : g.validate.errors = []) :
    (∃ cards calls,
      r.recorded.standing g (world, []) turns = (r.standing g world turns).beside calls ∧
      GoesOn g (r.standing g world turns) cards calls) ∧
    ∀ o, r.run g turns world = some o → ∃ cards calls,
      r.recorded.run g turns (world, []) = some ⟨o.result, o.progress.beside calls⟩ ∧
      GoesWell g o cards calls := by
  have hv := g.errors_eq_nil.mp hg
  obtain ⟨start, hs⟩ := hv.started
  constructor
  · cases hst : r.standing g world turns with
    | ended result p => exact hst ▸ ended_goes_on hv hs hst
    | ahead index c previous p => exact hst ▸ ahead_goes_on hv hs hst
  · intro o h
    obtain ⟨visits, stop, hj, hl, rfl⟩ := run_journey hs h
    exact ⟨begun visits stop, callsOf visits stop, recorded_run hs hj turns hl,
      journey_goes_well hv hs hj⟩

def line : Graph where
  cards := [.new "s" .start, .new "other" .start, .new "t" .textInput, .new "e" .finish]
  connections := [.new "on" "s" "t", .new "out" "t" "e", .new "in" "other" "e"]

theorem line_goes_well :
    line.validate.errors = [] ∧
      (∃ cards calls,
        counting.recorded.standing line (0, []) 2 = (counting.standing line 0 2).beside calls ∧
        GoesOn line (counting.standing line 0 2) cards calls) ∧
      ∃ o, counting.run line 3 0 = some o ∧ o.result = .ok .empty ∧ ∃ cards calls,
        counting.recorded.run line 3 (0, []) = some ⟨o.result, o.progress.beside calls⟩ ∧
        GoesWell line o cards calls :=
  ⟨by decide, (validated_run_goes_well counting line 2 0 (by decide)).1, _, rfl, rfl,
    (validated_run_goes_well counting line 3 0 (by decide)).2 _ rfl⟩

end Runner

end Cardwalk
