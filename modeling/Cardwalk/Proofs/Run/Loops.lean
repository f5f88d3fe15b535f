import Cardwalk.Proofs.Run.Truth

/-!
# Runs that end

A run has no budget of turns. It ends where the path of its graph ends; where
the path leads back to a card it has been to, only a card that fails or the
token can end the run.
-/

set_option autoImplicit false

namespace Cardwalk

variable {σ : Type}

/-- Ended by a card that failed or by the token. -/
def Interrupted (result : Except RunError Envelope) : Prop :=
  (∃ id kind label cause, result = .error (.executor id kind label cause)) ∨
    ∃ id, result = .error (.cancelled id)

namespace Runner

variable {r : Runner σ} {g : Graph} {world : σ}

theorem run_of_not_loops (r : Runner σ) (hg : ¬ g.Loops) (world : σ) :
    ∃ o, r.run g g.cards.length world = some o := by
  cases ho : r.run g g.cards.length world with
  | some o => exact ⟨o, rfl⟩
  | none =>
    obtain ⟨index, c, previous, p, hst⟩ := run_eq_none.mp ho
    have hlt := g.station_lt hg (standing_ahead hst).2.1
    omega

theorem run_of_loops (hg : g.Loops) {turns : Nat} {o : Outcome σ}
    (h : r.run g turns world = some o) : Interrupted o.result := by
  obtain ⟨start, hs⟩ := hg.station 0
  rw [g.station_zero] at hs
  obtain ⟨visits, stop, hj, -, rfl⟩ := run_journey hs h
  cases stop with
  | cancelled c => exact .inr ⟨c.id, rfl⟩
  | unregistered c => exact .inl ⟨c.id, c.kind, c.label, _, rfl⟩
  | failed c previous before cause after => exact .inl ⟨c.id, c.kind, c.label, cause, rfl⟩
  | halted result =>
    obtain ⟨c, hc⟩ := hg.station visits.length
    have hnone := hj.stands.1
    rw [← g.path_start hs] at hnone
    rw [Graph.station, hnone] at hc
    cases hc

/-- No card comes twice in what a run leaves. -/
structure OnceEach (g : Graph) (o : Outcome σ) : Prop where
  began : (started o.progress.events).length ≤ g.cards.length
  began_once : ((started o.progress.events).map (·.1)).Nodup
  executed : o.progress.book.steps.length ≤ g.cards.length
  executed_once : (o.progress.book.steps.map (·.card)).Nodup

theorem onceEach_of_not_loops (hg : ¬ g.Loops) {turns : Nat} {o : Outcome σ}
    (h : r.run g turns world = some o) : OnceEach g o := by
  cases hs : g.start? with
  | none =>
    rw [run_unstartable hs] at h
    cases h
    have hnil : started [] = [] := rfl
    exact ⟨by simp [conclude_started, hnil], by simp [conclude_started, hnil],
      Nat.zero_le _, List.nodup_nil⟩
  | some start =>
    obtain ⟨visits, stop, hj, -, rfl⟩ := run_journey hs h
    have hroute : begun visits stop <+: g.path visits.length := by
      rw [g.path_start hs]
      exact hj.begun_path
    have hlength := Nat.le_trans hroute.length_le (g.path_length_le_cards hg visits.length)
    have hids : ((begun visits stop).map (·.id)).Nodup :=
      (g.path_ids_nodup hg visits.length).sublist (hroute.sublist.map _)
    have hvisits : visits.map (·.card) <+: begun visits stop := List.prefix_append _ _
    exact {
      began := by rwa [travelled_started, List.length_map]
      began_once := by
        rw [travelled_started, List.map_map]
        exact hids
      executed := by
        have hle := hvisits.length_le
        rw [List.length_map] at hle
        rw [travelled_steps, List.length_map]
        omega
      executed_once := by
        have hsub := hids.sublist (hvisits.sublist.map _)
        rw [List.map_map] at hsub
        rw [travelled_steps, List.map_map]
        exact hsub }

/-- A run ends exactly where the path of its graph does: without a loop it
ends and no card comes twice; with one it ends only where it is interrupted,
and until then it carries out a card every turn. -/
theorem run_ends_unless_loops (r : Runner σ) (g : Graph) (world : σ) :
    (¬ g.Loops → (∃ o, r.run g g.cards.length world = some o) ∧
      ∀ turns o, r.run g turns world = some o → OnceEach g o) ∧
    (g.Loops → (∀ turns o, r.run g turns world = some o → Interrupted o.result) ∧
      ∀ turns, r.run g turns world = none →
        (r.standing g world turns).progress.book.steps.length = turns) := by
  constructor
  · intro hg
    exact ⟨run_of_not_loops r hg world, fun turns o => onceEach_of_not_loops hg⟩
  · intro hg
    refine ⟨fun turns o => run_of_loops hg, fun turns hrun => ?_⟩
    obtain ⟨index, c, previous, p, hst⟩ := run_eq_none.mp hrun
    rw [hst]
    exact (standing_ahead hst).2.2

theorem circle_loops : circle.Loops := by
  have hpath : circle.path 2 =
      [.new "s" .start, .new "t" .textInput, .new "s" .start] := rfl
  exact ⟨2, by simp [hpath]⟩

theorem aside_not_loops : ¬ aside.Loops := by
  intro h
  obtain ⟨c, hc⟩ := h.station 2
  cases hc

theorem aside_ends_circle_loops :
    (∃ o, counting.run aside 3 0 = some o) ∧
      (counting.run circle 3 0 = none ∧
        (counting.standing circle 0 3).progress.book.steps.length = 3) ∧
      ∃ o, counting.run circle 4 0 = some o ∧ Interrupted o.result :=
  ⟨((run_ends_unless_loops counting aside 0).1 aside_not_loops).1,
    ⟨rfl, ((run_ends_unless_loops counting circle 0).2 circle_loops).2 3 rfl⟩,
    _, rfl, ((run_ends_unless_loops counting circle 0).2 circle_loops).1 4 _ rfl⟩

end Runner

end Cardwalk
