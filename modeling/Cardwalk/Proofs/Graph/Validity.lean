import Mathlib.Data.List.Nodup
import Cardwalk.Graph.Validation

/-!
# Graphs without errors

A report without errors says exactly that identifiers are not repeated, that
there is a start card, and that every connection joins two known cards at
ports they have. So the way from a card never leads to a start card, never
leads nowhere, and never leads on from an end card.
-/

set_option autoImplicit false

namespace Cardwalk.Graph

/-- What a graph without errors is like. -/
structure Valid (g : Graph) : Prop where
  distinct : (g.cards.map (·.id)).Nodup
  started : ∃ start, g.start? = some start
  joined : ∀ e ∈ g.connections, e.source ≠ e.target ∧
    (∃ c, g.card? e.source = some c ∧ e.sourcePort < c.kind.outputs) ∧
    ∃ d, g.card? e.target = some d ∧ e.targetPort < d.kind.inputs

theorem repeated_eq_nil (seen xs : List String) :
    repeated seen xs = [] ↔ xs.Nodup ∧ ∀ x ∈ xs, x ∉ seen := by
  induction xs generalizing seen with
  | nil => simp [repeated]
  | cons x xs ih =>
    by_cases hx : x ∈ seen
    · simp [repeated, hx]
    · simp only [repeated, List.contains_iff_mem, hx, if_false, ih, List.nodup_cons,
        List.mem_cons, not_or]
      constructor
      · rintro ⟨hn, h⟩
        refine ⟨⟨fun hm => (h x hm).1 rfl, hn⟩, ?_⟩
        rintro y (rfl | hy)
        · exact hx
        · exact (h y hy).2
      · rintro ⟨⟨hm, hn⟩, h⟩
        exact ⟨hn, fun y hy => ⟨fun e => hm (e ▸ hy), h y (.inr hy)⟩⟩

theorem startErrors_eq_nil (g : Graph) :
    g.startErrors = [] ↔ ∃ start, g.start? = some start := by
  rw [startErrors, start?_eq_head?]
  cases g.startCards <;> simp

theorem sourceErrors_eq_nil (g : Graph) (e : Connection) :
    g.sourceErrors e = [] ↔
      ∃ c, g.card? e.source = some c ∧ e.sourcePort < c.kind.outputs := by
  unfold sourceErrors
  cases g.card? e.source <;> simp

theorem targetErrors_eq_nil (g : Graph) (e : Connection) :
    g.targetErrors e = [] ↔
      ∃ d, g.card? e.target = some d ∧ e.targetPort < d.kind.inputs := by
  unfold targetErrors
  cases g.card? e.target <;> simp

theorem connectionErrors_eq_nil (g : Graph) (e : Connection) :
    g.connectionErrors e = [] ↔ e.source ≠ e.target ∧
      (∃ c, g.card? e.source = some c ∧ e.sourcePort < c.kind.outputs) ∧
      ∃ d, g.card? e.target = some d ∧ e.targetPort < d.kind.inputs := by
  simp only [connectionErrors, List.append_eq_nil_iff, sourceErrors_eq_nil,
    targetErrors_eq_nil, Connection.isLoop, and_assoc]
  simp

/-- A report is free of errors exactly for a graph of this kind. -/
theorem errors_eq_nil (g : Graph) : g.validate.errors = [] ↔ g.Valid := by
  unfold validate
  split
  · rename_i hg
    have hs : g.start? = none := by simp [start?, List.isEmpty_iff.mp hg]
    simp only [List.cons_ne_nil, false_iff]
    rintro ⟨-, ⟨start, h⟩, -⟩
    simp [hs] at h
  · simp only [List.append_eq_nil_iff, List.map_eq_nil_iff, repeated_eq_nil,
      startErrors_eq_nil, List.flatMap_eq_nil_iff, connectionErrors_eq_nil]
    constructor
    · rintro ⟨⟨⟨hd, -⟩, hs⟩, hc⟩
      exact ⟨hd, hs, hc⟩
    · rintro ⟨hd, hs, hc⟩
      exact ⟨⟨⟨hd, by simp⟩, hs⟩, hc⟩

theorem card_mem {g : Graph} {id : String} {c : Card} (h : g.card? id = some c) :
    c ∈ g.cards ∧ c.id = id :=
  ⟨List.mem_of_find?_eq_some h, by simpa using List.find?_some h⟩

theorem start_mem {g : Graph} {start : Card} (h : g.start? = some start) :
    start ∈ g.cards ∧ start.kind = .start :=
  ⟨List.mem_of_find?_eq_some h, by simpa using List.find?_some h⟩

namespace Valid

variable {g : Graph}

theorem eq_of_id (hv : g.Valid) {c d : Card} (hc : c ∈ g.cards) (hd : d ∈ g.cards)
    (h : c.id = d.id) : c = d :=
  List.inj_on_of_nodup_map hv.distinct hc hd h

theorem source (hv : g.Valid) {c : Card} {e : Connection} (hc : c ∈ g.cards)
    (he : g.outgoing? c.id = some e) : c.kind ≠ .finish := by
  have hm : e ∈ g.connections := List.mem_of_find?_eq_some he
  have hid : e.source = c.id := by simpa using List.find?_some he
  obtain ⟨-, ⟨d, hd, hp⟩, -⟩ := hv.joined e hm
  obtain ⟨hdm, hdi⟩ := card_mem hd
  obtain rfl : d = c := hv.eq_of_id hdm hc (by rw [hdi, hid])
  intro hk
  simp [hk, CardKind.outputs] at hp

theorem target (hv : g.Valid) {id : String} {e : Connection}
    (he : g.outgoing? id = some e) : ∃ d, g.card? e.target = some d ∧ d.kind ≠ .start := by
  obtain ⟨-, -, d, hd, hp⟩ := hv.joined e (List.mem_of_find?_eq_some he)
  refine ⟨d, hd, fun hk => ?_⟩
  simp [hk, CardKind.inputs] at hp

theorem next (hv : g.Valid) {c d : Card} (hc : c ∈ g.cards) (hn : g.next? c = some d) :
    c.kind ≠ .finish ∧ d ∈ g.cards ∧ d.kind ≠ .start := by
  obtain ⟨e, he, hd⟩ := Option.bind_eq_some_iff.mp hn
  obtain ⟨d', hd', hk⟩ := hv.target he
  obtain rfl : d' = d := by simpa [hd] using hd'.symm
  exact ⟨hv.source hc he, (card_mem hd).1, hk⟩

end Valid

end Cardwalk.Graph
