import Mathlib.Data.List.Perm.Subperm
import Cardwalk.Proofs.Graph.Validity
import Cardwalk.Proofs.Run.Path

/-!
# The path of a graph

The path of a graph stays within its cards. It either comes to an end or
leads back to a card that it has been to, and then it never ends.
-/

set_option autoImplicit false

namespace Cardwalk.Graph

variable {g : Graph}

theorem next_mem {c d : Card} (h : g.next? c = some d) : d ∈ g.cards := by
  obtain ⟨e, -, hd⟩ := Option.bind_eq_some_iff.mp h
  exact (card_mem hd).1

theorem pathFrom_mem {c : Card} (hc : c ∈ g.cards) (n : Nat) :
    ∀ d ∈ g.pathFrom n c, d ∈ g.cards := by
  induction n generalizing c with
  | zero => simpa [pathFrom] using hc
  | succ n ih =>
    cases hn : g.next? c with
    | none => simpa [g.pathFrom_dead_end hn] using hc
    | some d =>
      rw [g.pathFrom_next hn]
      intro e he
      rcases List.mem_cons.mp he with rfl | he
      · exact hc
      · exact ih (next_mem hn) e he

theorem path_mem (g : Graph) (n : Nat) : ∀ d ∈ g.path n, d ∈ g.cards := by
  cases hs : g.start? with
  | none => simp [path, hs]
  | some start =>
    rw [g.path_start hs]
    exact pathFrom_mem (start_mem hs).1 n

theorem pathFrom_length_le (g : Graph) (n : Nat) (c : Card) :
    (g.pathFrom n c).length ≤ n + 1 := by
  induction n generalizing c with
  | zero => simp [pathFrom]
  | succ n ih =>
    cases hn : g.next? c with
    | none => simp [g.pathFrom_dead_end hn]
    | some d =>
      have hd := ih d
      rw [g.pathFrom_next hn, List.length_cons]
      omega

theorem pathFrom_getElem? {i n : Nat} (h : i ≤ n) (c : Card) :
    (g.pathFrom n c)[i]? = (g.pathFrom i c)[i]? := by
  induction i generalizing n c with
  | zero => rw [← List.head?_eq_getElem?, ← List.head?_eq_getElem?, pathFrom_head, pathFrom_head]
  | succ i ih =>
    obtain ⟨n, rfl⟩ := Nat.exists_eq_add_of_le' (Nat.le_of_add_left_le h)
    cases hn : g.next? c with
    | none => simp [g.pathFrom_dead_end hn]
    | some d =>
      rw [g.pathFrom_next hn, g.pathFrom_next hn, List.getElem?_cons_succ,
        List.getElem?_cons_succ]
      exact ih (Nat.le_of_succ_le_succ h) d

theorem pathFrom_step (g : Graph) (n : Nat) (c : Card) :
    (g.pathFrom (n + 1) c)[n + 1]? = (g.pathFrom n c)[n]?.bind g.next? := by
  induction n generalizing c with
  | zero => cases hn : g.next? c <;> simp [pathFrom, hn]
  | succ n ih =>
    cases hn : g.next? c with
    | none => simp [g.pathFrom_dead_end hn]
    | some d =>
      rw [g.pathFrom_next hn, g.pathFrom_next hn, List.getElem?_cons_succ,
        List.getElem?_cons_succ]
      exact ih d

/-- The card that the path has come to after `n` steps. -/
def station (g : Graph) (n : Nat) : Option Card := (g.path n)[n]?

theorem station_zero (g : Graph) : g.station 0 = g.start? := by
  cases hs : g.start? <;> simp [station, path, hs, pathFrom]

theorem station_succ (g : Graph) (n : Nat) :
    g.station (n + 1) = (g.station n).bind g.next? := by
  cases hs : g.start? with
  | none => simp [station, path, hs]
  | some start =>
    rw [station, station, g.path_start hs, g.path_start hs]
    exact g.pathFrom_step n start

theorem path_getElem? {i n : Nat} (h : i ≤ n) : (g.path n)[i]? = g.station i := by
  cases hs : g.start? with
  | none => simp [station, path, hs]
  | some start =>
    rw [station, g.path_start hs, g.path_start hs]
    exact pathFrom_getElem? h start

theorem path_length_le (g : Graph) (n : Nat) : (g.path n).length ≤ n + 1 := by
  cases hs : g.start? with
  | none => simp [path, hs]
  | some start =>
    rw [g.path_start hs]
    exact g.pathFrom_length_le n start

theorem station_before {n : Nat} {c : Card} (h : g.station n = some c) {i : Nat} (hi : i ≤ n) :
    ∃ d, g.station i = some d := by
  induction n generalizing c with
  | zero =>
    obtain rfl : i = 0 := by omega
    exact ⟨c, h⟩
  | succ n ih =>
    rcases Nat.lt_or_eq_of_le hi with hi | rfl
    · rw [station_succ] at h
      obtain ⟨d, hd, -⟩ := Option.bind_eq_some_iff.mp h
      exact ih hd (by omega)
    · exact ⟨c, h⟩

theorem next?_congr {c d : Card} (h : c.id = d.id) : g.next? c = g.next? d := by
  simp [next?, h]

/-- The path leads back to a card that it has been to. -/
def Loops (g : Graph) : Prop := ∃ n, ¬ (g.path n).Nodup

theorem loops_iff :
    g.Loops ↔ ∃ i j c, i < j ∧ g.station i = some c ∧ g.station j = some c := by
  constructor
  · rintro ⟨n, hn⟩
    simp only [List.nodup_iff_getElem?_ne_getElem?, not_forall, not_not] at hn
    obtain ⟨i, j, hij, hj, heq⟩ := hn
    have hle := g.path_length_le n
    rw [path_getElem? (by omega), path_getElem? (by omega)] at heq
    have hc : (g.path n)[j]? = some (g.path n)[j] := List.getElem?_eq_getElem hj
    rw [path_getElem? (by omega)] at hc
    exact ⟨i, j, _, hij, heq.trans hc, hc⟩
  · rintro ⟨i, j, c, hij, hi, hj⟩
    refine ⟨j, fun hn => ?_⟩
    have hlt : j < (g.path j).length := (List.getElem?_eq_some_iff.mp hj).1
    rw [← path_getElem? (Nat.le_of_lt hij)] at hi
    exact List.nodup_iff_getElem?_ne_getElem?.mp hn i j hij hlt (hi.trans hj.symm)

theorem station_periodic {i j : Nat} (h : g.station i = g.station j) (k : Nat) :
    g.station (i + k) = g.station (j + k) := by
  induction k with
  | zero => exact h
  | succ k ih => rw [← Nat.add_assoc, ← Nat.add_assoc, station_succ, station_succ, ih]

theorem Loops.station (h : g.Loops) (n : Nat) : ∃ c, g.station n = some c := by
  obtain ⟨i, j, c, hij, hi, hj⟩ := loops_iff.mp h
  induction n using Nat.strongRecOn with
  | ind n ih =>
    rcases Nat.le_total n j with hn | hn
    · exact station_before hj hn
    · -- One round earlier the path was at the same card.
      have hround := station_periodic (hi.trans hj.symm) (n - j)
      rw [show j + (n - j) = n by omega] at hround
      rw [← hround]
      exact ih (i + (n - j)) (by omega)

theorem path_length_le_cards (h : ¬ g.Loops) (n : Nat) :
    (g.path n).length ≤ g.cards.length := by
  have hnodup : (g.path n).Nodup := by
    by_contra hn
    exact h ⟨n, hn⟩
  exact (List.subperm_of_subset hnodup (g.path_mem n)).length_le

theorem station_lt (h : ¬ g.Loops) {n : Nat} {c : Card} (hc : g.station n = some c) :
    n < g.cards.length := by
  have hlt : n < (g.path n).length := (List.getElem?_eq_some_iff.mp hc).1
  exact Nat.lt_of_lt_of_le hlt (path_length_le_cards h n)

theorem station_id_ne (h : ¬ g.Loops) {i j : Nat} (hij : i < j) {c d : Card}
    (hi : g.station i = some c) (hj : g.station j = some d) : c.id ≠ d.id := by
  intro hid
  -- From two cards of one identifier the path goes on alike.
  obtain ⟨e, he⟩ := station_before hj (Nat.succ_le_of_lt hij)
  have hnext : g.station (j + 1) = some e := by
    rw [station_succ, hj, Option.bind_some, ← next?_congr hid]
    simpa [station_succ, hi] using he
  exact h (loops_iff.mpr ⟨i + 1, j + 1, e, by omega, he, hnext⟩)

theorem path_ids_nodup (h : ¬ g.Loops) (n : Nat) : ((g.path n).map (·.id)).Nodup := by
  rw [List.nodup_iff_getElem?_ne_getElem?]
  intro i j hij hj heq
  rw [List.length_map] at hj
  have hle := g.path_length_le n
  have hjs : (g.path n)[j]? = some (g.path n)[j] := List.getElem?_eq_getElem hj
  rw [path_getElem? (by omega)] at hjs
  obtain ⟨c, hc⟩ := station_before hjs (Nat.le_of_lt hij)
  rw [List.getElem?_map, List.getElem?_map, path_getElem? (by omega), path_getElem? (by omega),
    hc, hjs] at heq
  exact station_id_ne h hij hc hjs (by simpa using heq)

end Cardwalk.Graph
