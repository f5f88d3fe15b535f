import Cardwalk.Proofs.Suggestion.Distance

/-!
# The name that is proposed

Of the candidates near enough to a misspelt name the nearest is proposed, and
of several equally near the first. Near enough is told in the bytes of the
misspelt name, so a name of long characters reaches further than half of it.
-/

set_option autoImplicit false

namespace Cardwalk.Suggestion

/-- Of a list of candidates with their distances, the first that is nearest. -/
def First (l : List (Nat × String)) (r : Nat × String) : Prop :=
  ∃ before after, l = before ++ r :: after ∧ (∀ x ∈ before, r.1 < x.1) ∧ ∀ x ∈ after, r.1 ≤ x.1

section First

variable {l : List (Nat × String)} {a b r : Nat × String}

theorem first_cons_iff :
    First (a :: l) r ↔ (r = a ∧ ∀ x ∈ l, a.1 ≤ x.1) ∨ (First l r ∧ r.1 < a.1) := by
  constructor
  · rintro ⟨_ | ⟨c, before⟩, after, hl, hbefore, hafter⟩
    · obtain ⟨rfl, rfl⟩ := List.cons.inj hl
      exact .inl ⟨rfl, hafter⟩
    · obtain ⟨rfl, rfl⟩ := List.cons.inj hl
      rw [List.forall_mem_cons] at hbefore
      exact .inr ⟨⟨before, after, rfl, hbefore.2, hafter⟩, hbefore.1⟩
  · rintro (⟨rfl, h⟩ | ⟨⟨before, after, rfl, hbefore, hafter⟩, ha⟩)
    · exact ⟨[], l, rfl, by simp, h⟩
    · exact ⟨a :: before, after, rfl, List.forall_mem_cons.mpr ⟨ha, hbefore⟩, hafter⟩

theorem not_first_nil : ¬ First [] r := by
  rintro ⟨before, after, hl, -⟩
  simp at hl

theorem first_nearer : First (nearer a b :: l) r ↔ First (a :: b :: l) r := by
  simp only [first_cons_iff, List.forall_mem_cons, nearer]
  split <;> grind

theorem nearest_eq_some_iff : nearest l = some r ↔ First l r := by
  cases l with
  | nil => exact iff_of_false (by simp [nearest]) not_first_nil
  | cons a l =>
    induction l generalizing a with
    | nil => simp [nearest, first_cons_iff, not_first_nil, eq_comm]
    | cons b l ih => rw [← first_nearer, ← ih]; rfl

theorem nearest_eq_none_iff : nearest l = none ↔ l = [] := by
  cases l <;> simp [nearest]

theorem first_filter {k : Nat} :
    First (l.filter fun x => x.1 ≤ k) r ↔ First l r ∧ r.1 ≤ k := by
  induction l with
  | nil => simp [not_first_nil]
  | cons a l ih =>
    by_cases ha : a.1 ≤ k
    · rw [List.filter_cons_of_pos (by simpa using ha), first_cons_iff, first_cons_iff, ih]
      simp only [List.mem_filter, decide_eq_true_eq]
      grind
    · rw [List.filter_cons_of_neg (by simpa using ha), first_cons_iff, ih]
      grind

theorem first_map {f : String → Nat} {l : List String} {c : String} {n : Nat} :
    First (l.map fun d => (f d, d)) (n, c) ↔
      f c = n ∧ ∃ before after, l = before ++ c :: after ∧
        (∀ d ∈ before, n < f d) ∧ ∀ d ∈ after, n ≤ f d := by
  constructor
  · rintro ⟨before, after, hl, hbefore, hafter⟩
    obtain ⟨front, rest, rfl, rfl, hrest⟩ := List.map_eq_append_iff.mp hl
    obtain ⟨d, back, rfl, hd, rfl⟩ := List.map_eq_cons_iff.mp hrest
    obtain ⟨rfl, rfl⟩ := Prod.mk.inj hd
    exact ⟨rfl, front, back, rfl, by simpa using hbefore, by simpa using hafter⟩
  · rintro ⟨rfl, front, back, rfl, hfront, hback⟩
    exact ⟨front.map fun d => (f d, d), back.map fun d => (f d, d), by simp, by simpa using hfront,
      by simpa using hback⟩

end First

/-- The first of the candidates that the fewest edits lead to, and how many. -/
structure Closest (typo : String) (candidates : List String) (c : String) (n : Nat) : Prop where
  fewest : IsLeast {m | Edits m typo.toList c.toList} n
  first : ∃ before after, candidates = before ++ c :: after ∧
    (∀ d ∈ before, ∀ m, Edits m typo.toList d.toList → n < m) ∧
    ∀ d ∈ after, ∀ m, Edits m typo.toList d.toList → n ≤ m

section Correction

variable {typo : String} {candidates : List String} {c : String} {n : Nat}

theorem closest_iff :
    Closest typo candidates c n ↔
      First (candidates.map fun d => (distance typo.toList d.toList, d)) (n, c) := by
  simp only [first_map, lt_distance_iff, le_distance_iff]
  constructor
  · rintro ⟨hfewest, hfirst⟩
    exact ⟨(isLeast_distance _ _).unique hfewest, hfirst⟩
  · rintro ⟨rfl, hfirst⟩
    exact ⟨isLeast_distance _ _, hfirst⟩

theorem correction_eq_some_iff :
    correction typo candidates = some c ↔ ∃ n ≤ reach typo, Closest typo candidates c n := by
  simp only [correction, Option.map_eq_some_iff, nearest_eq_some_iff, first_filter, closest_iff,
    Prod.exists]
  constructor
  · rintro ⟨n, d, ⟨hfirst, hn⟩, rfl⟩
    exact ⟨n, hn, hfirst⟩
  · rintro ⟨n, hn, hfirst⟩
    exact ⟨n, c, ⟨hfirst, hn⟩, rfl⟩

theorem correction_eq_none_iff :
    correction typo candidates = none ↔
      ∀ c ∈ candidates, reach typo < distance typo.toList c.toList := by
  simp [correction, nearest_eq_none_iff]

def Apart (typo c : String) : Prop := ∀ x ∈ typo.toList, x ∉ c.toList

instance (typo c : String) : Decidable (Apart typo c) :=
  List.decidableBAll (fun x => x ∉ c.toList) typo.toList

theorem Apart.length_le (h : Apart typo c) : typo.length ≤ distance typo.toList c.toList := by
  simpa only [String.length_toList] using length_le_distance h

theorem Apart.distance_eq (h : Apart typo c) (hlength : c.length ≤ typo.length) :
    distance typo.toList c.toList = typo.length := by
  have hle : distance typo.toList c.toList ≤ max typo.length c.length := by
    simpa only [String.length_toList] using distance_le_max typo.toList c.toList
  exact le_antisymm (by omega) h.length_le

theorem le_reach_iff (hlength : 5 ≤ typo.length) :
    typo.length ≤ reach typo ↔ 2 * typo.length ≤ typo.utf8ByteSize := by
  unfold reach
  omega

theorem Apart.length_le_reach (h : Apart typo c) (hc : correction typo candidates = some c) :
    typo.length ≤ reach typo := by
  obtain ⟨n, hn, hclosest⟩ := correction_eq_some_iff.mp hc
  rw [hclosest.fewest.unique (isLeast_distance _ _)] at hn
  exact h.length_le.trans hn

theorem correction_singleton (hc : distance typo.toList c.toList ≤ reach typo) :
    correction typo [c] = some c := by
  refine correction_eq_some_iff.mpr ⟨_, hc, isLeast_distance _ _, [], [], rfl, ?_, ?_⟩ <;> simp

end Correction

/-- The first of the nearest candidates is proposed, if it is within half of the
bytes of the misspelt name, and none only if none of them is. A name of long
characters is within reach of names that have no character in common with it. -/
theorem proposes_closest (typo : String) (candidates : List String) :
    (∀ c, correction typo candidates = some c ↔
      ∃ n ≤ max 2 (typo.utf8ByteSize / 2), Closest typo candidates c n) ∧
    (correction typo candidates = none ↔
      ∀ c ∈ candidates, ∀ n, Edits n typo.toList c.toList →
        max 2 (typo.utf8ByteSize / 2) < n) ∧
    ∀ c, 5 ≤ typo.length → Apart typo c →
      (correction typo candidates = some c → 2 * typo.length ≤ typo.utf8ByteSize) ∧
      (c.length ≤ typo.length → 2 * typo.length ≤ typo.utf8ByteSize →
        correction typo [c] = some c) := by
  refine ⟨fun c => correction_eq_some_iff, ?_, fun c hlength hapart => ⟨fun hc => ?_, ?_⟩⟩
  · simp only [correction_eq_none_iff, lt_distance_iff]
    rfl
  · exact (le_reach_iff hlength).mp (hapart.length_le_reach hc)
  · intro hshort hbytes
    apply correction_singleton
    rw [hapart.distance_eq hshort]
    exact (le_reach_iff hlength).mpr hbytes

theorem proposes_closest_result :
    Closest "reslut" ["tools", "tool", "result"] "result" 2 ∧
      correction "reslut" ["tools", "tool", "result"] = some "result" ∧
      Apart "检索上下文" "query" ∧ correction "检索上下文" ["query"] = some "query" := by
  have hclosest : Closest "reslut" ["tools", "tool", "result"] "result" 2 :=
    closest_iff.mpr (nearest_eq_some_iff.mp (by decide +kernel))
  have hapart : Apart "检索上下文" "query" := by decide +kernel
  obtain ⟨hsome, -, -⟩ := proposes_closest "reslut" ["tools", "tool", "result"]
  obtain ⟨-, -, hstranger⟩ := proposes_closest "检索上下文" []
  obtain ⟨-, hproposed⟩ := hstranger "query" (by decide +kernel) hapart
  exact ⟨hclosest, (hsome "result").mpr ⟨2, by decide +kernel, hclosest⟩, hapart,
    hproposed (by decide +kernel) (by decide +kernel)⟩

theorem stranger_proposed :
    correction "检索上下文" ["query"] = some "query" ∧
      distance "检索上下文".toList "query".toList = 5 ∧
      max 2 ("检索上下文".length / 2) = 2 ∧ Apart "检索上下文" "query" ∧
      "query".length ≤ "检索上下文".length := by
  decide +kernel

end Cardwalk.Suggestion
