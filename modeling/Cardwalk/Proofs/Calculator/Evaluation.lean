import Cardwalk.Proofs.Calculator.Reading

/-!
# The value of an expression

An expression has a value exactly if its text has a derivation that is not
nested too deeply and whose value is finite; then the value is that of the
derivation. The reader comes to an end on every text, whatever steps it may
still make.
-/

set_option autoImplicit false

namespace Cardwalk.Calculator

theorem length_rest_product {steps depth : Nat} {s rest : List Char} {t : Tree}
    (h : product steps depth s = some (t, rest)) : rest.length ≤ s.length := by
  obtain ⟨u, rfl, -, -⟩ := (sound steps).term h
  rw [List.length_append]
  omega

theorem length_rest_factor {steps depth : Nat} {s rest : List Char} {t : Tree}
    (h : factor steps depth s = some (t, rest)) : rest.length ≤ s.length := by
  obtain ⟨f, rfl, -, -⟩ := (sound steps).factor h
  rw [List.length_append]
  omega

/-- So many steps are enough for every text that is not too long: one more
changes nothing, whether the text is well formed or not. -/
structure Settled (steps : Nat) : Prop where
  expr : ∀ (depth : Nat) {s : List Char}, 4 * s.length + 3 ≤ steps →
    sum (steps + 1) depth s = sum steps depth s
  terms : ∀ (depth : Nat) (t : Tree) {s : List Char}, 4 * s.length + 1 ≤ steps →
    moreTerms (steps + 1) depth t s = moreTerms steps depth t s
  term : ∀ (depth : Nat) {s : List Char}, 4 * s.length + 2 ≤ steps →
    product (steps + 1) depth s = product steps depth s
  factors : ∀ (depth : Nat) (t : Tree) {s : List Char}, 4 * s.length + 1 ≤ steps →
    moreFactors (steps + 1) depth t s = moreFactors steps depth t s
  factor : ∀ (depth : Nat) {s : List Char}, 4 * s.length + 1 ≤ steps →
    factor (steps + 1) depth s = factor steps depth s

theorem settled_zero : Settled 0 where
  expr depth s h := by omega
  terms depth t s h := by omega
  term depth s h := by omega
  factors depth t s h := by omega
  factor depth s h := by omega

section Steps

variable {steps : Nat} (ih : Settled steps) (depth : Nat)
include ih

theorem sum_settled {s : List Char} (h : 4 * s.length + 3 ≤ steps + 1) :
    sum (steps + 2) depth s = sum (steps + 1) depth s := by
  rw [sum, sum, ih.term depth (by omega)]
  cases hp : product steps depth s with
  | none => rfl
  | some r =>
    have hle : r.2.length ≤ s.length := length_rest_product hp
    exact ih.terms depth r.1 (by omega)

theorem moreTerms_settled (t : Tree) {s : List Char} (h : 4 * s.length + 1 ≤ steps + 1) :
    moreTerms (steps + 2) depth t s = moreTerms (steps + 1) depth t s := by
  cases s with
  | nil => rw [moreTerms, moreTerms]
  | cons c s =>
    rw [List.length_cons] at h
    rw [moreTerms, moreTerms, ih.term depth (by omega)]
    cases sumOperation c with
    | none => rfl
    | some op =>
      cases hp : product steps depth s with
      | none => rfl
      | some r =>
        have hle : r.2.length ≤ s.length := length_rest_product hp
        exact ih.terms depth (.apply op t r.1) (by omega)

theorem product_settled {s : List Char} (h : 4 * s.length + 2 ≤ steps + 1) :
    product (steps + 2) depth s = product (steps + 1) depth s := by
  rw [product, product, ih.factor depth (by omega)]
  cases hf : factor steps depth s with
  | none => rfl
  | some r =>
    have hle : r.2.length ≤ s.length := length_rest_factor hf
    exact ih.factors depth r.1 (by omega)

theorem moreFactors_settled (t : Tree) {s : List Char} (h : 4 * s.length + 1 ≤ steps + 1) :
    moreFactors (steps + 2) depth t s = moreFactors (steps + 1) depth t s := by
  cases s with
  | nil => rw [moreFactors, moreFactors]
  | cons c s =>
    rw [List.length_cons] at h
    rw [moreFactors, moreFactors, ih.factor depth (by omega)]
    cases productOperation c with
    | none => rfl
    | some op =>
      cases hf : factor steps depth s with
      | none => rfl
      | some r =>
        have hle : r.2.length ≤ s.length := length_rest_factor hf
        exact ih.factors depth (.apply op t r.1) (by omega)

theorem factor_settled {s : List Char} (h : 4 * s.length + 1 ≤ steps + 1) :
    factor (steps + 2) depth s = factor (steps + 1) depth s := by
  cases depth with
  | zero => rw [factor, factor]
  | succ depth =>
    cases s with
    | nil => rw [factor, factor]
    | cons c s =>
      rw [List.length_cons] at h
      rw [factor, factor, ih.factor depth (by omega), ih.expr depth (by omega)]

theorem settled_succ : Settled (steps + 1) where
  expr depth _ h := sum_settled ih depth h
  terms depth t _ h := moreTerms_settled ih depth t h
  term depth _ h := product_settled ih depth h
  factors depth t _ h := moreFactors_settled ih depth t h
  factor depth _ h := factor_settled ih depth h

end Steps

theorem settled (steps : Nat) : Settled steps := by
  induction steps with
  | zero => exact settled_zero
  | succ steps ih => exact settled_succ ih

theorem parse_eq_some_iff {s : List Char} {t : Tree} :
    parse s = some t ↔ ∃ e : Expr, e.text = s ∧ e.nesting ≤ maxDepth ∧ e.tree = t := by
  constructor
  · intro h
    unfold parse at h
    split at h
    · rename_i u hs
      obtain rfl := Option.some.inj h
      obtain ⟨e, rfl, htree, hd⟩ := (sound _).expr hs
      exact ⟨e, (List.append_nil _).symm, hd, htree⟩
    · exact absurd h (by simp)
  · rintro ⟨e, rfl, hd, rfl⟩
    have hread : sum (4 * e.text.length + 8) maxDepth (e.text ++ []) = some (e.tree, []) :=
      e.read (by omega) hd behindExpr_nil
    rw [List.append_nil] at hread
    rw [parse, hread]

theorem evaluate_eq_some_iff {expression : String} {x : Float} :
    evaluate expression = some x ↔
      ∃ t, parse (dropBlanks expression.toList) = some t ∧ t.value = x ∧ x.isFinite = true := by
  rw [evaluate, evaluateChars]
  cases parse (dropBlanks expression.toList) with
  | none => simp
  | some t =>
    by_cases hfinite : t.value.isFinite = true
    · simp only [hfinite, if_true, Option.some.injEq]
      constructor
      · rintro rfl
        exact ⟨t, rfl, rfl, hfinite⟩
      · rintro ⟨u, rfl, hx, -⟩
        exact hx
    · simp only [hfinite, Option.some.injEq]
      constructor
      · intro h
        exact absurd h (by simp)
      · rintro ⟨u, rfl, rfl, hx⟩
        exact absurd hx hfinite

end Cardwalk.Calculator
