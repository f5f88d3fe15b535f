import Cardwalk.Proofs.Calculator.Evaluation
import Cardwalk.Proofs.Decimal.Infinite
import Cardwalk.Tool.Builtin

/-!
# Division by zero

The value of a division by zero is not finite, and nothing that is computed
from it is, unless it ends up in the infinite divisor of a finite number. Only
the value of the whole expression is looked at, so an expression with a
division by zero has no value unless it is hidden in such a divisor.
-/

set_option autoImplicit false

namespace Cardwalk.Calculator

/-- A division by zero somewhere in a tree, in no divisor that is hidden. -/
inductive ZeroDivided (hides : Tree → Tree → Prop) : Tree → Prop
  | here {a b : Tree} (h : (b.value == 0) = true) : ZeroDivided hides (.apply .divide a b)
  | minus {t : Tree} (h : ZeroDivided hides t) : ZeroDivided hides (.minus t)
  | plus {t : Tree} (h : ZeroDivided hides t) : ZeroDivided hides (.plus t)
  | left {op : Operation} {a b : Tree} (h : ZeroDivided hides a) :
      ZeroDivided hides (.apply op a b)
  | right {op : Operation} {a b : Tree} (h : ZeroDivided hides b) (hop : op ≠ .divide) :
      ZeroDivided hides (.apply op a b)
  | divisor {a b : Tree} (h : ZeroDivided hides b) (hopen : ¬ hides a b) :
      ZeroDivided hides (.apply .divide a b)

def DividesByZero : Tree → Prop := ZeroDivided fun _ _ => False

/-- A finite number is divided by an infinite one. -/
def Absorbs (a b : Tree) : Prop := a.value.isFinite = true ∧ b.value.isInf = true

/-- Some divisor in the tree is zero and stands in no infinite divisor of a
finite number. -/
def Exposed : Tree → Prop := ZeroDivided Absorbs

theorem Operation.isFinite_left (op : Operation) {x : Float} (y : Float)
    (h : x.isFinite = false) : (op.value x y).isFinite = false := by
  cases op with
  | add => exact Decimal.isFinite_add (.inl h)
  | subtract => exact Decimal.isFinite_sub (.inl h)
  | multiply => exact Decimal.isFinite_mul (.inl h)
  | divide => exact Decimal.isFinite_div_left h

theorem Operation.isFinite_right {op : Operation} (hop : op ≠ .divide) (x : Float) {y : Float}
    (h : y.isFinite = false) : (op.value x y).isFinite = false := by
  cases op with
  | add => exact Decimal.isFinite_add (.inr h)
  | subtract => exact Decimal.isFinite_sub (.inr h)
  | multiply => exact Decimal.isFinite_mul (.inr h)
  | divide => exact absurd rfl hop

theorem Exposed.isFinite {t : Tree} (h : Exposed t) : t.value.isFinite = false := by
  induction h with
  | here h => exact Decimal.isFinite_div_zero h
  | minus _ ih => exact Decimal.isFinite_neg ih
  | plus _ ih => exact ih
  | @left op a b _ ih => exact op.isFinite_left b.value ih
  | @right op a b _ hop ih => exact Operation.isFinite_right hop a.value ih
  | @divisor a b _ hopen ih =>
    apply Decimal.isFinite_div_right ih
    intro ha
    rw [← Bool.not_eq_true]
    exact fun hb => hopen ⟨ha, hb⟩

theorem Absorbs.value_eq_zero {a b : Tree} (h : Absorbs a b) :
    ((Tree.apply .divide a b).value == 0) = true :=
  Decimal.div_infinite_eq_zero h.1 h.2

theorem evaluate_of_exposed {expression : String} {e : Expr}
    (htext : e.text = dropBlanks expression.toList) (h : Exposed e.tree) :
    evaluate expression = none := by
  rw [Option.eq_none_iff_forall_ne_some]
  intro x hx
  obtain ⟨t, ht, rfl, hfinite⟩ := evaluate_eq_some_iff.mp hx
  obtain ⟨e', htext', -, rfl⟩ := parse_eq_some_iff.mp ht
  obtain rfl : e = e' := Expr.text_injective (htext.trans htext'.symm)
  rw [h.isFinite] at hfinite
  cases hfinite

def unanswered (expression : String) : String :=
  "模拟计算失败：无法计算 \"" ++ expression ++ "\"。"

theorem builtin_of_none {args : Json} (hargs : args.isObject = true)
    (h : evaluate (Tool.argument "expression" args) = none) :
    Tool.builtin Tool.calculatorName args =
      .ok (.string (unanswered (Tool.argument "expression" args))) := by
  have hne : Tool.calculatorName ≠ Tool.searchName := by decide
  rw [Tool.builtin, hargs, Bool.not_true, Bool.and_false, if_neg Bool.false_ne_true, if_neg hne,
    if_pos rfl, Tool.calculate, h]
  rfl

/-- An expression in which a divisor is zero has no value, and the calculator
says so, unless every such division stands in an infinite divisor of a finite
number. There the quotient is zero. -/
theorem exposed_unanswered {expression : String} {e : Expr}
    (htext : e.text = dropBlanks expression.toList) :
    (Exposed e.tree → evaluate expression = none ∧
      ∀ args : Json, args.isObject = true → Tool.argument "expression" args = expression →
        Tool.builtin Tool.calculatorName args = .ok (.string (unanswered expression))) ∧
    ∀ a b : Tree, Absorbs a b → ((Tree.apply .divide a b).value == 0) = true := by
  constructor
  · intro h
    have hnone := evaluate_of_exposed htext h
    refine ⟨hnone, fun args hargs hargument => ?_⟩
    rw [← hargument] at hnone ⊢
    exact builtin_of_none hargs hnone
  · intro a b hab
    exact hab.value_eq_zero

def asked (expression : String) : Json := .object [("expression", .string expression)]

def oneByZero : Tree := .apply .divide (.number 1 0) (.number 0 0)

theorem exposed_unanswered_product :
    evaluate "2 + 1 / 0 * 0" = none ∧
      Tool.builtin Tool.calculatorName (asked "2 + 1 / 0 * 0") =
        .ok (.string (unanswered "2 + 1 / 0 * 0")) := by
  have hparse : parse (dropBlanks "2 + 1 / 0 * 0".toList) =
      some (.apply .add (.number 2 0) (.apply .multiply oneByZero (.number 0 0))) := by
    decide +kernel
  obtain ⟨e, htext, -, htree⟩ := parse_eq_some_iff.mp hparse
  have hexposed : Exposed e.tree := by
    rw [htree]
    exact .right (.left (.here (by decide))) (by decide)
  have h := (exposed_unanswered htext).1 hexposed
  exact ⟨h.1, h.2 (asked "2 + 1 / 0 * 0") rfl rfl⟩

theorem zero_division_absorbed :
    (∃ e : Expr, e.text = dropBlanks "1 / (1 / 0)".toList ∧ DividesByZero e.tree) ∧
      evaluate "1 / (1 / 0)" = some 0 ∧
      Tool.builtin Tool.calculatorName (asked "1 / (1 / 0)") =
        .ok (.string ("模拟计算结果：1 / (1 / 0) = " ++ formatNumber 0)) := by
  have hparse : parse (dropBlanks "1 / (1 / 0)".toList) =
      some (.apply .divide (.number 1 0) oneByZero) := by
    decide +kernel
  obtain ⟨e, htext, -, htree⟩ := parse_eq_some_iff.mp hparse
  have hzero : DividesByZero e.tree := by
    rw [htree]
    exact .divisor (.here (by decide)) not_false
  have hvalue : evaluate "1 / (1 / 0)" = some 0 := by decide +kernel
  have hanswer : Tool.builtin Tool.calculatorName (asked "1 / (1 / 0)") =
      .ok (.string (Tool.calculate "1 / (1 / 0)")) := rfl
  refine ⟨⟨e, htext, hzero⟩, hvalue, ?_⟩
  rw [hanswer, Tool.calculate, hvalue]
  rfl

end Cardwalk.Calculator
