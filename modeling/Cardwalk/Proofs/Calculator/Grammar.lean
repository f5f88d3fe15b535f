import Mathlib.Data.List.TakeWhile
import Cardwalk.Tool.Calculator

/-!
# The grammar of the calculator

The derivations of an arithmetic expression as data: a derivation has a text,
a value and a depth. The operations of one line are taken from the left, and
those between factors go before those between terms. No text has two
derivations.
-/

set_option autoImplicit false

namespace Cardwalk.Calculator

/-- Decimal digits with at most one point and at least one digit: those before
the point and, if there is a point, those behind it. -/
structure Literal where
  whole : List Char
  fraction : Option (List Char)
  decimal : ∀ c ∈ whole ++ fraction.getD [], c.isDigit = true
  some_digit : whole ++ fraction.getD [] ≠ []

namespace Literal

def text (n : Literal) : List Char :=
  n.whole ++ match n.fraction with
    | none => []
    | some behind => '.' :: behind

def digits (n : Literal) : List Char := n.whole ++ n.fraction.getD []

def places (n : Literal) : Nat := (n.fraction.getD []).length

/-- The floating-point number nearest to the decimal. -/
def value (n : Literal) : Float :=
  Decimal.nearest (n.digits.foldl (fun m c => m * 10 + (c.toNat - 48)) 0)
    (Decimal.tenTo n.places)

end Literal

inductive Additive where
  | plus
  | minus

inductive Multiplicative where
  | times
  | divided

namespace Additive

def char : Additive → Char
  | plus => '+'
  | minus => '-'

def operation : Additive → Operation
  | plus => .add
  | minus => .subtract

end Additive

namespace Multiplicative

def char : Multiplicative → Char
  | times => '*'
  | divided => '/'

def operation : Multiplicative → Operation
  | times => .multiply
  | divided => .divide

end Multiplicative

mutual
/-- `expr := term (('+' | '-') term)*` -/
inductive Expr where
  | mk (first : Term) (more : Terms)

inductive Terms where
  | nil
  | cons (sign : Additive) (t : Term) (more : Terms)

/-- `term := factor (('*' | '/') factor)*` -/
inductive Term where
  | mk (first : Factor) (more : Factors)

inductive Factors where
  | nil
  | cons (sign : Multiplicative) (f : Factor) (more : Factors)

/-- `factor := '-' factor | '+' factor | '(' expr ')' | number` -/
inductive Factor where
  | minus (f : Factor)
  | plus (f : Factor)
  | group (e : Expr)
  | number (n : Literal)
end

mutual
def Expr.text : Expr → List Char
  | .mk first more => first.text ++ more.text

def Terms.text : Terms → List Char
  | .nil => []
  | .cons sign t more => sign.char :: (t.text ++ more.text)

def Term.text : Term → List Char
  | .mk first more => first.text ++ more.text

def Factors.text : Factors → List Char
  | .nil => []
  | .cons sign f more => sign.char :: (f.text ++ more.text)

def Factor.text : Factor → List Char
  | .minus f => '-' :: f.text
  | .plus f => '+' :: f.text
  | .group e => '(' :: (e.text ++ [')'])
  | .number n => n.text
end

mutual
def Expr.value : Expr → Float
  | .mk first more => more.valueFrom first.value

def Terms.valueFrom : Terms → Float → Float
  | .nil, x => x
  | .cons sign t more, x => more.valueFrom (sign.operation.value x t.value)

def Term.value : Term → Float
  | .mk first more => more.valueFrom first.value

def Factors.valueFrom : Factors → Float → Float
  | .nil, x => x
  | .cons sign f more, x => more.valueFrom (sign.operation.value x f.value)

def Factor.value : Factor → Float
  | .minus f => -f.value
  | .plus f => f.value
  | .group e => e.value
  | .number n => n.value
end

mutual
/-- The number of factors in the longest chain of factors, each inside the one
before. -/
def Expr.nesting : Expr → Nat
  | .mk first more => max first.nesting more.nesting

def Terms.nesting : Terms → Nat
  | .nil => 0
  | .cons _ t more => max t.nesting more.nesting

def Term.nesting : Term → Nat
  | .mk first more => max first.nesting more.nesting

def Factors.nesting : Factors → Nat
  | .nil => 0
  | .cons _ f more => max f.nesting more.nesting

def Factor.nesting : Factor → Nat
  | .minus f => f.nesting + 1
  | .plus f => f.nesting + 1
  | .group e => e.nesting + 1
  | .number _ => 1
end

/-- The text behind a factor does not go on with a number. -/
def BehindFactor (rest : List Char) : Prop := ∀ c ∈ rest.head?, isNumberChar c = false

def BehindTerm (rest : List Char) : Prop :=
  BehindFactor rest ∧ ∀ c ∈ rest.head?, productOperation c = none

def BehindExpr (rest : List Char) : Prop :=
  BehindTerm rest ∧ ∀ c ∈ rest.head?, sumOperation c = none

theorem behindExpr_nil : BehindExpr [] := by
  simp [BehindExpr, BehindTerm, BehindFactor]

theorem behindExpr_close (rest : List Char) : BehindExpr (')' :: rest) := by
  have hn : isNumberChar ')' = false := by decide
  simp [BehindExpr, BehindTerm, BehindFactor, hn, productOperation, sumOperation]

theorem sumOperation_char (sign : Additive) : sumOperation sign.char = some sign.operation := by
  cases sign with
  | plus => rfl
  | minus => rfl

theorem productOperation_char (sign : Multiplicative) :
    productOperation sign.char = some sign.operation := by
  cases sign with
  | times => rfl
  | divided => rfl

theorem behindTerm_char (sign : Additive) (rest : List Char) : BehindTerm (sign.char :: rest) := by
  have hn : isNumberChar sign.char = false := by
    cases sign with
    | plus => decide
    | minus => decide
  have hp : productOperation sign.char = none := by
    cases sign with
    | plus => rfl
    | minus => rfl
  simp [BehindTerm, BehindFactor, hn, hp]

theorem behindFactor_char (sign : Multiplicative) (rest : List Char) :
    BehindFactor (sign.char :: rest) := by
  have hn : isNumberChar sign.char = false := by
    cases sign with
    | times => decide
    | divided => decide
  simp [BehindFactor, hn]

theorem behindTerm_terms (ts : Terms) {rest : List Char} (h : BehindExpr rest) :
    BehindTerm (ts.text ++ rest) := by
  cases ts with
  | nil => exact h.1
  | cons sign t more => exact behindTerm_char sign _

theorem behindFactor_factors (fs : Factors) {rest : List Char} (h : BehindTerm rest) :
    BehindFactor (fs.text ++ rest) := by
  cases fs with
  | nil => exact h.1
  | cons sign f more => exact behindFactor_char sign _

theorem isNumberChar_of_isDigit {c : Char} (h : c.isDigit = true) : isNumberChar c = true := by
  simp [isNumberChar, h]

theorem ne_point_of_isDigit {c : Char} (h : c.isDigit = true) : c ≠ '.' := by
  rintro rfl
  exact absurd h (by decide)

namespace Literal

theorem whole_isDigit (n : Literal) : ∀ c ∈ n.whole, c.isDigit = true := by
  intro c hc
  exact n.decimal c (List.mem_append_left _ hc)

theorem isNumberChar_text (n : Literal) : ∀ c ∈ n.text, isNumberChar c = true := by
  intro c hc
  rw [text] at hc
  rcases List.mem_append.mp hc with hc | hc
  · exact isNumberChar_of_isDigit (n.whole_isDigit c hc)
  · cases hf : n.fraction with
    | none => simp [hf] at hc
    | some behind =>
      rw [hf] at hc
      rcases List.mem_cons.mp hc with rfl | hc
      · decide
      · apply isNumberChar_of_isDigit
        apply n.decimal
        simp [hf, hc]

theorem text_ne_nil (n : Literal) : n.text ≠ [] := by
  intro h
  have hw := n.some_digit
  cases hf : n.fraction with
  | none => simp_all [text]
  | some behind => simp [text, hf] at h

theorem takeWhile_text (n : Literal) {rest : List Char} (h : BehindFactor rest) :
    (n.text ++ rest).takeWhile isNumberChar = n.text := by
  rw [List.takeWhile_append_of_pos n.isNumberChar_text]
  cases rest with
  | nil => simp
  | cons c rest =>
    have hc : isNumberChar c = false := h c (by simp)
    simp [hc]

theorem dropWhile_text (n : Literal) {rest : List Char} (h : BehindFactor rest) :
    (n.text ++ rest).dropWhile isNumberChar = rest := by
  rw [List.dropWhile_append_of_pos n.isNumberChar_text]
  cases rest with
  | nil => rfl
  | cons c rest =>
    have hc : isNumberChar c = false := h c (by simp)
    simp [hc]

theorem takeWhile_whole (n : Literal) : n.text.takeWhile (· ≠ '.') = n.whole := by
  have hw : ∀ c ∈ n.whole, decide (c ≠ '.') = true := by
    intro c hc
    simpa using ne_point_of_isDigit (n.whole_isDigit c hc)
  rw [text, List.takeWhile_append_of_pos hw]
  cases n.fraction with
  | none => simp
  | some behind => simp

theorem dropWhile_whole (n : Literal) :
    n.text.dropWhile (· ≠ '.') = match n.fraction with
      | none => []
      | some behind => '.' :: behind := by
  have hw : ∀ c ∈ n.whole, decide (c ≠ '.') = true := by
    intro c hc
    simpa using ne_point_of_isDigit (n.whole_isDigit c hc)
  rw [text, List.dropWhile_append_of_pos hw]
  cases n.fraction with
  | none => rfl
  | some behind => simp

theorem text_injective {n m : Literal} (h : n.text = m.text) : n = m := by
  have hwhole : n.whole = m.whole := by
    rw [← n.takeWhile_whole, ← m.takeWhile_whole, h]
  have hfraction : n.fraction = m.fraction := by
    have hdrop := n.dropWhile_whole
    rw [h, m.dropWhile_whole] at hdrop
    cases hn : n.fraction with
    | none =>
      cases hm : m.fraction with
      | none => rfl
      | some behind => simp [hn, hm] at hdrop
    | some behind =>
      cases hm : m.fraction with
      | none => simp [hn, hm] at hdrop
      | some other => simpa [hn, hm] using hdrop.symm
  cases n
  cases m
  subst hwhole
  subst hfraction
  rfl

theorem text_unique {n m : Literal} {r s : List Char} (hr : BehindFactor r)
    (hs : BehindFactor s) (h : n.text ++ r = m.text ++ s) : n = m ∧ r = s := by
  constructor
  · apply text_injective
    rw [← n.takeWhile_text hr, h, m.takeWhile_text hs]
  · rw [← n.dropWhile_text hr, h, m.dropWhile_text hs]

theorem head_text (n : Literal) {c : Char} {rest s : List Char}
    (h : n.text ++ rest = c :: s) : isNumberChar c = true := by
  obtain ⟨d, more, hd⟩ := List.exists_cons_of_ne_nil n.text_ne_nil
  rw [hd, List.cons_append, List.cons.injEq] at h
  apply n.isNumberChar_text
  rw [hd, ← h.1]
  exact List.mem_cons_self

end Literal

theorem Additive.char_injective {a b : Additive} (h : a.char = b.char) : a = b := by
  cases a with
  | plus =>
    cases b with
    | plus => rfl
    | minus => exact absurd h (by decide)
  | minus =>
    cases b with
    | plus => exact absurd h (by decide)
    | minus => rfl

theorem Multiplicative.char_injective {a b : Multiplicative} (h : a.char = b.char) : a = b := by
  cases a with
  | times =>
    cases b with
    | times => rfl
    | divided => exact absurd h (by decide)
  | divided =>
    cases b with
    | times => exact absurd h (by decide)
    | divided => rfl

theorem not_behindExpr_char (sign : Additive) (rest : List Char) :
    ¬ BehindExpr (sign.char :: rest) := by
  intro h
  have hn := h.2 sign.char (by simp)
  rw [sumOperation_char] at hn
  exact absurd hn (by simp)

theorem not_behindTerm_char (sign : Multiplicative) (rest : List Char) :
    ¬ BehindTerm (sign.char :: rest) := by
  intro h
  have hn := h.2 sign.char (by simp)
  rw [productOperation_char] at hn
  exact absurd hn (by simp)

def Factor.opening : Factor → Option Char
  | .minus _ => some '-'
  | .plus _ => some '+'
  | .group _ => some '('
  | .number _ => none

theorem Factor.head_text (f : Factor) (rest : List Char) :
    (f.text ++ rest).head?.filter (fun c => !isNumberChar c) = f.opening := by
  cases f with
  | minus g => simp [Factor.text, Factor.opening, isNumberChar]
  | plus g => simp [Factor.text, Factor.opening, isNumberChar]
  | group e => simp [Factor.text, Factor.opening, isNumberChar]
  | number n =>
    obtain ⟨c, more, hc⟩ := List.exists_cons_of_ne_nil n.text_ne_nil
    have hn : isNumberChar c = true :=
      n.head_text (show n.text ++ [] = c :: more by rw [List.append_nil, hc])
    rw [Factor.text, hc]
    simp [hn, Factor.opening]

-- What stands behind bounds each part from the right, so the two texts are
-- taken apart at the same places.
mutual
theorem Expr.unique (e e' : Expr) {r s : List Char} (hr : BehindExpr r) (hs : BehindExpr s)
    (h : e.text ++ r = e'.text ++ s) : e = e' ∧ r = s := by
  cases e with
  | mk t ts =>
    cases e' with
    | mk t' ts' =>
      rw [Expr.text, Expr.text, List.append_assoc, List.append_assoc] at h
      obtain ⟨rfl, hmore⟩ :=
        Term.unique t t' (behindTerm_terms ts hr) (behindTerm_terms ts' hs) h
      obtain ⟨rfl, hrest⟩ := Terms.unique ts ts' hr hs hmore
      exact ⟨rfl, hrest⟩

theorem Terms.unique (ts ts' : Terms) {r s : List Char} (hr : BehindExpr r)
    (hs : BehindExpr s) (h : ts.text ++ r = ts'.text ++ s) : ts = ts' ∧ r = s := by
  cases ts with
  | nil =>
    cases ts' with
    | nil => exact ⟨rfl, h⟩
    | cons sign t more =>
      rw [Terms.text, List.nil_append, Terms.text, List.cons_append] at h
      rw [h] at hr
      exact absurd hr (not_behindExpr_char sign _)
  | cons sign t more =>
    cases ts' with
    | nil =>
      rw [Terms.text, Terms.text, List.nil_append, List.cons_append] at h
      rw [← h] at hs
      exact absurd hs (not_behindExpr_char sign _)
    | cons sign' t' more' =>
      rw [Terms.text, Terms.text, List.cons_append, List.cons_append, List.cons.injEq,
        List.append_assoc, List.append_assoc] at h
      obtain rfl := Additive.char_injective h.1
      obtain ⟨rfl, hmore⟩ :=
        Term.unique t t' (behindTerm_terms more hr) (behindTerm_terms more' hs) h.2
      obtain ⟨rfl, hrest⟩ := Terms.unique more more' hr hs hmore
      exact ⟨rfl, hrest⟩

theorem Term.unique (t t' : Term) {r s : List Char} (hr : BehindTerm r) (hs : BehindTerm s)
    (h : t.text ++ r = t'.text ++ s) : t = t' ∧ r = s := by
  cases t with
  | mk f fs =>
    cases t' with
    | mk f' fs' =>
      rw [Term.text, Term.text, List.append_assoc, List.append_assoc] at h
      obtain ⟨rfl, hmore⟩ :=
        Factor.unique f f' (behindFactor_factors fs hr) (behindFactor_factors fs' hs) h
      obtain ⟨rfl, hrest⟩ := Factors.unique fs fs' hr hs hmore
      exact ⟨rfl, hrest⟩

theorem Factors.unique (fs fs' : Factors) {r s : List Char} (hr : BehindTerm r)
    (hs : BehindTerm s) (h : fs.text ++ r = fs'.text ++ s) : fs = fs' ∧ r = s := by
  cases fs with
  | nil =>
    cases fs' with
    | nil => exact ⟨rfl, h⟩
    | cons sign f more =>
      rw [Factors.text, List.nil_append, Factors.text, List.cons_append] at h
      rw [h] at hr
      exact absurd hr (not_behindTerm_char sign _)
  | cons sign f more =>
    cases fs' with
    | nil =>
      rw [Factors.text, Factors.text, List.nil_append, List.cons_append] at h
      rw [← h] at hs
      exact absurd hs (not_behindTerm_char sign _)
    | cons sign' f' more' =>
      rw [Factors.text, Factors.text, List.cons_append, List.cons_append, List.cons.injEq,
        List.append_assoc, List.append_assoc] at h
      obtain rfl := Multiplicative.char_injective h.1
      obtain ⟨rfl, hmore⟩ :=
        Factor.unique f f' (behindFactor_factors more hr) (behindFactor_factors more' hs) h.2
      obtain ⟨rfl, hrest⟩ := Factors.unique more more' hr hs hmore
      exact ⟨rfl, hrest⟩

theorem Factor.unique (f f' : Factor) {r s : List Char} (hr : BehindFactor r)
    (hs : BehindFactor s) (h : f.text ++ r = f'.text ++ s) : f = f' ∧ r = s := by
  have hhead : f.opening = f'.opening := by
    rw [← f.head_text r, ← f'.head_text s, h]
  cases f with
  | minus g =>
    cases f' with
    | minus g' =>
      rw [Factor.text, Factor.text, List.cons_append, List.cons_append, List.cons.injEq] at h
      obtain ⟨rfl, hrest⟩ := Factor.unique g g' hr hs h.2
      exact ⟨rfl, hrest⟩
    | plus | group | number => simp [Factor.opening] at hhead
  | plus g =>
    cases f' with
    | plus g' =>
      rw [Factor.text, Factor.text, List.cons_append, List.cons_append, List.cons.injEq] at h
      obtain ⟨rfl, hrest⟩ := Factor.unique g g' hr hs h.2
      exact ⟨rfl, hrest⟩
    | minus | group | number => simp [Factor.opening] at hhead
  | group e =>
    cases f' with
    | group e' =>
      rw [Factor.text, Factor.text, List.cons_append, List.cons_append, List.cons.injEq,
        List.append_assoc, List.append_assoc] at h
      obtain ⟨rfl, hrest⟩ :=
        Expr.unique e e' (behindExpr_close r) (behindExpr_close s) h.2
      exact ⟨rfl, (List.cons.inj hrest).2⟩
    | minus | plus | number => simp [Factor.opening] at hhead
  | number n =>
    cases f' with
    | number m =>
      obtain ⟨rfl, hrest⟩ := Literal.text_unique hr hs h
      exact ⟨rfl, hrest⟩
    | minus | plus | group => simp [Factor.opening] at hhead
end

theorem Expr.text_injective {e e' : Expr} (h : e.text = e'.text) : e = e' := by
  have happend : e.text ++ [] = e'.text ++ [] := by rw [h]
  exact (Expr.unique e e' behindExpr_nil behindExpr_nil happend).1

end Cardwalk.Calculator
