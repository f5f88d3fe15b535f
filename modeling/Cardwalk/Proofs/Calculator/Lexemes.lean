import Mathlib.Data.List.Basic
import Cardwalk.Proofs.Calculator.Evaluation

/-!
# Blanks in expressions

The text of a derivation is a row of numbers, signs and parentheses in which no
two numbers are neighbours. Blanks are left out of an expression before it is
read, so they have no weight anywhere: a number may be interrupted by blanks,
and two numbers with nothing but blanks between them are one number.
-/

set_option autoImplicit false

namespace Cardwalk.Calculator

inductive Lexeme where
  | mark (c : Char)
  | number (n : Literal)

def Lexeme.text : Lexeme → List Char
  | .mark c => [c]
  | .number n => n.text

def textOf (ls : List Lexeme) : List Char := ls.flatMap Lexeme.text

@[simp] theorem textOf_nil : textOf [] = [] := rfl

@[simp] theorem textOf_mark (c : Char) (ls : List Lexeme) :
    textOf (.mark c :: ls) = c :: textOf ls := rfl

@[simp] theorem textOf_number (n : Literal) (ls : List Lexeme) :
    textOf (.number n :: ls) = n.text ++ textOf ls := rfl

@[simp] theorem textOf_append (ls ms : List Lexeme) :
    textOf (ls ++ ms) = textOf ls ++ textOf ms := List.flatMap_append

mutual
def Expr.lexemes : Expr → List Lexeme
  | .mk first more => first.lexemes ++ more.lexemes

def Terms.lexemes : Terms → List Lexeme
  | .nil => []
  | .cons sign t more => .mark sign.char :: (t.lexemes ++ more.lexemes)

def Term.lexemes : Term → List Lexeme
  | .mk first more => first.lexemes ++ more.lexemes

def Factors.lexemes : Factors → List Lexeme
  | .nil => []
  | .cons sign f more => .mark sign.char :: (f.lexemes ++ more.lexemes)

def Factor.lexemes : Factor → List Lexeme
  | .minus f => .mark '-' :: f.lexemes
  | .plus f => .mark '+' :: f.lexemes
  | .group e => .mark '(' :: (e.lexemes ++ [.mark ')'])
  | .number n => [.number n]
end

mutual
theorem Expr.textOf_lexemes (e : Expr) : textOf e.lexemes = e.text := by
  cases e with
  | mk first more =>
    rw [Expr.lexemes, Expr.text, textOf_append, first.textOf_lexemes, more.textOf_lexemes]

theorem Terms.textOf_lexemes (ts : Terms) : textOf ts.lexemes = ts.text := by
  cases ts with
  | nil => rfl
  | cons sign t more =>
    rw [Terms.lexemes, Terms.text, textOf_mark, textOf_append, t.textOf_lexemes,
      more.textOf_lexemes]

theorem Term.textOf_lexemes (t : Term) : textOf t.lexemes = t.text := by
  cases t with
  | mk first more =>
    rw [Term.lexemes, Term.text, textOf_append, first.textOf_lexemes, more.textOf_lexemes]

theorem Factors.textOf_lexemes (fs : Factors) : textOf fs.lexemes = fs.text := by
  cases fs with
  | nil => rfl
  | cons sign f more =>
    rw [Factors.lexemes, Factors.text, textOf_mark, textOf_append, f.textOf_lexemes,
      more.textOf_lexemes]

theorem Factor.textOf_lexemes (f : Factor) : textOf f.lexemes = f.text := by
  cases f with
  | minus g => rw [Factor.lexemes, Factor.text, textOf_mark, g.textOf_lexemes]
  | plus g => rw [Factor.lexemes, Factor.text, textOf_mark, g.textOf_lexemes]
  | group e =>
    rw [Factor.lexemes, Factor.text, textOf_mark, textOf_append, e.textOf_lexemes]
    rfl
  | number n => rw [Factor.lexemes, Factor.text, textOf_number, textOf_nil, List.append_nil]
end

/-- Behind a number stands none of its own characters, and no mark is one. -/
def Separated : List Lexeme → Prop
  | [] => True
  | .mark c :: ls => isNumberChar c = false ∧ Separated ls
  | .number _ :: ls => BehindFactor (textOf ls) ∧ Separated ls

theorem behindFactor_append {r s : List Char} (hr : BehindFactor r) (hs : BehindFactor s) :
    BehindFactor (r ++ s) := by
  cases r with
  | nil => exact hs
  | cons c r => exact hr

theorem Separated.append {ls ms : List Lexeme} (hls : Separated ls) (hms : Separated ms)
    (hmeet : BehindFactor (textOf ms)) : Separated (ls ++ ms) := by
  induction ls with
  | nil => exact hms
  | cons x ls ih =>
    cases x with
    | mark c => exact ⟨hls.1, ih hls.2⟩
    | number n =>
      have hbehind := behindFactor_append hls.1 hmeet
      rw [← textOf_append] at hbehind
      exact ⟨hbehind, ih hls.2⟩

theorem Terms.behindFactor (ts : Terms) : BehindFactor (textOf ts.lexemes) := by
  have h := (behindTerm_terms ts behindExpr_nil).1
  rwa [List.append_nil, ← ts.textOf_lexemes] at h

theorem Factors.behindFactor (fs : Factors) : BehindFactor (textOf fs.lexemes) := by
  have h := behindFactor_factors fs behindExpr_nil.1
  rwa [List.append_nil, ← fs.textOf_lexemes] at h

mutual
theorem Expr.separated (e : Expr) : Separated e.lexemes := by
  cases e with
  | mk first more =>
    rw [Expr.lexemes]
    exact first.separated.append more.separated more.behindFactor

theorem Terms.separated (ts : Terms) : Separated ts.lexemes := by
  cases ts with
  | nil => exact trivial
  | cons sign t more =>
    rw [Terms.lexemes]
    refine ⟨?_, t.separated.append more.separated more.behindFactor⟩
    cases sign <;> decide

theorem Term.separated (t : Term) : Separated t.lexemes := by
  cases t with
  | mk first more =>
    rw [Term.lexemes]
    exact first.separated.append more.separated more.behindFactor

theorem Factors.separated (fs : Factors) : Separated fs.lexemes := by
  cases fs with
  | nil => exact trivial
  | cons sign f more =>
    rw [Factors.lexemes]
    refine ⟨?_, f.separated.append more.separated more.behindFactor⟩
    cases sign <;> decide

theorem Factor.separated (f : Factor) : Separated f.lexemes := by
  cases f with
  | minus g => exact ⟨by decide, g.separated⟩
  | plus g => exact ⟨by decide, g.separated⟩
  | group e =>
    have hclose : Separated [.mark ')'] := ⟨by decide, trivial⟩
    exact ⟨by decide, e.separated.append hclose (behindExpr_close []).1.1⟩
  | number n => exact ⟨behindExpr_nil.1.1, trivial⟩
end

theorem Separated.run {ls : List Lexeme} (h : Separated ls) {a w b : List Char} (hne : w ≠ [])
    (hw : ∀ c ∈ w, isNumberChar c = true) (ht : textOf ls = a ++ (w ++ b)) :
    ∃ l n r p q, ls = l ++ .number n :: r ∧ n.text = p ++ w ++ q ∧
      a = textOf l ++ p ∧ b = q ++ textOf r := by
  induction ls generalizing a with
  | nil =>
    rw [textOf_nil, eq_comm, List.append_eq_nil_iff, List.append_eq_nil_iff] at ht
    exact absurd ht.2.1 hne
  | cons x ls ih =>
    cases x with
    | mark c =>
      cases a with
      | nil =>
        obtain ⟨d, w, rfl⟩ := List.exists_cons_of_ne_nil hne
        obtain rfl : c = d := (List.cons.inj ht).1
        have hc := hw c List.mem_cons_self
        rw [h.1] at hc
        cases hc
      | cons d a =>
        obtain ⟨rfl, hrest⟩ := List.cons.inj ht
        obtain ⟨l, n, r, p, q, rfl, hn, rfl, hb⟩ := ih h.2 hrest
        exact ⟨.mark c :: l, n, r, p, q, rfl, hn, rfl, hb⟩
    | number n =>
      rw [textOf_number, List.append_eq_append_iff] at ht
      rcases ht with ⟨v, rfl, hrest⟩ | ⟨v, hn, hrest⟩
      · obtain ⟨l, k, r, p, q, rfl, hk, rfl, hb⟩ := ih h.2 hrest
        exact ⟨.number n :: l, k, r, p, q, rfl, hk, by simp, hb⟩
      · rw [List.append_eq_append_iff] at hrest
        rcases hrest with ⟨q, hv, hb⟩ | ⟨q, hv, hb⟩
        · exact ⟨[], n, ls, a, q, rfl, by rw [hn, hv, List.append_assoc], by simp, hb⟩
        · cases q with
          | nil =>
            rw [List.append_nil] at hv
            exact ⟨[], n, ls, a, [], rfl, by rw [hn, hv, List.append_nil], rfl, hb.symm⟩
          | cons c q =>
            -- The number would go on with the first lexeme behind it.
            have hc := hw c (by rw [hv]; simp)
            rw [h.1 c (by rw [hb]; rfl)] at hc
            cases hc

def Blank (s : List Char) : Prop := ∀ c ∈ s, Text.isBlank c = true

theorem dropBlanks_append (s t : List Char) :
    dropBlanks (s ++ t) = dropBlanks s ++ dropBlanks t := List.filter_append ..

theorem dropBlanks_blank {gap : List Char} (h : Blank gap) : dropBlanks gap = [] := by
  rw [dropBlanks, List.filter_eq_nil_iff]
  intro c hc
  rw [h c hc]
  decide

theorem dropBlanks_without {before gap after : List Char} (h : Blank gap) :
    dropBlanks (before ++ gap ++ after) = dropBlanks (before ++ after) := by
  rw [dropBlanks_append, dropBlanks_append, dropBlanks_append, dropBlanks_blank h, List.append_nil]

theorem isBlank_of_isNumberChar {c : Char} (h : isNumberChar c = true) :
    Text.isBlank c = false := by
  rcases eq_or_ne c '.' with rfl | hne
  · decide
  · exact Text.isBlank_of_isDigit (isDigit_of_isNumberChar h hne)

theorem Literal.dropBlanks_text (n : Literal) : dropBlanks n.text = n.text := by
  rw [dropBlanks, List.filter_eq_self]
  intro c hc
  rw [isBlank_of_isNumberChar (n.isNumberChar_text c hc)]
  rfl

theorem exists_front (s : List Char) :
    ∃ gap t, s = gap ++ t ∧ Blank gap ∧ ∀ c ∈ t.head?, Text.isBlank c = false := by
  refine ⟨s.takeWhile Text.isBlank, s.dropWhile Text.isBlank,
    List.takeWhile_append_dropWhile.symm, fun c hc => List.mem_takeWhile_imp hc, ?_⟩
  intro c hc
  have hhead := List.head?_dropWhile_not Text.isBlank s
  rw [hc] at hhead
  simpa using hhead

theorem exists_back (s : List Char) :
    ∃ t gap, s = t ++ gap ∧ Blank gap ∧ ∀ c ∈ t.getLast?, Text.isBlank c = false := by
  obtain ⟨gap, t, hs, hgap, ht⟩ := exists_front s.reverse
  refine ⟨t.reverse, gap.reverse, ?_, fun c hc => hgap c (List.mem_reverse.mp hc), ?_⟩
  · rw [← List.reverse_append, ← hs, List.reverse_reverse]
  · rwa [List.getLast?_reverse]

/-- A piece of a text that is a word but for the blanks inside it. -/
structure Spelled (s before word after : List Char) where
  left : List Char
  piece : List Char
  right : List Char
  whole : s = left ++ piece ++ right
  left_eq : dropBlanks left = before
  piece_eq : dropBlanks piece = word
  right_eq : dropBlanks right = after
  head : ∀ c ∈ piece.head?, Text.isBlank c = false
  last : ∀ c ∈ piece.getLast?, Text.isBlank c = false

theorem exists_spelled {s before word after : List Char} (hne : word ≠ [])
    (h : dropBlanks s = before ++ word ++ after) : Nonempty (Spelled s before word after) := by
  obtain ⟨s', right, rfl, hs', hright⟩ := List.filter_eq_append_iff.mp h
  obtain ⟨left, piece, rfl, hleft, hpiece⟩ := List.filter_eq_append_iff.mp hs'
  obtain ⟨gap, piece, rfl, hgap, hhead⟩ := exists_front piece
  obtain ⟨piece, gap', rfl, hgap', hlast⟩ := exists_back piece
  change dropBlanks left = before at hleft
  change dropBlanks (gap ++ (piece ++ gap')) = word at hpiece
  change dropBlanks right = after at hright
  rw [dropBlanks_append, dropBlanks_append, dropBlanks_blank hgap, dropBlanks_blank hgap',
    List.nil_append, List.append_nil] at hpiece
  have hpne : piece ≠ [] := by
    rintro rfl
    exact hne hpiece.symm
  refine ⟨left ++ gap, piece, gap' ++ right, by simp, ?_, hpiece, ?_, ?_, hlast⟩
  · rw [dropBlanks_append, dropBlanks_blank hgap, hleft, List.append_nil]
  · rw [dropBlanks_append, dropBlanks_blank hgap', hright, List.nil_append]
  · intro c hc
    apply hhead
    rwa [List.head?_append_of_ne_nil _ hpne]

theorem evaluate_congr {s t : String} (h : dropBlanks s.toList = dropBlanks t.toList) :
    evaluate s = evaluate t := by
  rw [evaluate, evaluate, evaluateChars, evaluateChars, h]

def Literal.written (n : Literal) : String := String.ofList n.text

def apart (before : String) (n : Literal) (gap : String) (m : Literal) (after : String) : String :=
  before ++ n.written ++ gap ++ m.written ++ after

theorem dropBlanks_apart (before : String) (n : Literal) {gap : String} (hgap : Blank gap.toList)
    (m : Literal) (after : String) :
    dropBlanks (apart before n gap m after).toList =
      dropBlanks before.toList ++ ((n.text ++ m.text) ++ dropBlanks after.toList) := by
  simp only [apart, Literal.written, String.toList_append, String.toList_ofList,
    dropBlanks_append, n.dropBlanks_text, m.dropBlanks_text, dropBlanks_blank hgap,
    List.nil_append, List.append_assoc]

/-- Two texts of numbers belong to one number of a derivation. -/
def ReadAsOne (e : Expr) (before after : List Char) (n m : Literal) : Prop :=
  ∃ l k r p q, e.lexemes = l ++ .number k :: r ∧ k.text = p ++ (n.text ++ m.text) ++ q ∧
    before = textOf l ++ p ∧ after = q ++ textOf r

theorem readAsOne_of_apart {before : String} {n : Literal} {gap : String}
    (hgap : Blank gap.toList) {m : Literal} {after : String} {e : Expr}
    (h : e.text = dropBlanks (apart before n gap m after).toList) :
    ReadAsOne e (dropBlanks before.toList) (dropBlanks after.toList) n m := by
  rw [dropBlanks_apart before n hgap m after, ← e.textOf_lexemes] at h
  have hne : n.text ++ m.text ≠ [] := List.append_ne_nil_of_left_ne_nil n.text_ne_nil _
  have hchars : ∀ c ∈ n.text ++ m.text, isNumberChar c = true := by
    intro c hc
    rcases List.mem_append.mp hc with hc | hc
    · exact n.isNumberChar_text c hc
    · exact m.isNumberChar_text c hc
  exact e.separated.run hne hchars h

theorem Literal.point_mem {n : Literal} (h : n.fraction.isSome = true) : '.' ∈ n.text := by
  obtain ⟨behind, hbehind⟩ := Option.isSome_iff_exists.mp h
  rw [text_some hbehind]
  simp

theorem ReadAsOne.not_two_points {e : Expr} {before after : List Char} {n m : Literal}
    (h : ReadAsOne e before after n m) (hn : n.fraction.isSome = true)
    (hm : m.fraction.isSome = true) : False := by
  obtain ⟨l, k, r, p, q, -, hk, -, -⟩ := h
  have hpoints := k.filter_points
  have hleft : 0 < (n.text.filter (· = '.')).length :=
    List.length_pos_of_mem (List.mem_filter.mpr ⟨n.point_mem hn, by decide⟩)
  have hright : 0 < (m.text.filter (· = '.')).length :=
    List.length_pos_of_mem (List.mem_filter.mpr ⟨m.point_mem hm, by decide⟩)
  rw [hk] at hpoints
  simp only [List.filter_append, List.length_append] at hpoints
  omega

theorem evaluate_two_points {before : String} {n : Literal} {gap : String}
    (hgap : Blank gap.toList) {m : Literal} {after : String} (hn : n.fraction.isSome = true)
    (hm : m.fraction.isSome = true) : evaluate (apart before n gap m after) = none := by
  rw [Option.eq_none_iff_forall_ne_some]
  intro x hx
  obtain ⟨t, ht, -, -⟩ := evaluate_eq_some_iff.mp hx
  obtain ⟨e, htext, -, -⟩ := parse_eq_some_iff.mp ht
  exact (readAsOne_of_apart hgap htext).not_two_points hn hm

/-- Blanks have no weight. A number of an expression that has a value stands in
one piece of it, but for blanks; two numbers with nothing but blanks between
them are read as one, which cannot have two points; and blanks may come and go
anywhere. -/
theorem blanks_weightless :
    (∀ (expression : String) (x : Float), evaluate expression = some x →
      ∃ e : Expr, e.text = dropBlanks expression.toList ∧ e.nesting ≤ maxDepth ∧ e.value = x ∧
        ∀ l n r, e.lexemes = l ++ .number n :: r →
          Nonempty (Spelled expression.toList (textOf l) n.text (textOf r))) ∧
    (∀ (before gap after : String) (n m : Literal), Blank gap.toList →
      evaluate (apart before n gap m after) = evaluate (apart before n "" m after) ∧
      (∀ e : Expr, e.text = dropBlanks (apart before n gap m after).toList →
        ReadAsOne e (dropBlanks before.toList) (dropBlanks after.toList) n m) ∧
      (n.fraction.isSome = true → m.fraction.isSome = true →
        evaluate (apart before n gap m after) = none)) ∧
    ∀ before gap after : String, Blank gap.toList →
      evaluate (before ++ gap ++ after) = evaluate (before ++ after) := by
  refine ⟨?_, ?_, ?_⟩
  · intro expression x hx
    obtain ⟨t, ht, rfl, -⟩ := evaluate_eq_some_iff.mp hx
    obtain ⟨e, htext, hdepth, rfl⟩ := parse_eq_some_iff.mp ht
    refine ⟨e, htext, hdepth, e.value_tree.symm, fun l n r hl => ?_⟩
    apply exists_spelled n.text_ne_nil
    rw [← htext, ← e.textOf_lexemes, hl, textOf_append, textOf_number, List.append_assoc]
  · intro before gap after n m hgap
    have hempty : Blank "".toList := by simp [Blank]
    refine ⟨evaluate_congr ?_, fun e => readAsOne_of_apart hgap, evaluate_two_points hgap⟩
    rw [dropBlanks_apart before n hgap, dropBlanks_apart before n hempty]
  · intro before gap after hgap
    apply evaluate_congr
    simp only [String.toList_append]
    exact dropBlanks_without hgap

def twelve : Literal := ⟨['1', '2'], none, List.all_eq_true.mp (by decide), by decide⟩

theorem numbers_joined :
    evaluate "1 2" = some 12 ∧
    (∃ e : Expr, e.text = dropBlanks "1 2".toList ∧ e.lexemes = [.number twelve]) ∧
    ¬ twelve.text <:+: "1 2".toList := by
  refine ⟨by decide +kernel, ⟨.mk (.mk (.number twelve) .nil) .nil, ?_, rfl⟩, by decide⟩
  decide

end Cardwalk.Calculator
