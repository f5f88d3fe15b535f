import Cardwalk.Proofs.Calculator.Grammar

/-!
# The calculator reads its grammar

Every derivation that is not nested too deeply is read as its tree, and
whatever is read has such a derivation.
-/

set_option autoImplicit false

namespace Cardwalk.Calculator

def Literal.tree (n : Literal) : Tree :=
  .number (n.digits.foldl (fun m c => m * 10 + (c.toNat - 48)) 0) n.places

mutual
def Expr.tree : Expr → Tree
  | .mk first more => more.treeFrom first.tree

def Terms.treeFrom : Terms → Tree → Tree
  | .nil, t => t
  | .cons sign u more, t => more.treeFrom (.apply sign.operation t u.tree)

def Term.tree : Term → Tree
  | .mk first more => more.treeFrom first.tree

def Factors.treeFrom : Factors → Tree → Tree
  | .nil, t => t
  | .cons sign f more, t => more.treeFrom (.apply sign.operation t f.tree)

def Factor.tree : Factor → Tree
  | .minus f => .minus f.tree
  | .plus f => .plus f.tree
  | .group e => e.tree
  | .number n => n.tree
end

mutual
theorem Expr.value_tree (e : Expr) : e.tree.value = e.value := by
  cases e with
  | mk first more => rw [Expr.tree, Expr.value, more.value_treeFrom, first.value_tree]

theorem Terms.value_treeFrom (ts : Terms) (t : Tree) :
    (ts.treeFrom t).value = ts.valueFrom t.value := by
  cases ts with
  | nil => rfl
  | cons sign u more =>
    rw [Terms.treeFrom, Terms.valueFrom, more.value_treeFrom, Tree.value, u.value_tree]

theorem Term.value_tree (t : Term) : t.tree.value = t.value := by
  cases t with
  | mk first more => rw [Term.tree, Term.value, more.value_treeFrom, first.value_tree]

theorem Factors.value_treeFrom (fs : Factors) (t : Tree) :
    (fs.treeFrom t).value = fs.valueFrom t.value := by
  cases fs with
  | nil => rfl
  | cons sign f more =>
    rw [Factors.treeFrom, Factors.valueFrom, more.value_treeFrom, Tree.value, f.value_tree]

theorem Factor.value_tree (f : Factor) : f.tree.value = f.value := by
  cases f with
  | minus f => rw [Factor.tree, Factor.value, Tree.value, f.value_tree]
  | plus f => rw [Factor.tree, Factor.value, Tree.value, f.value_tree]
  | group e => rw [Factor.tree, Factor.value, e.value_tree]
  | number n => rfl
end

theorem filter_point {s : List Char} (h : ∀ c ∈ s, c.isDigit = true) :
    s.filter (· = '.') = [] := by
  rw [List.filter_eq_nil_iff]
  intro c hc
  simpa using ne_point_of_isDigit (h c hc)

namespace Literal

theorem fraction_isDigit (n : Literal) : ∀ c ∈ n.fraction.getD [], c.isDigit = true := by
  intro c hc
  exact n.decimal c (List.mem_append_right _ hc)

theorem text_none {n : Literal} (h : n.fraction = none) : n.text = n.whole := by
  rw [text, h]
  exact List.append_nil _

theorem text_some {n : Literal} {behind : List Char} (h : n.fraction = some behind) :
    n.text = n.whole ++ '.' :: behind := by
  rw [text, h]

theorem filter_digits (n : Literal) : n.text.filter Char.isDigit = n.digits := by
  have hwhole := List.filter_eq_self.mpr n.whole_isDigit
  have hbehind := List.filter_eq_self.mpr n.fraction_isDigit
  cases hf : n.fraction with
  | none => rw [text_none hf, digits, hwhole, hf, Option.getD_none, List.append_nil]
  | some behind =>
    have hpoint : ¬ Char.isDigit '.' = true := by decide
    rw [hf, Option.getD_some] at hbehind
    rw [text_some hf, digits, List.filter_append, hwhole, List.filter_cons_of_neg hpoint, hbehind,
      hf, Option.getD_some]

theorem filter_points (n : Literal) : (n.text.filter (· = '.')).length ≤ 1 := by
  have hwhole := filter_point n.whole_isDigit
  have hbehind := filter_point n.fraction_isDigit
  cases hf : n.fraction with
  | none =>
    rw [text_none hf, hwhole]
    exact Nat.zero_le 1
  | some behind =>
    rw [hf, Option.getD_some] at hbehind
    rw [text_some hf, List.filter_append, hwhole, List.filter_cons_of_pos (by decide), hbehind]
    exact Nat.le_refl 1

theorem length_behind (n : Literal) : (n.text.dropWhile (· ≠ '.')).length - 1 = n.places := by
  rw [n.dropWhile_whole, places]
  cases n.fraction with
  | none => rfl
  | some behind => rfl

end Literal

theorem literal_text (n : Literal) : literal n.text = some n.tree := by
  have hsome : n.digits.isEmpty = false := by
    rw [List.isEmpty_eq_false_iff]
    exact n.some_digit
  have hpoints := n.filter_points
  rw [literal, n.filter_digits, n.length_behind, hsome, Bool.false_or, if_neg]
  · rfl
  · rw [decide_eq_true_eq]
    omega

theorem literal_guard {w : List Char} {t : Tree} (h : literal w = some t) :
    w.filter Char.isDigit ≠ [] ∧ (w.filter (· = '.')).length ≤ 1 := by
  by_contra hbad
  have hguard : ((w.filter Char.isDigit).isEmpty ||
      decide (1 < (w.filter (· = '.')).length)) = true := by
    rw [Bool.or_eq_true, List.isEmpty_iff, decide_eq_true_eq]
    by_cases hd : w.filter Char.isDigit = []
    · exact .inl hd
    · right
      by_contra hp
      exact hbad ⟨hd, by omega⟩
  rw [literal, if_pos hguard] at h
  exact absurd h (by simp)

theorem isDigit_of_isNumberChar {c : Char} (h : isNumberChar c = true) (hne : c ≠ '.') :
    c.isDigit = true := by
  simpa [isNumberChar, hne] using h

theorem exists_literal {w : List Char} (hw : ∀ c ∈ w, isNumberChar c = true)
    (hsome : w.filter Char.isDigit ≠ []) (hpoints : (w.filter (· = '.')).length ≤ 1) :
    ∃ n : Literal, n.text = w := by
  have hwhole : ∀ c ∈ w.takeWhile (· ≠ '.'), c.isDigit = true := by
    intro c hc
    have hne : c ≠ '.' := by simpa using List.mem_takeWhile_imp hc
    exact isDigit_of_isNumberChar (hw c (List.takeWhile_subset _ hc)) hne
  have hsplit : w.takeWhile (· ≠ '.') ++ w.dropWhile (· ≠ '.') = w :=
    List.takeWhile_append_dropWhile
  cases hd : w.dropWhile (· ≠ '.') with
  | nil =>
    rw [hd, List.append_nil] at hsplit
    rw [hsplit] at hwhole
    have hne : w ≠ [] := by
      rintro rfl
      exact hsome rfl
    exact ⟨⟨w, none, by simpa using hwhole, by simpa using hne⟩, Literal.text_none rfl⟩
  | cons c behind =>
    have hc : c = '.' := by
      have hhead := List.head?_dropWhile_not (fun c : Char => decide (c ≠ '.')) w
      rw [hd] at hhead
      simpa using hhead
    subst hc
    rw [hd] at hsplit
    have hbehind : ∀ c ∈ behind, c.isDigit = true := by
      intro c hc
      have hmem : c ∈ w := by
        rw [← hsplit]
        simp [hc]
      apply isDigit_of_isNumberChar (hw c hmem)
      -- Another point would be the second one.
      rintro rfl
      have hpos : 0 < (behind.filter (· = '.')).length :=
        List.length_pos_of_mem (List.mem_filter.mpr ⟨hc, by decide⟩)
      rw [← hsplit, List.filter_append, List.length_append,
        List.filter_cons_of_pos (by decide), List.length_cons] at hpoints
      omega
    have hdecimal : ∀ c ∈ w.takeWhile (· ≠ '.') ++ behind, c.isDigit = true := by
      intro c hc
      rcases List.mem_append.mp hc with hc | hc
      · exact hwhole c hc
      · exact hbehind c hc
    have hne : w.takeWhile (· ≠ '.') ++ behind ≠ [] := by
      intro hnil
      rw [List.append_eq_nil_iff] at hnil
      rw [hnil.1, hnil.2] at hsplit
      rw [← hsplit] at hsome
      exact hsome (by decide)
    exact ⟨⟨w.takeWhile (· ≠ '.'), some behind, hdecimal, hne⟩,
      (Literal.text_some rfl).trans hsplit⟩

theorem number_text (n : Literal) {rest : List Char} (h : BehindFactor rest) :
    number (n.text ++ rest) = some (n.tree, rest) := by
  rw [number, n.takeWhile_text h, n.dropWhile_text h, literal_text, Option.map_some]

theorem exists_number {s rest : List Char} {t : Tree} (h : number s = some (t, rest)) :
    ∃ n : Literal, s = n.text ++ rest ∧ n.tree = t := by
  rw [number, Option.map_eq_some_iff] at h
  obtain ⟨u, hu, he⟩ := h
  obtain ⟨rfl, rfl⟩ := Prod.mk.inj he
  obtain ⟨hsome, hpoints⟩ := literal_guard hu
  obtain ⟨n, hn⟩ := exists_literal (fun c hc => List.mem_takeWhile_imp hc) hsome hpoints
  rw [← hn, literal_text] at hu
  refine ⟨n, ?_, Option.some.inj hu⟩
  rw [hn, List.takeWhile_append_dropWhile]

theorem Factor.length_pos (f : Factor) : 1 ≤ f.text.length := by
  cases f with
  | minus f => simp [Factor.text]
  | plus f => simp [Factor.text]
  | group e => simp [Factor.text]
  | number n => exact List.length_pos_iff.mpr n.text_ne_nil

theorem Term.length_pos (t : Term) : 1 ≤ t.text.length := by
  cases t with
  | mk first more =>
    have h := first.length_pos
    rw [Term.text, List.length_append]
    omega

theorem moreTerms_behind (steps depth : Nat) (t : Tree) {rest : List Char} (h : BehindExpr rest) :
    moreTerms (steps + 1) depth t rest = some (t, rest) := by
  cases rest with
  | nil => rw [moreTerms]
  | cons c rest => rw [moreTerms, h.2 c (by simp)]

theorem moreFactors_behind (steps depth : Nat) (t : Tree) {rest : List Char}
    (h : BehindTerm rest) : moreFactors (steps + 1) depth t rest = some (t, rest) := by
  cases rest with
  | nil => rw [moreFactors]
  | cons c rest => rw [moreFactors, h.2 c (by simp)]

theorem factor_number (steps depth : Nat) (n : Literal) (rest : List Char) :
    factor (steps + 1) (depth + 1) (n.text ++ rest) = number (n.text ++ rest) := by
  obtain ⟨c, more, hc⟩ := List.exists_cons_of_ne_nil n.text_ne_nil
  have hn : isNumberChar c = true := by
    apply n.isNumberChar_text
    rw [hc]
    exact List.mem_cons_self
  have hne : ∀ d, isNumberChar d = false → c ≠ d := by
    rintro d hd rfl
    rw [hn] at hd
    exact absurd hd (by decide)
  rw [hc, List.cons_append, factor, if_neg (hne '-' (by decide)), if_neg (hne '+' (by decide)),
    if_neg (hne '(' (by decide))]

-- By induction on the derivation. Between two characters the readers call one another
-- at most three times, so four steps a character are enough.
mutual
theorem Expr.read (e : Expr) {steps depth : Nat} {rest : List Char}
    (hs : 4 * e.text.length ≤ steps + 1) (hd : e.nesting ≤ depth) (hr : BehindExpr rest) :
    sum steps depth (e.text ++ rest) = some (e.tree, rest) := by
  cases e with
  | mk first more =>
    have hpos := first.length_pos
    rw [Expr.text, List.length_append] at hs
    rw [Expr.nesting, Nat.max_le] at hd
    obtain ⟨steps, rfl⟩ : ∃ k, steps = k + 1 := ⟨steps - 1, by omega⟩
    rw [Expr.text, List.append_assoc, sum,
      first.read (by omega) hd.1 (behindTerm_terms more hr)]
    exact more.read _ (by omega) hd.2 hr

theorem Terms.read (ts : Terms) (t : Tree) {steps depth : Nat} {rest : List Char}
    (hs : 4 * ts.text.length + 1 ≤ steps) (hd : ts.nesting ≤ depth) (hr : BehindExpr rest) :
    moreTerms steps depth t (ts.text ++ rest) = some (ts.treeFrom t, rest) := by
  obtain ⟨steps, rfl⟩ : ∃ k, steps = k + 1 := ⟨steps - 1, by omega⟩
  cases ts with
  | nil => exact moreTerms_behind steps depth t hr
  | cons sign u more =>
    rw [Terms.text, List.length_cons, List.length_append] at hs
    rw [Terms.nesting, Nat.max_le] at hd
    rw [Terms.text, List.cons_append, List.append_assoc, moreTerms, sumOperation_char]
    dsimp only
    rw [u.read (by omega) hd.1 (behindTerm_terms more hr)]
    exact more.read _ (by omega) hd.2 hr

theorem Term.read (t : Term) {steps depth : Nat} {rest : List Char}
    (hs : 4 * t.text.length ≤ steps + 2) (hd : t.nesting ≤ depth) (hr : BehindTerm rest) :
    product steps depth (t.text ++ rest) = some (t.tree, rest) := by
  cases t with
  | mk first more =>
    have hpos := first.length_pos
    rw [Term.text, List.length_append] at hs
    rw [Term.nesting, Nat.max_le] at hd
    obtain ⟨steps, rfl⟩ : ∃ k, steps = k + 1 := ⟨steps - 1, by omega⟩
    rw [Term.text, List.append_assoc, product,
      first.read (by omega) hd.1 (behindFactor_factors more hr)]
    exact more.read _ (by omega) hd.2 hr

theorem Factors.read (fs : Factors) (t : Tree) {steps depth : Nat} {rest : List Char}
    (hs : 4 * fs.text.length + 1 ≤ steps) (hd : fs.nesting ≤ depth) (hr : BehindTerm rest) :
    moreFactors steps depth t (fs.text ++ rest) = some (fs.treeFrom t, rest) := by
  obtain ⟨steps, rfl⟩ : ∃ k, steps = k + 1 := ⟨steps - 1, by omega⟩
  cases fs with
  | nil => exact moreFactors_behind steps depth t hr
  | cons sign f more =>
    rw [Factors.text, List.length_cons, List.length_append] at hs
    rw [Factors.nesting, Nat.max_le] at hd
    rw [Factors.text, List.cons_append, List.append_assoc, moreFactors, productOperation_char]
    dsimp only
    rw [f.read (by omega) hd.1 (behindFactor_factors more hr)]
    exact more.read _ (by omega) hd.2 hr

theorem Factor.read (f : Factor) {steps depth : Nat} {rest : List Char}
    (hs : 4 * f.text.length ≤ steps + 3) (hd : f.nesting ≤ depth) (hr : BehindFactor rest) :
    factor steps depth (f.text ++ rest) = some (f.tree, rest) := by
  have hpos := f.length_pos
  obtain ⟨steps, rfl⟩ : ∃ k, steps = k + 1 := ⟨steps - 1, by omega⟩
  cases f with
  | minus g =>
    rw [Factor.text, List.length_cons] at hs
    rw [Factor.nesting] at hd
    obtain ⟨depth, rfl⟩ : ∃ k, depth = k + 1 := ⟨depth - 1, by omega⟩
    rw [Factor.text, List.cons_append, factor, if_pos rfl, g.read (by omega) (by omega) hr]
    rfl
  | plus g =>
    rw [Factor.text, List.length_cons] at hs
    rw [Factor.nesting] at hd
    obtain ⟨depth, rfl⟩ : ∃ k, depth = k + 1 := ⟨depth - 1, by omega⟩
    rw [Factor.text, List.cons_append, factor, if_neg (by decide), if_pos rfl,
      g.read (by omega) (by omega) hr]
    rfl
  | group e =>
    rw [Factor.text, List.length_cons, List.length_append, List.length_singleton] at hs
    rw [Factor.nesting] at hd
    obtain ⟨depth, rfl⟩ : ∃ k, depth = k + 1 := ⟨depth - 1, by omega⟩
    rw [Factor.text, List.cons_append, List.append_assoc, factor, if_neg (by decide),
      if_neg (by decide), if_pos rfl]
    rw [List.singleton_append, e.read (by omega) (by omega) (behindExpr_close rest)]
    rfl
  | number n =>
    rw [Factor.nesting] at hd
    obtain ⟨depth, rfl⟩ : ∃ k, depth = k + 1 := ⟨depth - 1, by omega⟩
    rw [Factor.text, factor_number]
    exact number_text n hr
end

/-- So many steps read nothing but derivations. -/
structure Sound (steps : Nat) : Prop where
  expr : ∀ {depth : Nat} {s rest : List Char} {t : Tree}, sum steps depth s = some (t, rest) →
    ∃ e : Expr, s = e.text ++ rest ∧ e.tree = t ∧ e.nesting ≤ depth
  terms : ∀ {depth : Nat} {s rest : List Char} {t u : Tree},
    moreTerms steps depth t s = some (u, rest) →
      ∃ ts : Terms, s = ts.text ++ rest ∧ ts.treeFrom t = u ∧ ts.nesting ≤ depth
  term : ∀ {depth : Nat} {s rest : List Char} {t : Tree},
    product steps depth s = some (t, rest) →
      ∃ u : Term, s = u.text ++ rest ∧ u.tree = t ∧ u.nesting ≤ depth
  factors : ∀ {depth : Nat} {s rest : List Char} {t u : Tree},
    moreFactors steps depth t s = some (u, rest) →
      ∃ fs : Factors, s = fs.text ++ rest ∧ fs.treeFrom t = u ∧ fs.nesting ≤ depth
  factor : ∀ {depth : Nat} {s rest : List Char} {t : Tree},
    factor steps depth s = some (t, rest) →
      ∃ f : Factor, s = f.text ++ rest ∧ f.tree = t ∧ f.nesting ≤ depth

theorem sound_zero : Sound 0 where
  expr h := by simp [sum] at h
  terms h := by simp [moreTerms] at h
  term h := by simp [product] at h
  factors h := by simp [moreFactors] at h
  factor h := by simp [factor] at h

theorem exists_additive {c : Char} {op : Operation} (h : sumOperation c = some op) :
    ∃ sign : Additive, sign.char = c ∧ sign.operation = op := by
  unfold sumOperation at h
  split at h
  · exact ⟨.plus, rfl, Option.some.inj h⟩
  · exact ⟨.minus, rfl, Option.some.inj h⟩
  · exact absurd h (by simp)

theorem exists_multiplicative {c : Char} {op : Operation} (h : productOperation c = some op) :
    ∃ sign : Multiplicative, sign.char = c ∧ sign.operation = op := by
  unfold productOperation at h
  split at h
  · exact ⟨.times, rfl, Option.some.inj h⟩
  · exact ⟨.divided, rfl, Option.some.inj h⟩
  · exact absurd h (by simp)

section Steps

variable {steps depth : Nat} {s rest : List Char} {t u : Tree} (ih : Sound steps)
include ih

theorem sum_sound (h : sum (steps + 1) depth s = some (t, rest)) :
    ∃ e : Expr, s = e.text ++ rest ∧ e.tree = t ∧ e.nesting ≤ depth := by
  rw [sum] at h
  split at h
  · rename_i v more hp
    obtain ⟨first, rfl, rfl, hf⟩ := ih.term hp
    obtain ⟨ts, rfl, rfl, hts⟩ := ih.terms h
    refine ⟨.mk first ts, ?_, rfl, ?_⟩
    · rw [Expr.text, List.append_assoc]
    · rw [Expr.nesting, Nat.max_le]
      exact ⟨hf, hts⟩
  · exact absurd h (by simp)

theorem moreTerms_sound (h : moreTerms (steps + 1) depth t s = some (u, rest)) :
    ∃ ts : Terms, s = ts.text ++ rest ∧ ts.treeFrom t = u ∧ ts.nesting ≤ depth := by
  have hnil : ∀ s, some (t, s) = some (u, rest) →
      ∃ ts : Terms, s = ts.text ++ rest ∧ ts.treeFrom t = u ∧ ts.nesting ≤ depth := by
    intro s he
    obtain ⟨rfl, rfl⟩ := Prod.mk.inj (Option.some.inj he)
    exact ⟨.nil, rfl, rfl, Nat.zero_le depth⟩
  cases s with
  | nil =>
    rw [moreTerms] at h
    exact hnil _ h
  | cons c s =>
    rw [moreTerms] at h
    split at h
    · exact hnil _ h
    · rename_i op hop
      obtain ⟨sign, rfl, rfl⟩ := exists_additive hop
      split at h
      · rename_i v more hp
        obtain ⟨first, rfl, rfl, hf⟩ := ih.term hp
        obtain ⟨ts, rfl, rfl, hts⟩ := ih.terms h
        refine ⟨.cons sign first ts, ?_, rfl, ?_⟩
        · rw [Terms.text, List.cons_append, List.append_assoc]
        · rw [Terms.nesting, Nat.max_le]
          exact ⟨hf, hts⟩
      · exact absurd h (by simp)

theorem product_sound (h : product (steps + 1) depth s = some (t, rest)) :
    ∃ u : Term, s = u.text ++ rest ∧ u.tree = t ∧ u.nesting ≤ depth := by
  rw [product] at h
  split at h
  · rename_i v more hp
    obtain ⟨first, rfl, rfl, hf⟩ := ih.factor hp
    obtain ⟨fs, rfl, rfl, hfs⟩ := ih.factors h
    refine ⟨.mk first fs, ?_, rfl, ?_⟩
    · rw [Term.text, List.append_assoc]
    · rw [Term.nesting, Nat.max_le]
      exact ⟨hf, hfs⟩
  · exact absurd h (by simp)

theorem moreFactors_sound (h : moreFactors (steps + 1) depth t s = some (u, rest)) :
    ∃ fs : Factors, s = fs.text ++ rest ∧ fs.treeFrom t = u ∧ fs.nesting ≤ depth := by
  have hnil : ∀ s, some (t, s) = some (u, rest) →
      ∃ fs : Factors, s = fs.text ++ rest ∧ fs.treeFrom t = u ∧ fs.nesting ≤ depth := by
    intro s he
    obtain ⟨rfl, rfl⟩ := Prod.mk.inj (Option.some.inj he)
    exact ⟨.nil, rfl, rfl, Nat.zero_le depth⟩
  cases s with
  | nil =>
    rw [moreFactors] at h
    exact hnil _ h
  | cons c s =>
    rw [moreFactors] at h
    split at h
    · exact hnil _ h
    · rename_i op hop
      obtain ⟨sign, rfl, rfl⟩ := exists_multiplicative hop
      split at h
      · rename_i v more hp
        obtain ⟨first, rfl, rfl, hf⟩ := ih.factor hp
        obtain ⟨fs, rfl, rfl, hfs⟩ := ih.factors h
        refine ⟨.cons sign first fs, ?_, rfl, ?_⟩
        · rw [Factors.text, List.cons_append, List.append_assoc]
        · rw [Factors.nesting, Nat.max_le]
          exact ⟨hf, hfs⟩
      · exact absurd h (by simp)

theorem factor_sound (h : factor (steps + 1) depth s = some (t, rest)) :
    ∃ f : Factor, s = f.text ++ rest ∧ f.tree = t ∧ f.nesting ≤ depth := by
  cases depth with
  | zero => simp [factor] at h
  | succ depth =>
    cases s with
    | nil => simp [factor] at h
    | cons c s =>
      rw [factor] at h
      split at h
      · rename_i hc
        subst hc
        obtain ⟨⟨v, more⟩, hf, he⟩ := Option.map_eq_some_iff.mp h
        obtain ⟨rfl, rfl⟩ := Prod.mk.inj he
        obtain ⟨f, rfl, rfl, hd⟩ := ih.factor hf
        exact ⟨.minus f, rfl, rfl, Nat.succ_le_succ hd⟩
      · split at h
        · rename_i hc
          subst hc
          obtain ⟨⟨v, more⟩, hf, he⟩ := Option.map_eq_some_iff.mp h
          obtain ⟨rfl, rfl⟩ := Prod.mk.inj he
          obtain ⟨f, rfl, rfl, hd⟩ := ih.factor hf
          exact ⟨.plus f, rfl, rfl, Nat.succ_le_succ hd⟩
        · split at h
          · rename_i hc
            subst hc
            split at h
            · rename_i v more he
              obtain ⟨rfl, rfl⟩ := Prod.mk.inj (Option.some.inj h)
              obtain ⟨e, rfl, rfl, hd⟩ := ih.expr he
              refine ⟨.group e, ?_, rfl, Nat.succ_le_succ hd⟩
              rw [Factor.text, List.cons_append, List.append_assoc, List.singleton_append]
            · exact absurd h (by simp)
          · obtain ⟨n, hn, rfl⟩ := exists_number h
            exact ⟨.number n, hn, rfl, Nat.succ_le_succ (Nat.zero_le depth)⟩

theorem sound_succ : Sound (steps + 1) where
  expr h := sum_sound ih h
  terms h := moreTerms_sound ih h
  term h := product_sound ih h
  factors h := moreFactors_sound ih h
  factor h := factor_sound ih h

end Steps

theorem sound (steps : Nat) : Sound steps := by
  induction steps with
  | zero => exact sound_zero
  | succ steps ih => exact sound_succ ih

end Cardwalk.Calculator
