import Cardwalk.Proofs.Placeholder.Insertion

/-!
# What the last pass leaves

Behind the last pass no double brace of a text closes on its line. So no
placeholder is left in a text that a card makes use of, and one that nothing
is bound to comes to nothing.
-/

set_option autoImplicit false

namespace Cardwalk.Placeholder

/-- No double brace closes on its line. -/
def Stripped (s : List Char) : Prop := ∀ t, '{' :: '{' :: t <:+ s → closingAt t = none

@[simp] theorem closingAt_brace (s : List Char) :
    closingAt ('{' :: s) = (closingAt s).map (· + 1) := by
  simp [closingAt]

theorem stripFrom_brace {t : List Char} (h : closingAt t = none) :
    stripFrom 0 ('{' :: '{' :: t) = '{' :: stripFrom 0 ('{' :: t) := by
  simp [stripFrom, h]

theorem stripFrom_cons {c : Char} {s : List Char}
    (h : ∀ t, c = '{' → s = '{' :: t → closingAt t = none) :
    stripFrom 0 (c :: s) = c :: stripFrom 0 s := by
  by_cases hopen : ∃ t, c = '{' ∧ s = '{' :: t
  · obtain ⟨t, rfl, rfl⟩ := hopen
    exact stripFrom_brace (h t rfl rfl)
  · rw [stripFrom]
    exact fun t hc hs => hopen ⟨t, hc, hs⟩

theorem stripFrom_unclosed {c : Char} {s : List Char} (h : closingAt (c :: s) = none) :
    stripFrom 0 (c :: s) = c :: stripFrom 0 s := by
  refine stripFrom_cons fun t hc hs => ?_
  rw [hc, hs] at h
  simpa using h

theorem closingAt_stripFrom {s : List Char} (h : closingAt s = none) :
    closingAt (stripFrom 0 s) = none := by
  fun_induction closingAt s with
  | case1 => rfl
  | case2 s => cases h
  | case3 s hx => simp [stripFrom, closingAt]
  | case4 c s hx hc ih =>
    have hs : closingAt s = none := by simpa using h
    have hcs : closingAt (c :: s) = none := by
      rw [closingAt, if_neg hc, hs]
      · rfl
      · exact hx
    -- Two closing braces do not come about: the head of the rest stays.
    have hmeet : ∀ tail, c = '}' → stripFrom 0 s = '}' :: tail → False := by
      intro tail hb he
      cases s with
      | nil => cases he
      | cons d s =>
        rw [stripFrom_unclosed hs] at he
        obtain ⟨rfl, -⟩ := List.cons.inj he
        exact hx s hb rfl
    rw [stripFrom_unclosed hcs, closingAt, if_neg hc, ih hs]
    · rfl
    · exact hmeet

theorem stripped_cons {c : Char} {s : List Char} (h : Stripped s)
    (hopen : ∀ t, c = '{' → s = '{' :: t → closingAt t = none) : Stripped (c :: s) := by
  intro t ht
  rcases List.suffix_cons_iff.mp ht with he | hs
  · obtain ⟨rfl, rfl⟩ := List.cons.inj he
    exact hopen t rfl rfl
  · exact h t hs

theorem stripped_stripFrom (k : Nat) (s : List Char) : Stripped (stripFrom k s) := by
  fun_induction stripFrom k s with
  | case1 k => simp [Stripped]
  | case2 k c s ih => exact ih
  | case3 t n hn ih => exact ih
  | case4 t hn ih =>
    refine stripped_cons ih fun u _ hu => ?_
    have hopen : closingAt ('{' :: t) = none := by rw [closingAt_brace, hn]; rfl
    have hleft := closingAt_stripFrom hopen
    rw [hu, closingAt_brace] at hleft
    simpa using hleft
  | case5 c s hx ih =>
    refine stripped_cons ih fun u hc hu => ?_
    cases s with
    | nil => cases hu
    | cons d s =>
      have hd : d ≠ '{' := fun hd => hx s hc (by rw [hd])
      rw [stripFrom_cons fun t ht _ => absurd ht hd] at hu
      exact absurd (List.cons.inj hu).1 hd

theorem stripped_strip (s : List Char) : Stripped (strip s) := stripped_stripFrom 0 s

theorem closingAt_closed {name : List Char} (h : '\n' ∉ name) (rest : List Char) :
    closingAt (name ++ '}' :: '}' :: rest) ≠ none := by
  induction name with
  | nil => simp [closingAt]
  | cons c name ih =>
    have hrest := ih fun hm => h (by simp [hm])
    have hc : c ≠ '\n' := fun hc => h (by simp [hc])
    rw [List.cons_append]
    unfold closingAt
    split <;> simp_all

theorem infix_of_occurs {piece s : List Char} (h : Text.occurs piece s = true) :
    piece <:+: s := by
  induction s with
  | nil => simp [List.isEmpty_iff.mp h]
  | cons c s ih =>
    rw [Text.occurs, Bool.or_eq_true] at h
    rcases h with hs | hs
    · obtain ⟨rest, hr⟩ := Text.startsWith_iff.mp hs
      exact hr ▸ (List.prefix_append piece rest).isInfix
    · exact (ih hs).trans (List.suffix_cons c s).isInfix

/-- No piece between double braces stands on one line. -/
def Clear (s : List Char) : Prop := ∀ w, '\n' ∉ w → ¬ token w <:+: s

theorem Stripped.clear {s : List Char} (h : Stripped s) : Clear s := by
  rintro w hw ⟨before, rest, rfl⟩
  refine closingAt_closed hw rest (h _ ⟨before, ?_⟩)
  simp [token]

theorem Stripped.not_occurs {s name : List Char} (h : Stripped s) (hn : '\n' ∉ name) :
    Text.occurs (token name) s = false :=
  Bool.eq_false_iff.mpr fun ho => h.clear name hn (infix_of_occurs ho)

theorem resolvePrompt_stripped (template : String) (previous : Option Envelope) :
    Stripped (resolvePrompt template previous).toList := by
  rw [resolvePrompt, String.toList_ofList]
  exact stripped_strip _

theorem applyBinding_unbound {previous : Option Envelope} {field : Field}
    (h : (previous.bind fun e => e.field field) = none) (name : String)
    (template : List Char) : applyBinding previous template ⟨name, field⟩ = template := by
  rw [applyBinding, h]

/-- The placeholder of a tool result comes to nothing: no template has anything
put in its place, and it stands in no prompt. -/
structure SilentToolResult (previous : Option Envelope) : Prop where
  unbound : ∀ template,
    applyBinding previous template ⟨"tool_result", .toolResult⟩ = template
  removed : ∀ template,
    Text.occurs (token "tool_result".toList) (resolvePrompt template previous).toList = false
  nothing : ∀ left right : String, BraceFree left.toList → BraceFree right.toList →
    resolvePrompt (left ++ braced "tool_result" ++ right) previous = left ++ right

theorem resolvePrompt_toolResult {left right : String} (hl : BraceFree left.toList)
    (hr : BraceFree right.toList) {previous : Option Envelope}
    (h : (previous.bind fun e => e.field .toolResult) = none) :
    resolvePrompt (left ++ braced "tool_result" ++ right) previous = left ++ right := by
  have hn : BraceFree "tool_result".toList := by decide
  have htext : (left ++ braced "tool_result" ++ right).toList =
      left.toList ++ token "tool_result".toList ++ right.toList := by
    simp [braced]
  have hother : ∀ b : Binding, b.name.toList ≠ "tool_result".toList →
      applyBinding previous (left.toList ++ token "tool_result".toList ++ right.toList) b =
        left.toList ++ token "tool_result".toList ++ right.toList := by
    intro b hb
    have hone : ∀ x ∈ [b], x.name.toList ≠ "tool_result".toList := by simpa using hb
    exact applyAll_other hl hr hn previous hone
  have hstrip : strip (token "tool_result".toList) = [] := by decide
  rw [resolvePrompt, htext]
  simp only [hother ⟨"input", .value⟩ (by decide), hother ⟨"rag_content", .content⟩ (by decide),
    applyBinding_unbound h "tool_result", hother ⟨"input", .text⟩ (by decide), ite_self,
    strip_between hl hr, hstrip, List.append_nil]
  simp

theorem silent_toolResult {previous : Option Envelope}
    (h : (previous.bind fun e => e.field .toolResult) = none) : SilentToolResult previous where
  unbound := applyBinding_unbound h "tool_result"
  removed template := (resolvePrompt_stripped template previous).not_occurs (by decide)
  nothing _ _ hl hr := resolvePrompt_toolResult hl hr h

end Cardwalk.Placeholder
