import Cardwalk.Proofs.Placeholder.Stripping

/-!
# The guard of a prompt

The text of the previous envelope fills a prompt only where neither its value
nor its content does. Which of the two it is shows in the template alone,
although the guard looks at what the earlier bindings left of it. So the text
has no part in a prompt that is more specific, and every other prompt is made
of the tool result and the text only.
-/

set_option autoImplicit false

namespace Cardwalk.Placeholder

theorem mentions_iff {name template : List Char} :
    mentions name template = true ↔ token name <:+: template := by
  constructor
  · exact infix_of_occurs
  · rintro ⟨left, right, rfl⟩
    rw [List.append_assoc]
    exact Text.occurs_append (by simp [token]) left right

theorem applies_iff {e : Envelope} {template : List Char} {b : Binding} :
    applies (some e) template b = true ↔
      (e.field b.field).isSome ∧ token b.name.toList <:+: template := by
  rw [applies, Option.bind_some]
  cases e.field b.field with
  | none => simp
  | some value => simp [mentions_iff]

theorem applyBinding_of_not_applies {previous : Option Envelope} {template : List Char}
    {b : Binding} (h : applies previous template b = false) :
    applyBinding previous template b = template := by
  unfold applies at h
  unfold applyBinding
  split
  · rename_i value hv
    rw [hv] at h
    exact Text.replace_of_not_occurs h value.toList
  · rfl

theorem applyAll_congr {previous other : Option Envelope} {bindings : List Binding}
    (h : ∀ b ∈ bindings, (previous.bind fun e => e.field b.field) =
      other.bind fun e => e.field b.field) (template : List Char) :
    applyAll previous bindings template = applyAll other bindings template := by
  induction bindings generalizing template with
  | nil => rfl
  | cons b bindings ih =>
    rw [List.forall_mem_cons] at h
    have hb : applyBinding previous template b = applyBinding other template b := by
      rw [applyBinding, applyBinding, h.1]
    rw [applyAll, List.foldl_cons, hb]
    exact ih h.2 (applyBinding other template b)

def Specific (template : String) (e : Envelope) : Prop :=
  (e.value.isSome ∧ token "input".toList <:+: template.toList) ∨
    (e.content.isSome ∧ token "rag_content".toList <:+: template.toList)

/-- What the value puts in or takes out of a template does not sway the guard:
where it does anything, the guard holds already. -/
theorem applies_iff_specific {template : String} {e : Envelope} :
    (applies (some e) template.toList ⟨"input", .value⟩ ||
      applies (some e) (applyBinding (some e) template.toList ⟨"input", .value⟩)
        ⟨"rag_content", .content⟩) = true ↔ Specific template e := by
  have hvalue : applies (some e) template.toList ⟨"input", .value⟩ = true ↔
      e.value.isSome ∧ token "input".toList <:+: template.toList := applies_iff
  have hcontent : applies (some e) template.toList ⟨"rag_content", .content⟩ = true ↔
      e.content.isSome ∧ token "rag_content".toList <:+: template.toList := applies_iff
  cases h : applies (some e) template.toList ⟨"input", .value⟩ with
  | true => exact iff_of_true rfl (.inl (hvalue.mp h))
  | false =>
    rw [applyBinding_of_not_applies h, Bool.false_or, hcontent]
    have hno : ¬ (e.value.isSome ∧ token "input".toList <:+: template.toList) := by
      intro hin
      rw [hvalue.mpr hin] at h
      exact Bool.noConfusion h
    exact (or_iff_right hno).symm

theorem resolvePrompt_specific {template : String} {e : Envelope} (h : Specific template e) :
    resolvePrompt template (some e) = resolve (some e)
      [⟨"input", .value⟩, ⟨"rag_content", .content⟩, ⟨"tool_result", .toolResult⟩] template := by
  rw [resolvePrompt, if_pos (applies_iff_specific.mpr h)]
  rfl

theorem resolvePrompt_general {template : String} {e : Envelope} (h : ¬ Specific template e) :
    resolvePrompt template (some e) =
      resolve (some e) [⟨"tool_result", .toolResult⟩, ⟨"input", .text⟩] template := by
  have hguard := mt applies_iff_specific.mp h
  obtain ⟨hvalue, hcontent⟩ := Bool.or_eq_false_iff.mp (Bool.eq_false_iff.mpr hguard)
  rw [resolvePrompt, if_neg hguard, applyBinding_of_not_applies hcontent,
    applyBinding_of_not_applies hvalue]
  rfl

/-- The text of an envelope has no part in a prompt that its value or its
content fills.  Every other prompt, such as one of an envelope with no value
and no content, is what the tool result and then the text make of it. -/
theorem text_guarded :
    (∀ (template : String) (e : Envelope) (text : Option String), Specific template e →
      resolvePrompt template (some { e with text := text }) = resolvePrompt template (some e)) ∧
    ∀ (template : String) (e : Envelope), ¬ Specific template e →
      resolvePrompt template (some e) =
        resolve (some e) [⟨"tool_result", .toolResult⟩, ⟨"input", .text⟩] template := by
  refine ⟨fun template e text h => ?_, fun template e => resolvePrompt_general⟩
  have hother : Specific template { e with text := text } := h
  rw [resolvePrompt_specific h, resolvePrompt_specific hother, resolve, resolve, applyAll_congr]
  simp [Envelope.field]

def echoing : Envelope := { value := some "\x7b\x7binput\x7d\x7d", content := some "C" }

theorem text_guarded_echoing :
    resolvePrompt (braced "input" ++ " " ++ braced "rag_content")
        (some { echoing with text := some "T" }) = " C" ∧
      resolvePrompt (braced "input") (some { Envelope.ofText "T" with content := some "C" }) =
        "T" := by
  have hspecific : Specific (braced "input" ++ " " ++ braced "rag_content") echoing :=
    .inl ⟨rfl, mentions_iff.mp (by decide +kernel)⟩
  have hgeneral : ¬ Specific (braced "input")
      { Envelope.ofText "T" with content := some "C" } := by
    rintro (⟨hvalue, -⟩ | ⟨-, htoken⟩)
    · cases hvalue
    · exact absurd (mentions_iff.mpr htoken) (by decide +kernel)
  exact ⟨(text_guarded.1 _ _ (some "T") hspecific).trans (by decide +kernel),
    (text_guarded.2 _ _ hgeneral).trans (by decide +kernel)⟩

end Cardwalk.Placeholder
