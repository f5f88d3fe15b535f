import Cardwalk.Proofs.Json.Followed
import Cardwalk.Proofs.Json.Values
import Cardwalk.Proofs.Text.Trim

/-!
# Objects and lists

A JSON text is that of an object or a list if and only if a bracket opens it.
The spaces of JSON are four of the blanks: before any other blank there is no
value at all.
-/

set_option autoImplicit false

namespace Cardwalk.Json

def Bracketed : Json → Prop
  | .array _ | .object _ => True
  | _ => False

def Doc.Bracketed : Doc → Prop
  | .array _ _ | .object _ _ => True
  | _ => False

def Opens (s : List Char) : Prop := ∃ c t, s = c :: t ∧ (c = '[' ∨ c = '{')

theorem value_bracketed {depth : Nat} {d : Doc} {v : Json} (h : d.value depth = .ok v) :
    v.Bracketed ↔ d.Bracketed := by
  cases d with
  | array items closing =>
    cases depth with
    | zero => simp [Doc.value] at h
    | succ depth =>
      simp only [Doc.value] at h
      split at h
      · rw [← closing_check h]
        exact Iff.rfl
      · cases h
  | object ms closing =>
    cases depth with
    | zero => simp [Doc.value] at h
    | succ depth =>
      simp only [Doc.value] at h
      split at h
      · rw [← closing_check h]
        exact Iff.rfl
      · cases h
  | null | bool _ | number _ | string _ =>
    simp only [Doc.value, Except.ok.injEq] at h
    subst h
    exact Iff.rfl
  | hugeNumber | badString _ | stopped _ | stoppedString _ _ => simp [Doc.value] at h

theorem readWord_not_bracketed {whole : Doc} (h : ¬ whole.Bracketed) (w s : List Char) :
    ¬ (readWord whole w s).1.Bracketed := by
  obtain hwhole | ⟨f, hstop⟩ := readWord_outcome whole w s
  · rwa [hwhole]
  · rw [hstop]
    exact id

theorem readNumber_not_bracketed (negative : Bool) (s : List Char) :
    ¬ (readNumber negative s).1.Bracketed := by
  unfold readNumber
  split <;> exact id

theorem readText_not_bracketed (steps : Nat) (s : List Char) :
    ¬ (readText steps s).1.Bracketed := by
  unfold readText
  split
  · exact id
  · split <;> exact id

theorem scanValue_bracketed (steps : Nat) (s : List Char) :
    (scanValue (steps + 1) s).1.Bracketed ↔ Opens (skipSpace s) := by
  unfold scanValue
  split
  case h_1 hs => exact iff_of_false id (by simp [hs, Opens])
  case h_2 t hs => exact iff_of_false (readWord_not_bracketed id _ t) (by simp [hs, Opens])
  case h_3 t hs => exact iff_of_false (readWord_not_bracketed id _ t) (by simp [hs, Opens])
  case h_4 t hs => exact iff_of_false (readWord_not_bracketed id _ t) (by simp [hs, Opens])
  case h_5 t hs => exact iff_of_false (readNumber_not_bracketed true t) (by simp [hs, Opens])
  case h_6 t hs => exact iff_of_false (readText_not_bracketed steps t) (by simp [hs, Opens])
  case h_7 t hs => exact iff_of_true trivial ⟨'[', t, hs, .inl rfl⟩
  case h_8 t hs => exact iff_of_true trivial ⟨'{', t, hs, .inr rfl⟩
  case h_9 c t _ _ _ _ _ harray hobject hs =>
    have hother : ¬ Opens (skipSpace s) := by
      rintro ⟨d, u, hu, hd⟩
      obtain ⟨rfl, rfl⟩ := List.cons.inj (hs.symm.trans hu)
      exact hd.elim harray hobject
    split
    · exact iff_of_false (readNumber_not_bracketed false _) hother
    · exact iff_of_false id hother

theorem parse_bracketed {s : List Char} {v : Json} (h : parse s = .ok v) :
    v.Bracketed ↔ Opens (skipSpace s) := by
  obtain ⟨d, rest, hs, hd, -⟩ := parse_eq_ok_iff.mp h
  have hdoc := scanValue_bracketed (3 * s.length + 2) s
  rw [← scan, hs] at hdoc
  exact (value_bracketed hd).trans hdoc

theorem isDigit_of_isBlank {c : Char} (h : Text.isBlank c = true) : c.isDigit = false := by
  refine Bool.eq_false_iff.mpr fun hdigit => ?_
  rw [Text.isBlank_of_isDigit hdigit] at h
  exact Bool.noConfusion h

theorem isHead_of_isBlank {c : Char} (h : Text.isBlank c = true) : isHead c = false := by
  have hne : ∀ d, Text.isBlank d = false → c ≠ d := fun d => Text.ne_of_isBlank h
  simp [isHead, isNumberHead, isDigit_of_isBlank h, hne '-' (by decide), hne 'n' (by decide),
    hne 't' (by decide), hne 'f' (by decide), hne '"' (by decide), hne '[' (by decide),
    hne '{' (by decide)]

theorem scanValue_no_head {s t : List Char} {c : Char} (hs : skipSpace s = c :: t)
    (hc : isHead c = false) (steps : Nat) :
    scanValue (steps + 1) s = (.stopped (.at .expectedValue), none) := by
  unfold scanValue
  rw [hs]
  simp only [isHead, isNumberHead, Bool.or_eq_false_iff, decide_eq_false_iff_not] at hc
  split <;> simp_all

theorem parse_no_head {s t : List Char} {c : Char} (hs : skipSpace s = c :: t)
    (hc : isHead c = false) : parse s = .error (.flaw .expectedValue) := by
  rw [parse, decode, scan, scanValue_no_head hs hc]
  rfl

theorem quiet_of_isBlank {s : List Char} (h : ∀ c ∈ s, Text.isBlank c = true) : Quiet s := by
  rintro c t rfl
  have hblank := h c List.mem_cons_self
  have hne : ∀ d, Text.isBlank d = false → c ≠ d := fun d => Text.ne_of_isBlank hblank
  simp [continues, isDigit_of_isBlank hblank, hne '.' (by decide), hne 'e' (by decide),
    hne 'E' (by decide), hne '+' (by decide), hne '-' (by decide)]

theorem isSpace_of_not_isBlank {c : Char} (h : Text.isBlank c = false) : isSpace c = false := by
  refine Bool.eq_false_iff.mpr fun hspace => ?_
  simp only [isSpace, Bool.or_eq_true, decide_eq_true_eq] at hspace
  rcases hspace with ((rfl | rfl) | rfl) | rfl <;> revert h <;> decide

theorem skipSpace_isEmpty {s : List Char} :
    (skipSpace s).isEmpty = true ↔ ∀ c ∈ s, isSpace c = true := by
  rw [List.isEmpty_iff, skipSpace, List.dropWhile_eq_nil_iff]

theorem isSpace_of_parse {left s : List Char} {v : Json}
    (hl : ∀ c ∈ left, Text.isBlank c = true) (h : parse (left ++ s) = .ok v) :
    ∀ c ∈ left, isSpace c = true := by
  cases hleft : skipSpace left with
  | nil => exact skipSpace_isEmpty.mp (List.isEmpty_iff.mpr hleft)
  | cons c rest =>
    have hin : c ∈ left := by
      have hsuffix : c :: rest <:+ left := hleft ▸ List.dropWhile_suffix isSpace
      exact hsuffix.mem List.mem_cons_self
    rw [parse_no_head (skipSpace_append hleft s) (isHead_of_isBlank (hl c hin))] at h
    cases h

/-- A JSON text with blanks around it is one if and only if they are spaces. -/
theorem parse_between_blanks {left t right : List Char} {v : Json}
    (hl : ∀ c ∈ left, Text.isBlank c = true) (hr : ∀ c ∈ right, Text.isBlank c = true)
    (h : parse t = .ok v) (w : Json) :
    parse (left ++ t ++ right) = .ok w ↔ w = v ∧ ∀ c ∈ left ++ right, isSpace c = true := by
  have hquiet := quiet_of_isBlank hr
  rw [List.forall_mem_append]
  constructor
  · intro hw
    have hleft := isSpace_of_parse hl (List.append_assoc left t right ▸ hw)
    rw [parse_append hquiet (parse_blank hleft h)] at hw
    split at hw
    · rename_i hright
      exact ⟨(Except.ok.inj hw).symm, hleft, skipSpace_isEmpty.mp hright⟩
    · cases hw
  · rintro ⟨rfl, hleft, hright⟩
    rw [parse_append hquiet (parse_blank hleft h), if_pos (skipSpace_isEmpty.mpr hright)]

/-- A text is read as what is left of it without its blanks, if these are
spaces, and as nothing else. -/
theorem parse_of_trim {s : List Char} {v : Json} (h : parse (Text.trim s) = .ok v) (w : Json) :
    parse s = .ok w ↔ w = v ∧ ∀ c ∈ Text.leading s ++ Text.trailing s, isSpace c = true := by
  have hl : ∀ c ∈ Text.leading s, Text.isBlank c = true := fun _ => Text.isBlank_of_mem_leading
  have hr : ∀ c ∈ Text.trailing s, Text.isBlank c = true := fun _ => Text.isBlank_of_mem_trailing
  have hparse := parse_between_blanks hl hr h w
  rwa [Text.leading_trim_trailing] at hparse

theorem bracketed_of_trim {s : List Char} {v : Json} (h : parse s = .ok v)
    (hopen : Opens (Text.trim s)) : v.Bracketed := by
  obtain ⟨c, t, ht, hc⟩ := hopen
  have hs : s = Text.leading s ++ (c :: t ++ Text.trailing s) := by
    rw [← ht, ← List.append_assoc, Text.leading_trim_trailing]
  have hc' : isSpace c = false := isSpace_of_not_isBlank (Text.isBlank_of_trim ht)
  have hleft : ∀ c ∈ Text.leading s, isSpace c = true :=
    isSpace_of_parse (fun _ => Text.isBlank_of_mem_leading) (hs ▸ h)
  refine (parse_bracketed h).mpr ⟨c, t ++ Text.trailing s, ?_, hc⟩
  conv_lhs => rw [hs]
  rw [skipSpace_blank hleft, List.cons_append, skipSpace_cons hc']

theorem opens_of_trim {s : List Char} {v : Json} (h : parse (Text.trim s) = .ok v)
    (hv : v.Bracketed) : Opens (Text.trim s) := by
  have hopen := (parse_bracketed h).mp hv
  cases ht : Text.trim s with
  | nil =>
    rw [ht] at hopen
    exact hopen
  | cons c t =>
    have hc : isSpace c = false := isSpace_of_not_isBlank (Text.isBlank_of_trim ht)
    rwa [ht, skipSpace_cons hc] at hopen

end Cardwalk.Json
