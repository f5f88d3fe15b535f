import Mathlib.Data.List.Basic
import Cardwalk.Format

/-!
# Texts escaped for XML

The reserved characters are replaced one after the other in the whole text.
It comes to the same as escaping every character once, and a single pass from
the left gives the text back, whatever entities it held before.
-/

set_option autoImplicit false

namespace Cardwalk

namespace Text

def exchanged (table : List (Char × List Char)) (c : Char) : List Char :=
  match table.find? fun e => e.1 = c with
  | some e => e.2
  | none => [c]

theorem exchanged_of_not_mem {table : List (Char × List Char)} {c : Char}
    (h : ∀ e ∈ table, e.1 ≠ c) : exchanged table c = [c] := by
  have hnone : (table.find? fun e => e.1 = c) = none := by simpa using h
  rw [exchanged, hnone]

theorem flatMap_exchanged_of_not_mem {table : List (Char × List Char)} {s : List Char}
    (h : ∀ e ∈ table, e.1 ∉ s) : s.flatMap (exchanged table) = s := by
  have hc : ∀ c ∈ s, exchanged table c = [c] := fun c hc =>
    exchanged_of_not_mem fun e he heq => h e he (heq ▸ hc)
  rw [List.flatMap_congr hc]
  exact List.flatMap_singleton' s

/-- Replacing one character after the other is replacing every character once,
as long as nothing that is put in holds a character that is still to come. -/
theorem foldl_replaceChar {table : List (Char × List Char)}
    (h : table.Pairwise fun e later => later.1 ∉ e.2) (s : List Char) :
    table.foldl (fun s e => replaceChar e.1 e.2 s) s = s.flatMap (exchanged table) := by
  induction table generalizing s with
  | nil => exact (List.flatMap_singleton' s).symm
  | cons e table ih =>
    obtain ⟨hhead, htail⟩ := List.pairwise_cons.mp h
    rw [List.foldl_cons, ih htail, replaceChar, List.flatMap_assoc]
    refine List.flatMap_congr fun c _ => ?_
    -- What the first entry puts in is left alone by all the others.
    by_cases hc : c = e.1
    · simp [hc, exchanged, flatMap_exchanged_of_not_mem hhead]
    · simp [hc, Ne.symm hc, exchanged]

end Text

namespace Format

/-- How a character stands in an escaped text. -/
def escaped : Char → List Char
  | '&' => ['&', 'a', 'm', 'p', ';']
  | '<' => ['&', 'l', 't', ';']
  | '>' => ['&', 'g', 't', ';']
  | '"' => ['&', 'q', 'u', 'o', 't', ';']
  | '\'' => ['&', 'a', 'p', 'o', 's', ';']
  | c => [c]

/-- One pass from the left in which every entity becomes its character. -/
def unescape : List Char → List Char
  | '&' :: 'a' :: 'm' :: 'p' :: ';' :: s => '&' :: unescape s
  | '&' :: 'l' :: 't' :: ';' :: s => '<' :: unescape s
  | '&' :: 'g' :: 't' :: ';' :: s => '>' :: unescape s
  | '&' :: 'q' :: 'u' :: 'o' :: 't' :: ';' :: s => '"' :: unescape s
  | '&' :: 'a' :: 'p' :: 'o' :: 's' :: ';' :: s => '\'' :: unescape s
  | c :: s => c :: unescape s
  | [] => []

def entityNames : List (List Char) :=
  [['a', 'm', 'p', ';'], ['l', 't', ';'], ['g', 't', ';'], ['q', 'u', 'o', 't', ';'],
    ['a', 'p', 'o', 's', ';']]

/-- An escaped text: it stands for `s`, and nothing in it is taken for a tag,
a quote or an entity of another kind. -/
structure Escapes (s inner : List Char) : Prop where
  once : inner = s.flatMap escaped
  back : unescape inner = s
  safe : ∀ c ∈ inner, c ≠ '<' ∧ c ≠ '>' ∧ c ≠ '"' ∧ c ≠ '\''
  ampersand : ∀ before after, inner = before ++ '&' :: after →
    ∃ name ∈ entityNames, name <+: after
  /-- The ampersand of an entity in the text is escaped, its name is not. -/
  entity : ∀ before after, ∀ name ∈ entityNames, s = before ++ '&' :: name ++ after →
    inner = before.flatMap escaped ++ escaped '&' ++ name ++ after.flatMap escaped

theorem exchanged_entities (c : Char) : Text.exchanged entities c = escaped c := by
  unfold escaped
  split
  case h_6 hamp hlt hgt hquot hapos =>
    apply Text.exchanged_of_not_mem
    simp [entities, Ne.symm hamp, Ne.symm hlt, Ne.symm hgt, Ne.symm hquot, Ne.symm hapos]
  all_goals rfl

/-- No entity holds a character that is replaced behind it: the ampersand, which
all of them begin with, goes first. -/
theorem escapeXml_once (s : List Char) : escapeXml s = s.flatMap escaped := by
  have h : entities.Pairwise fun e later => later.1 ∉ e.2 := by decide
  rw [escapeXml, Text.foldl_replaceChar h, funext exchanged_entities]

theorem escaped_cases (c : Char) :
    (escaped c = [c] ∧ c ≠ '&' ∧ c ≠ '<' ∧ c ≠ '>' ∧ c ≠ '"' ∧ c ≠ '\'') ∨
      ∃ name ∈ entityNames, escaped c = '&' :: name := by
  unfold escaped
  split
  case h_6 hamp hlt hgt hquot hapos => exact .inl ⟨rfl, hamp, hlt, hgt, hquot, hapos⟩
  all_goals exact .inr ⟨_, by decide, rfl⟩

theorem entityNames_safe : ∀ name ∈ entityNames, ∀ c ∈ name,
    c ≠ '&' ∧ c ≠ '<' ∧ c ≠ '>' ∧ c ≠ '"' ∧ c ≠ '\'' := by
  simp [entityNames]

theorem escaped_safe {c d : Char} (h : d ∈ escaped c) :
    d ≠ '<' ∧ d ≠ '>' ∧ d ≠ '"' ∧ d ≠ '\'' := by
  obtain ⟨hc, -, hsafe⟩ | ⟨name, hname, hc⟩ := escaped_cases c
  · rw [hc, List.mem_singleton] at h
    exact h ▸ hsafe
  · rw [hc, List.mem_cons] at h
    obtain rfl | h := h
    · decide
    · exact (entityNames_safe name hname d h).2

theorem escaped_ampersand {c : Char} {before after : List Char}
    (h : escaped c = before ++ '&' :: after) : after ∈ entityNames := by
  obtain ⟨hc, hne, -⟩ | ⟨name, hname, hc⟩ := escaped_cases c
  · have hmem : '&' ∈ [c] := by simp [← hc, h]
    exact absurd (List.mem_singleton.mp hmem).symm hne
  · rw [hc] at h
    cases before with
    | nil => exact (List.cons.inj h).2 ▸ hname
    | cons d before =>
      have hmem : '&' ∈ name := by simp [(List.cons.inj h).2]
      exact absurd rfl (entityNames_safe name hname '&' hmem).1

theorem flatMap_ampersand {s before after : List Char}
    (h : s.flatMap escaped = before ++ '&' :: after) : ∃ name ∈ entityNames, name <+: after := by
  induction s generalizing before with
  | nil => simp at h
  | cons c s ih =>
    rw [List.flatMap_cons] at h
    obtain ⟨rest, -, hs⟩ | ⟨rest, hc, hs⟩ := List.append_eq_append_iff.mp h
    · exact ih hs
    · cases rest with
      | nil =>
        have hhead : s.flatMap escaped = [] ++ '&' :: after := hs.symm
        exact ih hhead
      | cons d rest =>
        obtain ⟨rfl, rfl⟩ := List.cons.inj hs
        exact ⟨rest, escaped_ampersand hc, List.prefix_append ..⟩

theorem unescape_cons {c : Char} (h : c ≠ '&') (s : List Char) :
    unescape (c :: s) = c :: unescape s := by
  rw [unescape] <;> simp [h]

theorem unescape_escaped (c : Char) (s : List Char) :
    unescape (escaped c ++ s) = c :: unescape s := by
  unfold escaped
  split
  case h_6 hamp _ _ _ _ => exact unescape_cons hamp s
  all_goals rfl

theorem unescape_flatMap (s : List Char) : unescape (s.flatMap escaped) = s := by
  induction s with
  | nil => rfl
  | cons c s ih => rw [List.flatMap_cons, unescape_escaped, ih]

theorem flatMap_name {name : List Char} (h : name ∈ entityNames) : name.flatMap escaped = name := by
  revert h
  revert name
  decide

theorem escapes_escapeXml (s : List Char) : Escapes s (escapeXml s) where
  once := escapeXml_once s
  back := by rw [escapeXml_once, unescape_flatMap]
  safe c hc := by
    rw [escapeXml_once] at hc
    obtain ⟨d, -, hd⟩ := List.mem_flatMap.mp hc
    exact escaped_safe hd
  ampersand before after h := flatMap_ampersand ((escapeXml_once s).symm.trans h)
  entity before after name hname h := by
    rw [escapeXml_once, h]
    simp [flatMap_name hname]

theorem escapeXml_injective : Function.Injective escapeXml := by
  intro s t h
  rw [← (escapes_escapeXml s).back, h, (escapes_escapeXml t).back]

theorem renderXml_injective : Function.Injective renderXml := by
  intro s t h
  have hopened := (String.append_left_inj "</data></response>").mp h
  have hinner := (String.append_right_inj "<response><data>").mp hopened
  exact String.toList_inj.mp (escapeXml_injective (String.ofList_injective hinner))

/-- Between the tags stands the text with every character escaped once, and
another text never comes out the same. -/
theorem renders_escaped :
    (∀ s : String, ∃ inner,
      renderXml s = "<response><data>" ++ String.ofList inner ++ "</data></response>" ∧
        Escapes s.toList inner) ∧
    Function.Injective renderXml :=
  ⟨fun s => ⟨escapeXml s.toList, rfl, escapes_escapeXml s.toList⟩, renderXml_injective⟩

example : renderXml "&lt; 'b'" =
    "<response><data>&amp;lt; &apos;b&apos;</data></response>" := by
  decide +kernel

end Format

end Cardwalk
