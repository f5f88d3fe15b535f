import Cardwalk.Format
import Cardwalk.Proofs.Json.Brackets
import Cardwalk.Proofs.Json.Numbers

/-!
# Texts formatted as JSON

Whatever a text is, formatting it as JSON gives an object or a list from which
the text or its value can be read back, and formatting that again changes
nothing.  Blanks around an object or a list are no part of what it is known
by, but they are handed to the parser, which skips only the spaces of JSON.
-/

set_option autoImplicit false

namespace Cardwalk.Format

open Json (Every Orderly ReadsBack Opens maxDepth parseString)

def failure (s : String) : Json :=
  .object [("error", .string jsonFailure), ("template_content", .string s)]

/-- The value that a text is formatted as: its own if it is in brackets and
JSON, else one that holds the text. -/
inductive Formatted (s : String) : Json → Prop
  | value {v : Json} (hopen : Opens (Text.trim s.toList)) (hv : parseString s = .ok v) :
      Formatted s v
  | wrapped (hplain : ¬ Opens (Text.trim s.toList)) :
      Formatted s (.object [("result", .string s)])
  | failed (hopen : Opens (Text.trim s.toList)) (hno : ∀ v, parseString s ≠ .ok v) :
      Formatted s (failure s)

theorem looksLikeJson_iff (s : List Char) : looksLikeJson s = true ↔ Opens (Text.trim s) := by
  unfold looksLikeJson
  split
  · rename_i t ht
    exact iff_of_true rfl ⟨'{', t, ht, .inr rfl⟩
  · rename_i t ht
    exact iff_of_true rfl ⟨'[', t, ht, .inl rfl⟩
  · rename_i hobject hlist
    refine iff_of_false Bool.false_ne_true ?_
    rintro ⟨c, t, ht, rfl | rfl⟩
    · exact hlist t ht
    · exact hobject t ht

theorem opens_trim {s : List Char} (h : Opens s) : Opens (Text.trim s) := by
  obtain ⟨c, t, rfl, hc⟩ := h
  have hblank : Text.isBlank c = false := by rcases hc with rfl | rfl <;> decide
  obtain ⟨u, hu⟩ := Text.trim_cons hblank t
  exact ⟨c, u, hu, hc⟩

theorem formatted_jsonOf (s : String) : Formatted s (jsonOf s) := by
  unfold jsonOf
  split
  · rename_i hlooks
    have hopen := (looksLikeJson_iff s.toList).mp hlooks
    split
    · rename_i v hv
      exact .value hopen hv
    · rename_i e he
      exact .failed hopen (by simp [he])
  · rename_i hlooks
    exact .wrapped (mt (looksLikeJson_iff s.toList).mpr hlooks)

theorem formatted_unique {s : String} {v : Json} (h : Formatted s v) : jsonOf s = v := by
  unfold jsonOf
  cases h with
  | value hopen hv => simp [(looksLikeJson_iff s.toList).mpr hopen, hv]
  | wrapped hplain => simp [mt (looksLikeJson_iff s.toList).mp hplain]
  | failed hopen hno =>
    rw [if_pos ((looksLikeJson_iff s.toList).mpr hopen)]
    cases hp : parseString s with
    | ok v => exact absurd hp (hno v)
    | error e => rfl

section Fit

variable {s : String} {v : Json}

theorem Formatted.fit (h : Formatted s v) (hn : ∀ v, parseString s = .ok v → Every ReadsBack v) :
    v.Bracketed ∧ Orderly maxDepth v ∧ Every ReadsBack v := by
  cases h with
  | value hopen hv =>
    have hdoc : (Json.scan s.toList).1.value maxDepth = .ok v := Json.decode_ok hv
    exact ⟨Json.bracketed_of_trim hv hopen, Json.value_orderly _ _ v hdoc, hn v hv⟩
  | wrapped | failed =>
    simp [-Prod.forall, failure, Json.Bracketed, Orderly, Json.Distinct, Members.keys,
      Json.height, Json.heightMembers, maxDepth, ReadsBack]

theorem parse_pretty (ho : Orderly maxDepth v) (hr : Every ReadsBack v) :
    parseString v.pretty = .ok v := by
  rw [parseString, Json.pretty, String.toList_ofList]
  exact Json.parse_prettyChars (Json.readable_of_readsBack hr) ho.1 ho.2 0

theorem opens_prettyChars (h : v.Bracketed) (depth : Nat) : Opens (v.prettyChars depth) := by
  match v with
  | .array [] => exact ⟨'[', _, rfl, .inl rfl⟩
  | .array (_ :: _) => exact ⟨'[', _, rfl, .inl rfl⟩
  | .object [] => exact ⟨'{', _, rfl, .inr rfl⟩
  | .object (_ :: _) => exact ⟨'{', _, rfl, .inr rfl⟩

theorem opens_pretty (h : v.Bracketed) : Opens (Text.trim v.pretty.toList) := by
  rw [Json.pretty, String.toList_ofList]
  exact opens_trim (opens_prettyChars h 0)

theorem jsonOf_pretty (hb : v.Bracketed) (ho : Orderly maxDepth v) (hr : Every ReadsBack v) :
    jsonOf v.pretty = v :=
  formatted_unique (.value (opens_pretty hb) (parse_pretty ho hr))

end Fit

/-- Every text is formatted as an object or a list: its own value if it is one
in brackets, else an object that holds the text as it is.  That is what the
formatted text is read as, and formatting it again changes nothing. -/
theorem formats_as_json (s : String) (hn : ∀ v, parseString s = .ok v → Every ReadsBack v) :
    (∃ v, Formatted s v ∧ v.Bracketed ∧ parseString (renderJson s) = .ok v) ∧
      renderJson (renderJson s) = renderJson s := by
  obtain ⟨hb, ho, hr⟩ := (formatted_jsonOf s).fit hn
  refine ⟨⟨jsonOf s, formatted_jsonOf s, hb, parse_pretty ho hr⟩, ?_⟩
  calc renderJson (renderJson s)
      = (jsonOf (jsonOf s).pretty).pretty := rfl
    _ = (jsonOf s).pretty := by rw [jsonOf_pretty hb ho hr]

theorem formats_as_json_compact :
    (∃ v, Formatted "\x7b\"a\":[2.5,\"b\"]\x7d" v ∧ v.Bracketed ∧
      parseString (renderJson "\x7b\"a\":[2.5,\"b\"]\x7d") = .ok v) ∧
    renderJson (renderJson "\x7b\"a\":[2.5,\"b\"]\x7d") =
      renderJson "\x7b\"a\":[2.5,\"b\"]\x7d" := by
  let v : Json := .object [("a", .array [.number (.float 2.5), .string "b"])]
  have horderly : Orderly maxDepth v := by
    simp [-Prod.forall, v, Orderly, Json.Distinct, Members.keys, Json.height, Json.heightMembers,
      Json.heightItems, maxDepth]
  have hnumber : (Json.Number.float 2.5).ReadsBack := by decide +kernel
  have hreads : Every ReadsBack v := by simp [-Prod.forall, v, ReadsBack, hnumber]
  have htext : "\x7b\"a\":[2.5,\"b\"]\x7d".toList = v.compactChars := by decide +kernel
  refine formats_as_json _ fun w hw => ?_
  rw [parseString, htext, Json.parse_compactChars (Json.readable_of_readsBack hreads) horderly.1
    horderly.2] at hw
  exact Except.ok.inj hw ▸ hreads

def trimmed (s : String) : String := String.ofList (Text.trim s.toList)

theorem toList_trimmed (s : String) : (trimmed s).toList = Text.trim s.toList :=
  String.toList_ofList

theorem parseString_trimmed (s : String) :
    parseString (trimmed s) = Json.parse (Text.trim s.toList) := by
  rw [parseString, toList_trimmed]

section Blanks

variable {s : String} {v : Json} (hv : parseString (trimmed s) = .ok v) (hb : v.Bracketed)

include hv hb

theorem opens_of_trimmed : Opens (Text.trim s.toList) :=
  Json.opens_of_trim ((parseString_trimmed s).symm.trans hv) hb

theorem jsonOf_trimmed : jsonOf (trimmed s) = v := by
  refine formatted_unique (.value ?_ hv)
  rw [toList_trimmed]
  exact opens_trim (opens_of_trimmed hv hb)

/-- The look at the bracket goes past any blank, the parser only past spaces. -/
theorem jsonOf_between_blanks :
    jsonOf s = if (Text.leading s.toList ++ Text.trailing s.toList).all Json.isSpace then v
      else failure s := by
  have hopen := opens_of_trimmed hv hb
  have hparse := Json.parse_of_trim ((parseString_trimmed s).symm.trans hv)
  simp only [← List.all_eq_true] at hparse
  split_ifs with hspace
  · exact formatted_unique (.value hopen ((hparse v).mpr ⟨rfl, hspace⟩))
  · exact formatted_unique (.failed hopen fun w hw => hspace ((hparse w).mp hw).2)

end Blanks

/-- An object or a list with blanks around it is shown as if there were none,
if they are spaces of JSON; with any other blank it is shown as a failure. -/
theorem formats_between_blanks (s : String) {v : Json} (hv : parseString (trimmed s) = .ok v)
    (hb : v.Bracketed) :
    renderJson (trimmed s) = v.pretty ∧
      renderJson s =
        if (Text.leading s.toList ++ Text.trailing s.toList).all Json.isSpace then
          renderJson (trimmed s)
        else (failure s).pretty := by
  have htrimmed : renderJson (trimmed s) = v.pretty :=
    congrArg Json.pretty (jsonOf_trimmed hv hb)
  refine ⟨htrimmed, ?_⟩
  rw [htrimmed, renderJson, jsonOf_between_blanks hv hb]
  exact apply_ite Json.pretty _ _ _

theorem formats_between_spaces :
    renderJson (trimmed "\n [true]\t") = "[\n  true\n]" ∧
      renderJson "\n [true]\t" = "[\n  true\n]" := by
  have hread : parseString (trimmed "\n [true]\t") = .ok (.array [.bool true]) := by cbv
  have hpretty : (Json.array [.bool true]).pretty = "[\n  true\n]" := by cbv
  obtain ⟨hinner, houter⟩ := formats_between_blanks "\n [true]\t" hread trivial
  rw [if_pos (by decide +kernel)] at houter
  exact ⟨hinner.trans hpretty, houter.trans (hinner.trans hpretty)⟩

theorem fails_before_unbroken_space :
    renderJson (trimmed "\u00a0[1]") = "[\n  1\n]" ∧
      renderJson "\u00a0[1]" = (failure "\u00a0[1]").pretty ∧
      renderJson "\u00a0[1]" ≠ renderJson (trimmed "\u00a0[1]") := by
  decide +kernel

end Cardwalk.Format
