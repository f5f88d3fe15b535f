import Mathlib.Data.List.TakeWhile
import Cardwalk.Proofs.Json.Chars
import Cardwalk.ToolCall

/-!
# Directives read back

What a directive says is read back exactly if its arguments hold no single
quote, which would be read as a double one, and nest no deeper than a JSON
text may.
-/

set_option autoImplicit false

namespace Cardwalk.ToolCall

open Json (Every Distinct height maxDepth FitsWord)

/-- The characters of the marker are all different, so it does not begin
inside itself. -/
theorem startsWith_marker {l : List Char} (hne : l ≠ []) (h : Text.startsWith marker l = false)
    (rest : List Char) : Text.startsWith marker (l ++ (marker ++ rest)) = false := by
  have hmarker : marker = ['调', '用', '工', '具'] := by decide
  rw [hmarker] at h ⊢
  rcases l with _ | ⟨a, _ | ⟨b, _ | ⟨c, _ | ⟨d, l⟩⟩⟩⟩
  · exact absurd rfl hne
  · simp [Text.startsWith]
  · simp [Text.startsWith]
  · simp [Text.startsWith]
  · simpa [Text.startsWith] using h

theorem findDirective_append {before : List Char} (h : Text.occurs marker before = false)
    (rest : List Char) :
    findDirective (before ++ (marker ++ rest)) = findDirective (marker ++ rest) := by
  induction before with
  | nil => rfl
  | cons c before ih =>
    rw [Text.occurs, Bool.or_eq_false_iff] at h
    have hhere := startsWith_marker (by simp) h.1 rest
    rw [List.cons_append] at hhere
    rw [List.cons_append, findDirective, hhere]
    exact ih h.2

theorem findDirective_marker {rest : List Char} {found : List Char × List Char}
    (h : behindMarker rest = some found) : findDirective (marker ++ rest) = some found := by
  have hhead : marker ++ rest = '调' :: ('用' :: '工' :: '具' :: rest) := rfl
  have hstart := Text.startsWith_append marker rest
  have hdrop : (marker ++ rest).drop marker.length = rest := List.drop_left
  rw [hhead] at hstart hdrop ⊢
  rw [findDirective, hstart, if_pos rfl, hdrop, h]

theorem toNat_of_isNameChar {c : Char} (h : isNameChar c = true) :
    48 ≤ c.toNat ∧ c.toNat ≤ 122 := by
  have hle : ∀ a b : Char, a ≤ b → a.toNat ≤ b.toNat :=
    fun a b hab => UInt32.le_iff_toNat_le.mp hab
  simp only [isNameChar, Bool.or_eq_true, Bool.and_eq_true, decide_eq_true_eq] at h
  rcases h with ((⟨hl, hr⟩ | ⟨hl, hr⟩) | ⟨hl, hr⟩) | rfl
  · exact ⟨Nat.le_trans (by decide) (hle _ _ hl), Nat.le_trans (hle _ _ hr) (by decide)⟩
  · exact ⟨Nat.le_trans (by decide) (hle _ _ hl), Nat.le_trans (hle _ _ hr) (by decide)⟩
  · exact ⟨Nat.le_trans (by decide) (hle _ _ hl), Nat.le_trans (hle _ _ hr) (by decide)⟩
  · decide

theorem isBlank_of_isNameChar {c : Char} (h : isNameChar c = true) : Text.isBlank c = false := by
  have hc := toNat_of_isNameChar h
  exact Text.isBlank_of_visible (by omega) (by omega)

theorem beforeLastClose_close (raw : List Char) : beforeLastClose (raw ++ [')']) = some raw := by
  simp [beforeLastClose]

theorem restOfLine_of_not_mem {s : List Char} (h : '\n' ∉ s) : restOfLine s = s := by
  apply List.takeWhile_eq_self_iff.mpr
  intro c hc
  have hne : c ≠ '\n' := by
    rintro rfl
    exact h hc
  simpa using hne

theorem behindMarker_written {name raw : List Char} (hne : name ≠ [])
    (hname : ∀ c ∈ name, isNameChar c = true) (hraw : '\n' ∉ raw) :
    behindMarker (' ' :: (name ++ '(' :: (raw ++ [')']))) = some (name, raw) := by
  obtain ⟨c, more, rfl⟩ := List.exists_cons_of_ne_nil hne
  have hc := isBlank_of_isNameChar (hname c (by simp))
  have htrim : Text.trimStart (' ' :: (c :: more ++ '(' :: (raw ++ [')']))) =
      c :: more ++ '(' :: (raw ++ [')']) := by
    have hspace : Text.isBlank ' ' = true := by decide
    simp [Text.trimStart, hspace, hc]
  have hopen : isNameChar '(' = false := by decide
  have htake : (c :: more ++ '(' :: (raw ++ [')'])).takeWhile isNameChar = c :: more := by
    rw [List.takeWhile_append_of_pos hname]
    simp [hopen]
  have hdrop : (c :: more ++ '(' :: (raw ++ [')'])).dropWhile isNameChar =
      '(' :: (raw ++ [')']) := by
    rw [List.dropWhile_append_of_pos hname]
    simp [hopen]
  have hline : restOfLine (raw ++ [')']) = raw ++ [')'] :=
    restOfLine_of_not_mem (by simpa using hraw)
  simp only [behindMarker, htrim, htake, hdrop, hline, beforeLastClose_close]
  rfl

theorem doubleQuotes_of_not_mem {raw : List Char} (h : '\'' ∉ raw) : doubleQuotes raw = raw := by
  have hc : ∀ c ∈ raw, (if c = '\'' then '"' else c) = c := by
    intro c hc
    have hne : c ≠ '\'' := by
      rintro rfl
      exact h hc
    rw [if_neg hne]
  rw [doubleQuotes, List.map_congr_left hc, List.map_id']

def Whole : Json → Prop
  | .number (.int i) => FitsWord i
  | .number (.float _) => False
  | _ => True

def Unquoted : Json → Prop
  | .string s => '\'' ∉ s.toList
  | .object ms => ∀ k ∈ Members.keys ms, '\'' ∉ k.toList
  | _ => True

/-- A call that can be asked for by a directive. -/
structure Writable (c : ToolCall) : Prop where
  name_ne : c.name ≠ ""
  name_chars : ∀ x ∈ c.name.toList, isNameChar x = true
  whole : Every Whole c.args
  distinct : Every Distinct c.args
  unquoted : Every Unquoted c.args

def directive (c : ToolCall) : String :=
  String.ofList marker ++ " " ++ c.name ++ "(" ++ c.args.compact ++ ")"

theorem readable_of_whole {v : Json} (h : Every Whole v) : Every Json.Readable v := by
  intro u hu
  have hw := h u hu
  match u with
  | .number (.int i) => exact Json.readable_int hw
  | .number (.float x) => exact hw.elim
  | .null | .bool _ | .string _ | .array _ | .object _ => trivial

/-- Neither what is read as another quote nor what ends the line. -/
def isCalm (c : Char) : Bool := c ≠ '\'' && c ≠ '\n'

theorem not_mem_of_calm {s : List Char} (h : ∀ c ∈ s, isCalm c = true) {d : Char}
    (hd : isCalm d = false) : d ∉ s := by
  intro hin
  rw [h d hin] at hd
  exact Bool.noConfusion hd

theorem calm_quoted {s : String} (h : '\'' ∉ s.toList) :
    ∀ c ∈ Json.quoted s, isCalm c = true := by
  intro c hc
  have hletters : Json.escapeLetters.all isCalm = true := by decide
  rcases Json.mem_quoted hc with hc | ⟨hin, hcontrol⟩
  · exact List.all_eq_true.mp hletters c hc
  · have hquote : c ≠ '\'' := by
      rintro rfl
      exact h hin
    have hline : c ≠ '\n' := by
      rintro rfl
      exact absurd hcontrol (by decide)
    simp [isCalm, hquote, hline]

theorem calm_intDigits (i : Int) : ∀ c ∈ Decimal.intDigits i, isCalm c = true := by
  intro c hc
  have hhead := Json.mem_intDigits hc
  have hne : ∀ d, Json.isNumberHead d = false → c ≠ d := by
    rintro d hd rfl
    rw [hhead] at hd
    exact Bool.noConfusion hd
  simp [isCalm, hne '\'' (by decide), hne '\n' (by decide)]

theorem calm_args {v : Json} (hw : Every Whole v) (hu : Every Unquoted v) :
    ∀ c ∈ v.compactChars, isCalm c = true := by
  apply Json.mem_compactChars
  · have hfixed : Json.fixedChars.all isCalm = true := by decide
    exact List.all_eq_true.mp hfixed
  · intro u hin
    have hwhole := hw u hin
    have hunquoted := hu u hin
    match u with
    | .number (.int i) => exact calm_intDigits i
    | .number (.float x) => exact hwhole.elim
    | .string s => exact calm_quoted hunquoted
    | .object ms => exact fun k hk => calm_quoted (hunquoted k hk)
    | .null | .bool _ | .array _ => trivial

theorem toList_directive (before : String) (c : ToolCall) :
    (before ++ c.directive).toList = before.toList ++
      (marker ++ ' ' :: (c.name.toList ++ '(' :: (c.args.compactChars ++ [')']))) := by
  simp [directive, Json.compact]

theorem findDirective_directive {before : String}
    (hbefore : Text.occurs marker before.toList = false) {c : ToolCall} (hc : Writable c) :
    findDirective (before ++ c.directive).toList =
      some (c.name.toList, c.args.compactChars) := by
  have hcalm := calm_args hc.whole hc.unquoted
  have hname : c.name.toList ≠ [] := by
    intro h
    exact hc.name_ne (String.toList_eq_nil_iff.mp h)
  have hbehind := behindMarker_written hname hc.name_chars
    (not_mem_of_calm hcalm (by decide))
  rw [toList_directive, findDirective_append hbefore, findDirective_marker hbehind]

theorem doubleQuotes_args {c : ToolCall} (hc : Writable c) :
    doubleQuotes c.args.compactChars = c.args.compactChars := by
  exact doubleQuotes_of_not_mem
    (not_mem_of_calm (calm_args hc.whole hc.unquoted) (by decide))

/-- What a directive asks for is what was written. -/
theorem read_directive {before : String} (hbefore : Text.occurs marker before.toList = false)
    {c : ToolCall} (hc : Writable c) (hheight : height c.args ≤ maxDepth) :
    read (before ++ c.directive).toList = .call c := by
  have hfound := findDirective_directive hbefore hc
  have hparse := Json.parse_compactChars (readable_of_whole hc.whole) hc.distinct hheight
  rw [read, hfound]
  simp only [doubleQuotes_args hc, hparse, String.ofList_toList]

def search : ToolCall :=
  ⟨"web_search", .object [("query", "f(\"x\")\n"), ("pages", .array [.ofInt 1, .ofInt (-2)])]⟩

theorem search_writable : Writable search where
  name_ne := by decide
  name_chars := List.all_eq_true.mp (by decide)
  whole := by simp [search, Whole, FitsWord, Json.ofInt, Decimal.twoTo, Json.maxWord]
  distinct := by simp [search, Distinct, Members.keys, Json.ofInt]
  unquoted := by simp [search, Unquoted, Members.keys, Json.ofInt]

theorem read_directive_search : read ("好的。" ++ search.directive).toList = .call search :=
  read_directive (by decide +kernel) search_writable (by decide)

theorem read_directive_deep {before : String}
    (hbefore : Text.occurs marker before.toList = false) {c : ToolCall} (hc : Writable c)
    (hheight : maxDepth < height c.args) :
    read (before ++ c.directive).toList =
      .invalid c.name c.args.compact (.flaw .tooDeep) := by
  have hfound := findDirective_directive hbefore hc
  have hparse := Json.parse_compactChars_deep (readable_of_whole hc.whole) hc.distinct hheight
  rw [read, hfound]
  simp only [doubleQuotes_args hc, hparse, String.ofList_toList]
  rfl

def nest : Nat → Json
  | 0 => .array []
  | n + 1 => .array [nest n]

theorem height_nest (n : Nat) : height (nest n) = n + 1 := by
  induction n with
  | zero => rfl
  | succ n ih => simp [nest, height, Json.heightItems, ih]

theorem every_nest {p : Json → Prop} (h : ∀ items, p (.array items)) (n : Nat) :
    Every p (nest n) := by
  induction n with
  | zero => simpa [nest] using h []
  | succ n ih => simpa [nest, ih] using h [nest n]

def nested : ToolCall := ⟨"f", nest maxDepth⟩

theorem nested_writable : Writable nested where
  name_ne := by decide
  name_chars := List.all_eq_true.mp (by decide)
  whole := every_nest (fun _ => trivial) maxDepth
  distinct := every_nest (fun _ => trivial) maxDepth
  unquoted := every_nest (fun _ => trivial) maxDepth

def apostrophe : ToolCall := ⟨"f", .object [("q", "it's")]⟩

theorem directive_lost :
    (∀ c, read nested.directive.toList ≠ .call c) ∧
    (∀ c, read apostrophe.directive.toList ≠ .call c) := by
  constructor
  · intro c hc
    have hbefore : Text.occurs marker "".toList = false := by decide
    have hheight : maxDepth < height nested.args := by
      rw [nested, height_nest]
      omega
    have hdeep := read_directive_deep hbefore nested_writable hheight
    rw [String.empty_append, hc] at hdeep
    cases hdeep
  · intro c hc
    have hnone : (extract apostrophe.directive).isNone = true := by decide +kernel
    simp [extract, hc] at hnone

end Cardwalk.ToolCall
