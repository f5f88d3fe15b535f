import Cardwalk.Proofs.Text.Pattern
import Cardwalk.Proofs.ToolCall.Followed

/-!
# The pattern of a directive

A directive is found where its pattern matches first: at the leftmost place
that has the marker, blanks, a name and an opening parenthesis with a closing
one behind it on the same line. Its arguments reach to the last closing
parenthesis of that line. Markers that lead to no directive are passed over.
-/

set_option autoImplicit false

namespace Cardwalk.ToolCall

open Text (Part matchHead)

def closing : List Part := [.greedy 0 (· ≠ '\n'), .word [')']]

def pattern : List Part :=
  .word marker :: .greedy 1 Text.isBlank :: .greedy 1 isNameChar :: .word ['('] :: closing

def named (texts : List (List Char)) : List Char × List Char :=
  (texts.getD 2 [], texts.getD 4 [])

theorem beforeLastClose_cons (c : Char) (s : List Char) :
    beforeLastClose (c :: s) =
      ((beforeLastClose s).map (c :: ·)).or (if c = ')' then some [] else none) := by
  rw [beforeLastClose, beforeLastClose, List.reverse_cons, List.dropWhile_append]
  cases h : s.reverse.dropWhile (· ≠ ')') with
  | nil =>
    by_cases hc : c = ')'
    · simp [hc]
    · simp [hc]
  | cons d before => simp

theorem matchHead_mark {c d : Char} (parts : List Part) (s : List Char) :
    matchHead (.word [d] :: parts) (c :: s) =
      if c = d then (matchHead parts s).map ([d] :: ·) else none := by
  rw [Text.matchHead_word]
  by_cases hc : c = d
  · subst hc
    simp [Text.startsWith]
  · simp [hc, Ne.symm hc, Text.startsWith]

theorem matchHead_closing (s : List Char) :
    matchHead closing s =
      (beforeLastClose (restOfLine s)).map fun raw => [raw, [')']] := by
  induction s with
  | nil => rfl
  | cons c s ih =>
    rw [closing] at ih ⊢
    rw [Text.matchHead_greedy_cons, matchHead_mark, ih]
    by_cases hc : c = '\n'
    · subst hc
      rfl
    · have hline : restOfLine (c :: s) = c :: restOfLine s := by simp [restOfLine, hc]
      have hclass : decide (c ≠ '\n') = true := by simpa using hc
      rw [if_pos hclass, hline, beforeLastClose_cons]
      cases beforeLastClose (restOfLine s) with
      | some raw => rfl
      | none =>
        by_cases hclose : c = ')'
        · simp [hclose, matchHead]
        · simp [hclose]

theorem matchHead_arguments (s : List Char) :
    matchHead (.word ['('] :: closing) s =
      match s with
      | '(' :: rest => (beforeLastClose (restOfLine rest)).map fun raw => [['('], raw, [')']]
      | _ => none := by
  cases s with
  | nil => rfl
  | cons c s =>
    rw [matchHead_mark, matchHead_closing, Option.map_map]
    by_cases hc : c = '('
    · subst hc
      rfl
    · rw [if_neg hc]
      split
      · rename_i rest he
        exact absurd (List.cons.inj he).1 hc
      · rfl

/-- No character of a name is a parenthesis, so the name is not shortened. -/
theorem matchHead_name (s : List Char) :
    matchHead (.greedy 1 isNameChar :: .word ['('] :: closing) s =
      if 1 ≤ (s.takeWhile isNameChar).length then
        (matchHead (.word ['('] :: closing) (s.dropWhile isNameChar)).map
          (s.takeWhile isNameChar :: ·)
      else none := by
  apply Text.matchHead_greedy
  intro c t hc
  rw [matchHead_mark, if_neg]
  rintro rfl
  exact absurd hc (by decide)

/-- No blank begins a name, so the gap is not shortened. -/
theorem matchHead_gap (s : List Char) :
    matchHead (.greedy 1 Text.isBlank :: .greedy 1 isNameChar :: .word ['('] :: closing) s =
      if 1 ≤ (s.takeWhile Text.isBlank).length then
        (matchHead (.greedy 1 isNameChar :: .word ['('] :: closing) (Text.trimStart s)).map
          (s.takeWhile Text.isBlank :: ·)
      else none := by
  apply Text.matchHead_greedy
  intro c t hc
  have hn : isNameChar c = false := by
    rw [← Bool.not_eq_true]
    intro hn
    rw [isBlank_of_isNameChar hn] at hc
    cases hc
  rw [matchHead_name, List.takeWhile_cons, hn]
  rfl

theorem matchHead_behindMarker (s : List Char) :
    (matchHead (.greedy 1 Text.isBlank :: .greedy 1 isNameChar :: .word ['('] :: closing) s).map
        (fun texts => named (marker :: texts)) = behindMarker s := by
  rw [matchHead_gap, matchHead_name, matchHead_arguments]
  cases s with
  | nil => rfl
  | cons c s =>
    by_cases hc : Text.isBlank c = true
    · have hgap : 1 ≤ ((c :: s).takeWhile Text.isBlank).length := by simp [hc]
      rw [if_pos hgap, behindMarker, if_pos hc]
      dsimp only
      generalize Text.trimStart (c :: s) = u
      cases hname : u.takeWhile isNameChar with
      | nil => rfl
      | cons d name =>
        rw [if_pos (by simp), if_neg (by simp)]
        cases u.dropWhile isNameChar with
        | nil => rfl
        | cons e v =>
          by_cases he : e = '('
          · subst he
            -- Both sides come down to the parenthesis that closes the arguments.
            change ((((beforeLastClose (restOfLine v)).map _).map _).map _).map _ =
              (beforeLastClose (restOfLine v)).map _
            cases beforeLastClose (restOfLine v) with
            | none => rfl
            | some raw => rfl
          · simp [he]
    · simp [behindMarker, hc]

theorem matchHead_pattern (s : List Char) :
    (matchHead pattern s).map named = directiveHere s := by
  rw [pattern, Text.matchHead_word, directiveHere]
  by_cases hs : Text.startsWith marker s = true
  · rw [if_pos hs, if_pos hs, Option.map_map]
    exact matchHead_behindMarker _
  · rw [if_neg hs, if_neg hs, Option.map_none]

theorem search_pattern (text : List Char) :
    (Text.search pattern text).map (fun found => named found.2) = findDirective text := by
  induction text with
  | nil => rfl
  | cons c s ih =>
    rw [Text.search, findDirective_cons, ← matchHead_pattern, ← ih]
    cases matchHead pattern (c :: s) with
    | some texts => rfl
    | none => simp [Function.comp_def]

/-- A marker that leads to a directive, whose arguments end at any closing
parenthesis of its line. -/
structure Place (text : List Char) where
  before : List Char
  gap : List Char
  name : List Char
  raw : List Char
  after : List Char
  whole : text = before ++ (marker ++ (gap ++ (name ++ '(' :: (raw ++ ')' :: after))))
  gap_ne : gap ≠ []
  gap_blank : ∀ c ∈ gap, Text.isBlank c = true
  name_ne : name ≠ []
  name_chars : ∀ c ∈ name, isNameChar c = true
  line : '\n' ∉ raw

namespace Place

/-- The leftmost marker, and arguments up to the last closing parenthesis of
the line. -/
structure Chosen {text : List Char} (p : Place text) : Prop where
  leftmost : ∀ q : Place text, p.before.length ≤ q.before.length
  longest : ')' ∉ restOfLine p.after

def request {text : List Char} (p : Place text) : Request :=
  match Json.parse (doubleQuotes p.raw) with
  | .ok args => .call ⟨String.ofList p.name, args⟩
  | .error e => .invalid (String.ofList p.name) (String.ofList p.raw) e

def cons (c : Char) {s : List Char} (p : Place s) : Place (c :: s) :=
  { p with
    before := c :: p.before
    whole := congrArg (c :: ·) p.whole }

theorem cases_cons {c : Char} {s : List Char} (p : Place (c :: s)) :
    p.before = [] ∨ ∃ q : Place s, p = q.cons c := by
  obtain ⟨before, gap, name, raw, after, whole, hgap, hblank, hne, hname, hline⟩ := p
  cases before with
  | nil => exact .inl rfl
  | cons d before =>
    obtain ⟨rfl, rfl⟩ := List.cons.inj whole
    exact .inr ⟨⟨before, gap, name, raw, after, rfl, hgap, hblank, hne, hname, hline⟩, rfl⟩

end Place

theorem beforeLastClose_of_not_mem {l : List Char} (h : ')' ∉ l) : beforeLastClose l = none := by
  induction l with
  | nil => rfl
  | cons c l ih =>
    rw [List.mem_cons, not_or] at h
    rw [beforeLastClose_cons, ih h.2, if_neg (Ne.symm h.1)]
    rfl

theorem beforeLastClose_inv {l raw : List Char} (h : beforeLastClose l = some raw) :
    ∃ after, l = raw ++ ')' :: after ∧ ')' ∉ after := by
  induction l generalizing raw with
  | nil => cases h
  | cons c l ih =>
    rw [beforeLastClose_cons] at h
    cases hl : beforeLastClose l with
    | some more =>
      obtain ⟨after, rfl, hafter⟩ := ih hl
      rw [hl] at h
      cases h
      exact ⟨after, rfl, hafter⟩
    | none =>
      have hno : ')' ∉ l := by
        intro hm
        obtain ⟨before, after, rfl⟩ := List.append_of_mem hm
        rw [beforeLastClose_append] at hl
        cases hl
      by_cases hc : c = ')'
      · subst hc
        simp only [hl, Option.map_none, Option.none_or, if_true, Option.some.injEq] at h
        subst h
        exact ⟨l, rfl, hno⟩
      · simp [hl, hc] at h

theorem restOfLine_dropWhile (s : List Char) : restOfLine (s.dropWhile (· ≠ '\n')) = [] := by
  induction s with
  | nil => rfl
  | cons c s ih =>
    by_cases hc : c = '\n'
    · subst hc
      rfl
    · simpa [hc] using ih

theorem lastClose_inv {s raw : List Char} (h : beforeLastClose (restOfLine s) = some raw) :
    ∃ after, s = raw ++ ')' :: after ∧ '\n' ∉ raw ∧ ')' ∉ restOfLine after := by
  obtain ⟨after, hline, hafter⟩ := beforeLastClose_inv h
  have hno : '\n' ∉ raw ++ ')' :: after := by
    rw [← hline]
    intro hm
    simpa using List.mem_takeWhile_imp hm
  refine ⟨after ++ s.dropWhile (· ≠ '\n'), ?_, ?_, ?_⟩
  · have hs : restOfLine s ++ s.dropWhile (· ≠ '\n') = s := List.takeWhile_append_dropWhile
    rw [hline] at hs
    simpa using hs.symm
  · exact fun hm => hno (List.mem_append_left _ hm)
  · rw [restOfLine_append fun hm => hno (by simp [hm]), restOfLine_dropWhile, List.append_nil]
    exact hafter

theorem behindMarker_inv {s name raw : List Char} (h : behindMarker s = some (name, raw)) :
    ∃ gap rest, s = gap ++ (name ++ '(' :: rest) ∧ gap ≠ [] ∧
      (∀ c ∈ gap, Text.isBlank c = true) ∧ name ≠ [] ∧ (∀ c ∈ name, isNameChar c = true) ∧
      beforeLastClose (restOfLine rest) = some raw := by
  cases s with
  | nil => cases h
  | cons b s =>
    rw [behindMarker] at h
    split_ifs at h with hb
    dsimp only at h
    split_ifs at h with hempty
    split at h
    case h_2 => cases h
    case h_1 rest hrest =>
      obtain ⟨more, hmore, hfound⟩ := Option.map_eq_some_iff.mp h
      obtain ⟨rfl, rfl⟩ := Prod.mk.inj hfound
      refine ⟨(b :: s).takeWhile Text.isBlank, rest, ?_, by simp [hb],
        fun c => List.mem_takeWhile_imp, fun hname => hempty (by simp [hname]),
        fun c => List.mem_takeWhile_imp, hmore⟩
      rw [← hrest, List.takeWhile_append_dropWhile]
      exact List.takeWhile_append_dropWhile.symm

namespace Place

variable {text : List Char}

theorem exists_of_here {name raw : List Char} (h : directiveHere text = some (name, raw)) :
    ∃ p : Place text, p.before = [] ∧ ')' ∉ restOfLine p.after ∧ p.name = name ∧ p.raw = raw := by
  rw [directiveHere] at h
  split_ifs at h with hstart
  obtain ⟨rest, rfl⟩ := Text.startsWith_iff.mp hstart
  rw [List.drop_left] at h
  obtain ⟨gap, rest, rfl, hgap, hblank, hne, hname, hclose⟩ := behindMarker_inv h
  obtain ⟨after, rfl, hline, hafter⟩ := lastClose_inv hclose
  exact ⟨⟨[], gap, name, raw, after, rfl, hgap, hblank, hne, hname, hline⟩, rfl, hafter, rfl, rfl⟩

theorem here (p : Place text) (h : p.before = []) :
    directiveHere text = some (p.name, stretched p.raw p.after) := by
  obtain ⟨before, gap, name, raw, after, rfl, hgap, hblank, hne, hname, hline⟩ := p
  have hbehind := behindMarker_open hgap hblank hne hname (raw ++ ')' :: after)
  rw [beforeLastClose_line hline] at hbehind
  dsimp only at h ⊢
  rw [h, List.nil_append, directiveHere, Text.startsWith_append, if_pos rfl, List.drop_left,
    hbehind]
  rfl

theorem stretched_longest {p : Place text} (h : ')' ∉ restOfLine p.after) :
    stretched p.raw p.after = p.raw := by
  rw [stretched, beforeLastClose_of_not_mem h]

theorem findDirective_ne_none (p : Place text) : findDirective text ≠ none := by
  induction text with
  | nil =>
    have hmarker : marker ≠ [] := by decide
    have hwhole := p.whole.symm
    rw [List.append_eq_nil_iff, List.append_eq_nil_iff] at hwhole
    exact absurd hwhole.2.1 hmarker
  | cons c s ih =>
    rw [findDirective_cons]
    rcases p.cases_cons with hp | ⟨q, rfl⟩
    · simp [p.here hp]
    · cases directiveHere (c :: s) with
      | some found => simp
      | none => exact ih q

theorem exists_chosen {name raw : List Char} (h : findDirective text = some (name, raw)) :
    ∃ p : Place text, p.Chosen ∧ p.name = name ∧ p.raw = raw := by
  induction text with
  | nil => cases h
  | cons c s ih =>
    rw [findDirective_cons] at h
    cases hhere : directiveHere (c :: s) with
    | some found =>
      rw [hhere] at h
      cases h
      obtain ⟨p, hbefore, hafter, hname, hraw⟩ := exists_of_here hhere
      exact ⟨p, ⟨fun q => by simp [hbefore], hafter⟩, hname, hraw⟩
    | none =>
      rw [hhere] at h
      obtain ⟨p, hp, hname, hraw⟩ := ih h
      -- No place stands at the head, so all of them move on with the text.
      refine ⟨p.cons c, ⟨fun q => ?_, hp.longest⟩, hname, hraw⟩
      rcases q.cases_cons with hq | ⟨q, rfl⟩
      · rw [q.here hq] at hhere
        cases hhere
      · exact Nat.succ_le_succ (hp.leftmost q)

theorem Chosen.of_cons {c : Char} {p : Place text} (h : (p.cons c).Chosen) : p.Chosen where
  leftmost q := Nat.le_of_succ_le_succ (h.leftmost (q.cons c))
  longest := h.longest

theorem Chosen.findDirective_eq {p : Place text} (h : p.Chosen) :
    findDirective text = some (p.name, p.raw) := by
  induction text with
  | nil => exact absurd rfl p.findDirective_ne_none
  | cons c s ih =>
    rw [findDirective_cons]
    rcases p.cases_cons with hp | ⟨p, rfl⟩
    · rw [p.here hp, stretched_longest h.longest]
      rfl
    · cases hhere : directiveHere (c :: s) with
      | some found =>
        -- A directive at the head would stand further left.
        obtain ⟨q, hq, -⟩ := exists_of_here hhere
        have hleft := h.leftmost q
        rw [hq] at hleft
        cases hleft
      | none => exact ih h.of_cons

end Place

/-- A text asks for what its leftmost directive says, and for nothing if it has
none. -/
structure Recognises (text : List Char) (r : Request) : Prop where
  /-- The directive is the match that backtracking finds first. -/
  match_eq : (Text.search pattern text).map (fun found => named found.2) = findDirective text
  none_iff : r = .none ↔ IsEmpty (Place text)
  exists_chosen : Nonempty (Place text) → ∃ p : Place text, p.Chosen
  eq_request : ∀ p : Place text, p.Chosen → r = p.request

theorem Place.Chosen.read_eq {text : List Char} {p : Place text} (h : p.Chosen) :
    read text = p.request := by
  rw [read, h.findDirective_eq]
  rfl

theorem Place.request_ne_none {text : List Char} (p : Place text) : p.request ≠ .none := by
  rw [Place.request]
  split
  · simp
  · simp

theorem Place.exists_chosen_of_nonempty {text : List Char} (h : Nonempty (Place text)) :
    ∃ p : Place text, p.Chosen := by
  obtain ⟨p⟩ := h
  obtain ⟨⟨name, raw⟩, hfound⟩ := Option.ne_none_iff_exists'.mp p.findDirective_ne_none
  obtain ⟨q, hq, -⟩ := exists_chosen hfound
  exact ⟨q, hq⟩

theorem read_eq_none_iff (text : List Char) : read text = .none ↔ IsEmpty (Place text) := by
  rw [← not_nonempty_iff]
  constructor
  · intro hread hplace
    obtain ⟨p, hp⟩ := Place.exists_chosen_of_nonempty hplace
    exact p.request_ne_none (hp.read_eq ▸ hread)
  · intro hno
    have hnone : findDirective text = none := by
      by_contra hfound
      obtain ⟨⟨name, raw⟩, hsome⟩ := Option.ne_none_iff_exists'.mp hfound
      obtain ⟨p, -⟩ := Place.exists_chosen hsome
      exact hno ⟨p⟩
    rw [read, hnone]

/-- A text is searched for exactly its pattern. -/
theorem recognises_read (text : List Char) : Recognises text (read text) where
  match_eq := search_pattern text
  none_iff := read_eq_none_iff text
  exists_chosen := Place.exists_chosen_of_nonempty
  eq_request _ hp := hp.read_eq

/-- Markers that lead to nothing are passed over, and line breaks before the
name count as blanks. -/
example :
    findDirective "调用工具 (x) 调用工具\n\tf(g(1)) h(2)\n)".toList =
      some ("f".toList, "g(1)) h(2".toList) := by
  decide

end Cardwalk.ToolCall
