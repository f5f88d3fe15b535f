import Cardwalk.Proofs.Json.Followed
import Cardwalk.Proofs.ToolCall.Directive

/-!
# Directives with something behind them

A directive whose call was read is found again whatever follows it, but its
arguments reach to the last closing parenthesis of the line. Without a
parenthesis on the rest of the line the call stays; with one the arguments
swallow what stands before it, and they are no JSON any more.
-/

set_option autoImplicit false

namespace Cardwalk.ToolCall

def directiveHere (s : List Char) : Option (List Char × List Char) :=
  if Text.startsWith marker s then behindMarker (s.drop marker.length) else none

theorem findDirective_cons (c : Char) (s : List Char) :
    findDirective (c :: s) = (directiveHere (c :: s)).or (findDirective s) := by
  rw [findDirective, ← directiveHere]
  cases directiveHere (c :: s) <;> rfl

/-- A text that ends at the closing parenthesis of its first directive. -/
inductive Closes (name raw : List Char) : List Char → Prop
  | here {gap : List Char} (hgap : gap ≠ []) (hblank : ∀ c ∈ gap, Text.isBlank c = true)
      (hne : name ≠ []) (hname : ∀ c ∈ name, isNameChar c = true) (hline : '\n' ∉ raw) :
      Closes name raw (marker ++ (gap ++ (name ++ '(' :: (raw ++ [')']))))
  | later {c : Char} {s : List Char} (hno : directiveHere (c :: s) = none)
      (hs : Closes name raw s) : Closes name raw (c :: s)

def stretched (raw s : List Char) : List Char :=
  match beforeLastClose (restOfLine s) with
  | none => raw
  | some more => raw ++ ')' :: more

theorem restOfLine_append {raw : List Char} (h : '\n' ∉ raw) (s : List Char) :
    restOfLine (raw ++ s) = raw ++ restOfLine s := by
  have hraw : ∀ c ∈ raw, decide (c ≠ '\n') = true := by
    intro c hc
    have hne : c ≠ '\n' := by
      rintro rfl
      exact h hc
    simpa using hne
  exact List.takeWhile_append_of_pos hraw

theorem restOfLine_of_mem {w : List Char} (h : '\n' ∈ w) (s : List Char) :
    restOfLine (w ++ s) = restOfLine w := by
  induction w with
  | nil => cases h
  | cons c w ih =>
    by_cases hc : c = '\n'
    · subst hc
      rfl
    · have hw : '\n' ∈ w := (List.mem_cons.mp h).resolve_left fun e => hc e.symm
      simpa [restOfLine, hc] using ih hw

theorem beforeLastClose_append (raw l : List Char) :
    beforeLastClose (raw ++ ')' :: l) =
      some (match beforeLastClose l with
        | none => raw
        | some more => raw ++ ')' :: more) := by
  have hrev : (raw ++ ')' :: l).reverse = l.reverse ++ ')' :: raw.reverse := by simp
  rw [beforeLastClose, hrev, Json.dropWhile_close (by decide), beforeLastClose]
  cases l.reverse.dropWhile (· ≠ ')') <;> simp

theorem beforeLastClose_line {raw : List Char} (h : '\n' ∉ raw) (s : List Char) :
    beforeLastClose (restOfLine (raw ++ ')' :: s)) = some (stretched raw s) := by
  have hclose : restOfLine (')' :: s) = ')' :: restOfLine s := rfl
  rw [restOfLine_append h, hclose, beforeLastClose_append]
  rfl

theorem behindMarker_open {gap name : List Char} (hgap : gap ≠ [])
    (hblank : ∀ c ∈ gap, Text.isBlank c = true) (hne : name ≠ [])
    (hname : ∀ c ∈ name, isNameChar c = true) (rest : List Char) :
    behindMarker (gap ++ (name ++ '(' :: rest)) =
      (beforeLastClose (restOfLine rest)).map fun raw => (name, raw) := by
  obtain ⟨b, gap, rfl⟩ := List.exists_cons_of_ne_nil hgap
  obtain ⟨c, more, rfl⟩ := List.exists_cons_of_ne_nil hne
  have hb := hblank b (by simp)
  have hc := isBlank_of_isNameChar (hname c (by simp))
  have htrim : Text.trimStart (b :: gap ++ (c :: more ++ '(' :: rest)) =
      c :: more ++ '(' :: rest := by
    rw [Text.trimStart, List.dropWhile_append_of_pos hblank]
    simp [hc]
  have hopen : isNameChar '(' = false := by decide
  have htake : (c :: more ++ '(' :: rest).takeWhile isNameChar = c :: more := by
    rw [List.takeWhile_append_of_pos hname]
    simp [hopen]
  have hdrop : (c :: more ++ '(' :: rest).dropWhile isNameChar = '(' :: rest := by
    rw [List.dropWhile_append_of_pos hname]
    simp [hopen]
  rw [List.cons_append] at htrim ⊢
  simp only [behindMarker, hb, if_true, htrim, htake, hdrop]
  rfl

/-- What is found up to a parenthesis does not depend on what follows it,
except for the end of the arguments. -/
theorem behindMarker_split (b : Char) (w s : List Char) :
    behindMarker (b :: w ++ ')' :: s) =
      if Text.isBlank b then
        if (((b :: w).dropWhile Text.isBlank).takeWhile isNameChar).isEmpty then none
        else
          match ((b :: w).dropWhile Text.isBlank).dropWhile isNameChar with
          | '(' :: rest => (beforeLastClose (restOfLine (rest ++ ')' :: s))).map fun raw =>
              (((b :: w).dropWhile Text.isBlank).takeWhile isNameChar, raw)
          | _ => none
      else none := by
  have htrim : Text.trimStart (b :: w ++ ')' :: s) =
      (b :: w).dropWhile Text.isBlank ++ ')' :: s := Json.dropWhile_close (by decide) _ _
  rw [List.cons_append] at htrim ⊢
  rw [behindMarker]
  simp only [htrim]
  rw [Json.takeWhile_close (by decide), Json.dropWhile_close (by decide)]
  cases ((b :: w).dropWhile Text.isBlank).dropWhile isNameChar with
  | nil => rfl
  | cons c rest =>
    by_cases hc : c = '('
    · subst hc
      rfl
    · simp [hc]

theorem behindMarker_close {w : List Char} (h : behindMarker (w ++ [')']) = none)
    (s : List Char) : behindMarker (w ++ ')' :: s) = none := by
  cases w with
  | nil => rfl
  | cons b w =>
    rw [behindMarker_split] at h ⊢
    split_ifs at h ⊢ with hb hname
    · rfl
    · split at h
      case h_1 rest hrest =>
        -- The line of the parenthesis must have ended before the last one.
        have hline : '\n' ∈ rest := by
          by_contra hline
          rw [beforeLastClose_line hline] at h
          cases h
        rw [restOfLine_of_mem hline] at h ⊢
        exact h
      case h_2 => rfl
    · rfl

theorem startsWith_close {m w s : List Char} (hm : ')' ∉ m)
    (h : Text.startsWith m (w ++ ')' :: s) = true) : ∃ v, w = m ++ v := by
  induction m generalizing w with
  | nil => exact ⟨w, rfl⟩
  | cons a m ih =>
    rw [List.mem_cons, not_or] at hm
    cases w with
    | nil =>
      have ha : a = ')' := by
        simp only [List.nil_append, Text.startsWith, Bool.and_eq_true, beq_iff_eq] at h
        exact h.1
      exact (hm.1 ha.symm).elim
    | cons b w =>
      simp only [List.cons_append, Text.startsWith, Bool.and_eq_true, beq_iff_eq] at h
      obtain ⟨v, rfl⟩ := ih hm.2 h.2
      exact ⟨v, by rw [h.1, List.cons_append]⟩

theorem directiveHere_close {w : List Char} (h : directiveHere (w ++ [')']) = none)
    (s : List Char) : directiveHere (w ++ ')' :: s) = none := by
  unfold directiveHere at h ⊢
  split_ifs with hs
  · obtain ⟨v, rfl⟩ := startsWith_close (by decide) hs
    rw [List.append_assoc, Text.startsWith_append, if_pos rfl, List.drop_left] at h
    rw [List.append_assoc, List.drop_left]
    exact behindMarker_close h s
  · rfl

theorem closes_close {name raw t : List Char} (h : Closes name raw t) :
    ∃ w, t = w ++ [')'] := by
  induction h with
  | @here gap => exact ⟨marker ++ (gap ++ (name ++ '(' :: raw)), by simp⟩
  | @later c s hno hs ih =>
    obtain ⟨w, rfl⟩ := ih
    exact ⟨c :: w, rfl⟩

theorem findDirective_closes {name raw t : List Char} (h : Closes name raw t)
    (s : List Char) : findDirective (t ++ s) = some (name, stretched raw s) := by
  induction h with
  | here hgap hblank hne hname hline =>
    have hbehind := behindMarker_open hgap hblank hne hname (raw ++ ')' :: s)
    rw [beforeLastClose_line hline] at hbehind
    have hfound := findDirective_marker hbehind
    simpa using hfound
  | @later c t hno ht ih =>
    obtain ⟨w, rfl⟩ := closes_close ht
    have hhere := directiveHere_close (w := c :: w) hno s
    have hjoin : c :: (w ++ [')']) ++ s = c :: (w ++ ')' :: s) := by simp
    have hih : findDirective (w ++ ')' :: s) = some (name, stretched raw s) := by
      simpa using ih
    rw [hjoin, findDirective_cons, hih]
    rw [List.cons_append] at hhere
    rw [hhere]
    rfl

theorem doubleQuotes_close (raw more : List Char) :
    doubleQuotes (raw ++ ')' :: more) = doubleQuotes raw ++ ')' :: doubleQuotes more := by
  simp [doubleQuotes]

theorem stretched_nil (raw : List Char) : stretched raw [] = raw := rfl

/-- What follows a directive leaves its call alone unless a closing
parenthesis stands on the rest of the line; then the call is lost. -/
theorem read_followed {name raw t : List Char} (ht : Closes name raw t) {c : ToolCall}
    (h : read t = .call c) (s : List Char) :
    read (t ++ s) =
      match beforeLastClose (restOfLine s) with
      | none => .call c
      | some more =>
        .invalid c.name (String.ofList (raw ++ ')' :: more)) (.flaw .trailingCharacters) := by
  have hfound := findDirective_closes ht []
  rw [List.append_nil, stretched_nil] at hfound
  rw [read, hfound] at h
  dsimp only at h
  cases hp : Json.parse (doubleQuotes raw) with
  | error e =>
    rw [hp] at h
    cases h
  | ok args =>
    rw [hp] at h
    cases h
    rw [read, findDirective_closes ht s, stretched]
    cases hs : beforeLastClose (restOfLine s) with
    | none =>
      dsimp only
      rw [hp]
    | some more =>
      dsimp only
      rw [doubleQuotes_close, Json.parse_close hp]

def request : String := "调用工具 f({})"

theorem request_closes : Closes ['f'] ['{', '}'] request.toList := by
  have h : request.toList =
      marker ++ ([' '] ++ (['f'] ++ '(' :: (['{', '}'] ++ [')']))) := by decide
  rw [h]
  exact .here (by decide) (List.all_eq_true.mp (by decide)) (by decide)
    (List.all_eq_true.mp (by decide)) (by decide)

theorem request_read : read request.toList = .call ⟨"f", .object []⟩ := by
  have hfound := findDirective_closes request_closes []
  have hparse : Json.parse (doubleQuotes ['{', '}']) = .ok (.object []) := rfl
  rw [List.append_nil, stretched_nil] at hfound
  rw [read, hfound]
  simp only [hparse]

theorem request_followed :
    read (request.toList ++ "\n说明 (不是参数)".toList) = .call ⟨"f", .object []⟩ ∧
    read (request.toList ++ " (说明)".toList) =
      .invalid "f" "{}) (说明" (.flaw .trailingCharacters) := by
  have hnext : beforeLastClose (restOfLine "\n说明 (不是参数)".toList) = none := by decide
  have hsame : beforeLastClose (restOfLine " (说明)".toList) = some " (说明".toList := by decide
  have hfirst := read_followed request_closes request_read "\n说明 (不是参数)".toList
  have hsecond := read_followed request_closes request_read " (说明)".toList
  rw [hnext] at hfirst
  rw [hsame] at hsecond
  exact ⟨hfirst, hsecond⟩

theorem request_lost :
    Closes ['f'] ['{', '}'] request.toList ∧ read request.toList = .call ⟨"f", .object []⟩ ∧
      extract (request ++ " (x)") = none := by
  refine ⟨request_closes, request_read, ?_⟩
  have hnone : (extract (request ++ " (x)")).isNone = true := by decide +kernel
  exact Option.isNone_iff_eq_none.mp hnone

end Cardwalk.ToolCall
