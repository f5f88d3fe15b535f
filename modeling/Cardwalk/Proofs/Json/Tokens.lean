import Mathlib.Tactic.SplitIfs
import Cardwalk.Json.Doc

/-!
# Words, numbers and strings with something behind them

A string or a word that was read to its end is read the same whatever follows
it, a number where a character follows with which no number goes on, such as a
closing parenthesis.
-/

set_option autoImplicit false

namespace Cardwalk.Json

section Stop

variable {p : Char → Bool} {more : List Char} (hp : ∀ c t, more = c :: t → p c = false)

include hp

theorem takeWhile_stop (s : List Char) : (s ++ more).takeWhile p = s.takeWhile p := by
  induction s with
  | nil =>
    cases more with
    | nil => rfl
    | cons c t => simp [hp c t rfl]
  | cons c s ih => by_cases hc : p c <;> simp [hc, ih]

theorem dropWhile_stop (s : List Char) : (s ++ more).dropWhile p = s.dropWhile p ++ more := by
  induction s with
  | nil =>
    cases more with
    | nil => rfl
    | cons c t => simp [hp c t rfl]
  | cons c s ih => by_cases hc : p c <;> simp [hc, ih]

end Stop

theorem close_stop {p : Char → Bool} (hp : p ')' = false) (t : List Char) :
    ∀ c u, ')' :: t = c :: u → p c = false := by
  rintro c u ⟨⟩
  exact hp

theorem takeWhile_close {p : Char → Bool} (hp : p ')' = false) (s t : List Char) :
    (s ++ ')' :: t).takeWhile p = s.takeWhile p :=
  takeWhile_stop (close_stop hp t) s

theorem dropWhile_close {p : Char → Bool} (hp : p ')' = false) (s t : List Char) :
    (s ++ ')' :: t).dropWhile p = s.dropWhile p ++ ')' :: t :=
  dropWhile_stop (close_stop hp t) s

def continues (c : Char) : Bool :=
  c.isDigit || c = '.' || c = 'e' || c = 'E' || c = '+' || c = '-'

/-- A text with which no number goes on. -/
def Quiet (more : List Char) : Prop := ∀ c t, more = c :: t → continues c = false

theorem quiet_close (t : List Char) : Quiet (')' :: t) := close_stop (by decide) t

section Quiet

variable {more : List Char} (hq : Quiet more)

include hq

theorem Quiet.isDigit : ∀ c t, more = c :: t → c.isDigit = false := by
  intro c t he
  have hc := hq c t he
  simp only [continues, Bool.or_eq_false_iff] at hc
  exact hc.1.1.1.1.1

theorem Quiet.ne {d : Char} (hd : continues d = true) : ∀ t, more ≠ d :: t := by
  intro t he
  rw [hq d t he] at hd
  exact Bool.noConfusion hd

theorem digitAhead_quiet (s : List Char) : digitAhead (s ++ more) = digitAhead s := by
  cases s with
  | cons c s => rfl
  | nil =>
    cases more with
    | nil => rfl
    | cons c t => exact hq.isDigit c t rfl

theorem gather_quiet (significand count : Nat) (s : List Char) :
    gather significand count (s ++ more) =
      ((gather significand count s).1, (gather significand count s).2.1,
        (gather significand count s).2.2 ++ more) := by
  induction s generalizing significand count with
  | nil =>
    cases more with
    | nil => rfl
    | cons c t => simp [gather, hq.isDigit c t rfl]
  | cons c s ih =>
    simp only [List.cons_append, gather]
    split_ifs
    · rfl
    · exact ih _ _
    · rfl

theorem exponentDigits_quiet (s : List Char) :
    exponentDigits (s ++ more) = ((exponentDigits s).1, (exponentDigits s).2 ++ more) := by
  simp only [exponentDigits]
  rw [takeWhile_stop hq.isDigit, dropWhile_stop hq.isDigit]

end Quiet

def Scanned.Ended : Scanned → Prop
  | .number _ => True
  | .huge => True
  | _ => False

/-- A part of the scanner that reads the same whatever follows with which no
number goes on. -/
def Steady (scan : List Char → Scanned × List Char) : Prop :=
  ∀ {s rest more : List Char} {x : Scanned}, Quiet more → scan s = (x, rest) → x.Ended →
    scan (s ++ more) = (x, rest ++ more)

def sign (s : List Char) : Bool × List Char :=
  match s with
  | '+' :: s => (false, s)
  | '-' :: s => (true, s)
  | s => (false, s)

theorem sign_quiet {more : List Char} (hq : Quiet more) (s : List Char) :
    sign (s ++ more) = ((sign s).1, (sign s).2 ++ more) := by
  have hother : ∀ u : List Char, (∀ t, u ≠ '+' :: t) → (∀ t, u ≠ '-' :: t) →
      sign u = (false, u) := by
    intro u hp hm
    unfold sign
    split
    · exact absurd rfl (hp _)
    · exact absurd rfl (hm _)
    · rfl
  cases s with
  | nil => exact hother more (hq.ne (by decide)) (hq.ne (by decide))
  | cons c s =>
    by_cases hp : c = '+'
    · subst hp
      rfl
    · by_cases hm : c = '-'
      · subst hm
        rfl
      · simp [sign, hp, hm]

theorem scanExponent_steady (negative : Bool) (significand : Nat) (e : Int) :
    Steady (scanExponent negative significand e) := by
  intro s rest more x hq h hx
  have hsign : ∀ u, scanExponent negative significand e u =
      if digitAhead (sign u).2 then
        (scaled negative significand (if (sign u).1 then e - (exponentDigits (sign u).2).1
          else e + (exponentDigits (sign u).2).1), (exponentDigits (sign u).2).2)
      else (if (sign u).2.isEmpty then .cut else .invalid, (sign u).2) := fun u => rfl
  rw [hsign] at h ⊢
  rw [sign_quiet hq, digitAhead_quiet hq, exponentDigits_quiet hq]
  by_cases hd : digitAhead (sign s).2
  · rw [if_pos hd] at h ⊢
    cases h
    rfl
  · rw [if_neg hd] at h
    cases h
    split_ifs at hx <;> exact hx.elim

theorem scanTail_other (negative : Bool) (significand : Nat) (e : Int) {s : List Char}
    (he : ∀ t, s ≠ 'e' :: t) (hE : ∀ t, s ≠ 'E' :: t) :
    scanTail negative significand e s = (scaled negative significand e, s) := by
  unfold scanTail
  split
  · exact absurd rfl (he _)
  · exact absurd rfl (hE _)
  · rfl

theorem scanTail_steady (negative : Bool) (significand : Nat) (e : Int) :
    Steady (scanTail negative significand e) := by
  intro s rest more x hq h hx
  cases s with
  | nil =>
    cases h
    exact scanTail_other _ _ _ (hq.ne (by decide)) (hq.ne (by decide))
  | cons c s =>
    by_cases he : c = 'e'
    · subst he
      exact scanExponent_steady _ _ _ hq h hx
    · by_cases hE : c = 'E'
      · subst hE
        exact scanExponent_steady _ _ _ hq h hx
      · have hs : ∀ u, scanTail negative significand e (c :: u) =
            (scaled negative significand e, c :: u) := fun u =>
          scanTail_other _ _ _ (by simp [he]) (by simp [hE])
        rw [hs] at h
        cases h
        exact hs _

theorem scanFraction_steady (negative : Bool) (significand : Nat) (e : Int) :
    Steady (scanFraction negative significand e) := by
  intro s rest more x hq h hx
  unfold scanFraction at h ⊢
  rw [gather_quiet hq]
  rcases hg : gather significand 0 s with ⟨digits, count, s'⟩
  rw [hg] at h
  dsimp only at h ⊢
  rw [digitAhead_quiet hq, dropWhile_stop hq.isDigit]
  by_cases hd : digitAhead s'
  · rw [if_pos hd] at h ⊢
    exact scanTail_steady _ _ _ hq h hx
  · rw [if_neg hd] at h ⊢
    by_cases hc : count = 0
    · rw [if_pos hc] at h
      cases h
      split_ifs at hx <;> exact hx.elim
    · rw [if_neg hc] at h ⊢
      exact scanTail_steady _ _ _ hq h hx

def scanBehind (negative : Bool) (significand : Nat) (s : List Char) : Scanned × List Char :=
  match s with
  | '.' :: t => scanFraction negative significand 0 t
  | 'e' :: t => scanExponent negative significand 0 t
  | 'E' :: t => scanExponent negative significand 0 t
  | _ => (whole negative significand, s)

theorem scanBehind_other (negative : Bool) (significand : Nat) {s : List Char}
    (hp : ∀ t, s ≠ '.' :: t) (he : ∀ t, s ≠ 'e' :: t) (hE : ∀ t, s ≠ 'E' :: t) :
    scanBehind negative significand s = (whole negative significand, s) := by
  unfold scanBehind
  split
  · exact absurd rfl (hp _)
  · exact absurd rfl (he _)
  · exact absurd rfl (hE _)
  · rfl

theorem scanBehind_steady (negative : Bool) (significand : Nat) :
    Steady (scanBehind negative significand) := by
  intro s rest more x hq h hx
  cases s with
  | nil =>
    cases h
    exact scanBehind_other _ _ (hq.ne (by decide)) (hq.ne (by decide)) (hq.ne (by decide))
  | cons c s =>
    by_cases hp : c = '.'
    · subst hp
      exact scanFraction_steady _ _ _ hq h hx
    · by_cases he : c = 'e'
      · subst he
        exact scanExponent_steady _ _ _ hq h hx
      · by_cases hE : c = 'E'
        · subst hE
          exact scanExponent_steady _ _ _ hq h hx
        · have hs : ∀ u, scanBehind negative significand (c :: u) =
              (whole negative significand, c :: u) := fun u =>
            scanBehind_other _ _ (by simp [hp]) (by simp [he]) (by simp [hE])
          rw [hs] at h
          cases h
          exact hs _

def scanDropped (negative : Bool) (significand dropped : Nat) (s : List Char) :
    Scanned × List Char :=
  match s with
  | '.' :: t => scanFraction negative significand dropped t
  | t => scanTail negative significand dropped t

theorem scanDropped_other (negative : Bool) (significand dropped : Nat) {s : List Char}
    (hp : ∀ t, s ≠ '.' :: t) :
    scanDropped negative significand dropped s = scanTail negative significand dropped s := by
  unfold scanDropped
  split
  · exact absurd rfl (hp _)
  · rfl

theorem scanDropped_steady (negative : Bool) (significand dropped : Nat) :
    Steady (scanDropped negative significand dropped) := by
  intro s rest more x hq h hx
  by_cases hp : ∃ t, s = '.' :: t
  · obtain ⟨t, rfl⟩ := hp
    exact scanFraction_steady _ _ _ hq h hx
  · have hs : ∀ t, s ≠ '.' :: t := fun t he => hp ⟨t, he⟩
    have hmore : ∀ t, s ++ more ≠ '.' :: t := by
      intro t he
      cases s with
      | nil => exact hq.ne (by decide) t he
      | cons c s => exact hs s (by rw [(List.cons.inj he).1])
    rw [scanDropped_other _ _ _ hs] at h
    rw [scanDropped_other _ _ _ hmore]
    exact scanTail_steady _ _ _ hq h hx

theorem scanUnsigned_steady (negative : Bool) : Steady (scanUnsigned negative) := by
  intro s rest more x hq h hx
  cases s with
  | nil =>
    cases h
    exact hx.elim
  | cons c s =>
    by_cases hz : c = '0'
    · subst hz
      have hs : ∀ u, scanUnsigned negative ('0' :: u) =
          if digitAhead u then (.invalid, u) else scanBehind negative 0 u := fun u => rfl
      rw [hs] at h
      rw [List.cons_append, hs, digitAhead_quiet hq]
      by_cases hd : digitAhead s
      · rw [if_pos hd] at h
        cases h
        exact hx.elim
      · rw [if_neg hd] at h ⊢
        exact scanBehind_steady _ _ hq h hx
    · have hs : ∀ u, scanUnsigned negative (c :: u) =
          if c.isDigit then
            if digitAhead (gather 0 0 (c :: u)).2.2 then
              scanDropped negative (gather 0 0 (c :: u)).1
                ((gather 0 0 (c :: u)).2.2.takeWhile Char.isDigit).length
                ((gather 0 0 (c :: u)).2.2.dropWhile Char.isDigit)
            else scanBehind negative (gather 0 0 (c :: u)).1 (gather 0 0 (c :: u)).2.2
          else (.invalid, c :: u) := by
        intro u
        rw [scanUnsigned]
        · rfl
        · exact hz
      have hg := gather_quiet hq 0 0 (c :: s)
      rw [hs] at h
      rw [List.cons_append] at hg ⊢
      rw [hs, hg]
      dsimp only
      rw [digitAhead_quiet hq, takeWhile_stop hq.isDigit, dropWhile_stop hq.isDigit]
      by_cases hc : c.isDigit
      · rw [if_pos hc] at h ⊢
        split_ifs at h ⊢
        · exact scanDropped_steady _ _ _ hq h hx
        · exact scanBehind_steady _ _ hq h hx
      · rw [if_neg hc] at h
        cases h
        exact hx.elim

theorem readNumber_quiet {negative : Bool} {s rest more : List Char} {d : Doc} (hq : Quiet more)
    (h : readNumber negative s = (d, some rest)) :
    readNumber negative (s ++ more) = (d, some (rest ++ more)) := by
  unfold readNumber at h ⊢
  rcases hs : scanUnsigned negative s with ⟨x, s'⟩
  rw [hs] at h
  cases x with
  | number n =>
    rw [scanUnsigned_steady negative hq hs trivial]
    cases h
    rfl
  | huge =>
    rw [scanUnsigned_steady negative hq hs trivial]
    cases h
    rfl
  | invalid => cases h
  | cut => cases h

theorem exists_succ {n n' : Nat} (h : n + 1 ≤ n') : ∃ k, n' = k + 1 ∧ n ≤ k :=
  ⟨n' - 1, by omega, by omega⟩

theorem bind_ok {α β : Type} {e : Except Flaw α} {f : α → Except Flaw β} {b : β}
    (h : e.bind f = .ok b) : ∃ a, e = .ok a ∧ f a = .ok b := by
  cases e with
  | ok a => exact ⟨a, rfl, h⟩
  | error g => cases h

section Strings

variable {s rest : List Char} {read : List Char} {k steps steps' : Nat}

def before {α : Type} (more : List Char) (x : α × List Char) : α × List Char :=
  (x.1, x.2 ++ more)

theorem hexFour_append {x : Nat × List Char} (h : hexFour s = .ok x) (more : List Char) :
    hexFour (s ++ more) = .ok (before more x) := by
  rcases s with _ | ⟨a, _ | ⟨b, _ | ⟨c, _ | ⟨d, s⟩⟩⟩⟩
  · cases h
  · cases h
  · cases h
  · cases h
  · simp only [hexFour, List.cons_append] at h ⊢
    split at h
    · cases h
      rfl
    · cases h

inductive Shape : List Char → Prop
  | nil : Shape []
  | quote (s : List Char) : Shape ('"' :: s)
  | backslash : Shape ['\\']
  | unicode (s : List Char) : Shape ('\\' :: 'u' :: s)
  | escape {e : Char} (he : e ≠ 'u') (s : List Char) : Shape ('\\' :: e :: s)
  | plain {c : Char} (hq : c ≠ '"') (hb : c ≠ '\\') (s : List Char) : Shape (c :: s)

theorem shape (s : List Char) : Shape s := by
  rcases s with _ | ⟨c, s⟩
  · exact .nil
  · by_cases hq : c = '"'
    · subst hq
      exact .quote s
    · by_cases hb : c = '\\'
      · subst hb
        rcases s with _ | ⟨e, s⟩
        · exact .backslash
        · by_cases he : e = 'u'
          · subst he
            exact .unicode s
          · exact .escape he s
      · exact .plain hq hb s

theorem skipString_unicode (k : Nat) (s : List Char) :
    skipString (k + 1) ('\\' :: 'u' :: s) = (hexFour s).bind fun x => skipString k x.2 := by
  cases h : hexFour s <;> simp [skipString, h, Except.bind]

theorem skipString_escape {e : Char} (he : e ≠ 'u') (k : Nat) (s : List Char) :
    skipString (k + 1) ('\\' :: e :: s) =
      if (shortEscape e).isSome then skipString k s else .error .invalidEscape := by
  rw [skipString, if_neg he]

theorem skipString_plain {c : Char} (hq : c ≠ '"') (hb : c ≠ '\\') (k : Nat)
    (s : List Char) : skipString (k + 1) (c :: s) =
      if c.toNat < 0x20 then .error .controlCharacter else skipString k s := by
  rw [skipString]
  · exact hq
  · exact fun h _ => hb h
  · exact fun e s h _ => hb h

theorem readString_unicode (k : Nat) (read s : List Char) :
    readString (k + 1) read ('\\' :: 'u' :: s) =
      (readUnicode s).bind fun x => readString k (x.1 :: read) x.2 := by
  cases h : readUnicode s <;> simp [readString, h, Except.bind]

theorem readString_escape {e : Char} (he : e ≠ 'u') (k : Nat) (read s : List Char) :
    readString (k + 1) read ('\\' :: e :: s) =
      match shortEscape e with
      | some c => readString k (c :: read) s
      | none => .error .invalidEscape := by
  cases h : shortEscape e <;> simp [readString, he, h]

theorem readString_plain {c : Char} (hq : c ≠ '"') (hb : c ≠ '\\') (k : Nat)
    (read s : List Char) : readString (k + 1) read (c :: s) =
      if c.toNat < 0x20 then .error .controlCharacter else readString k (c :: read) s := by
  rw [readString]
  · exact hq
  · exact fun h _ => hb h
  · exact fun e s h _ => hb h

theorem skipString_append {k' : Nat} (h : skipString k s = .ok rest) (hle : k ≤ k')
    (more : List Char) : skipString k' (s ++ more) = .ok (rest ++ more) := by
  induction k generalizing s k' with
  | zero => cases h
  | succ k ih =>
    obtain ⟨k', rfl, hk⟩ := exists_succ hle
    cases shape s with
    | nil => cases h
    | quote s =>
      cases h
      rfl
    | backslash => cases h
    | unicode s =>
      rw [skipString_unicode] at h
      obtain ⟨x, hx, h⟩ := bind_ok h
      rw [List.cons_append, List.cons_append, skipString_unicode, hexFour_append hx]
      exact ih h hk
    | escape he s =>
      rw [skipString_escape he] at h
      rw [List.cons_append, List.cons_append, skipString_escape he]
      split_ifs at h ⊢ with hs
      exact ih h hk
    | plain hq hb s =>
      rw [skipString_plain hq hb] at h
      rw [List.cons_append, skipString_plain hq hb]
      split_ifs at h ⊢ with hc
      exact ih h hk

/-- A string whose end is found where it is passed over. -/
def Passable (k : Nat) (s : List Char) : Prop := ∃ rest, skipString k s = .ok rest

theorem not_passable_zero : ¬ Passable 0 s := by
  rintro ⟨rest, h⟩
  cases h

theorem not_passable_nil : ¬ Passable k [] := by
  rintro ⟨rest, h⟩
  cases k <;> cases h

theorem not_passable_backslash : ¬ Passable k ['\\'] := by
  rintro ⟨rest, h⟩
  cases k <;> cases h

theorem passable_unicode :
    Passable (k + 1) ('\\' :: 'u' :: s) ↔ ∃ x, hexFour s = .ok x ∧ Passable k x.2 := by
  unfold Passable
  rw [skipString_unicode]
  cases hexFour s <;> simp [Except.bind]

theorem passable_escape {e : Char} (he : e ≠ 'u') :
    Passable (k + 1) ('\\' :: e :: s) ↔ (shortEscape e).isSome ∧ Passable k s := by
  unfold Passable
  rw [skipString_escape he]
  split_ifs with h <;> simp [h]

theorem passable_plain {c : Char} (hq : c ≠ '"') (hb : c ≠ '\\') :
    Passable (k + 1) (c :: s) ↔ ¬ c.toNat < 0x20 ∧ Passable k s := by
  unfold Passable
  rw [skipString_plain hq hb]
  split_ifs with h <;> simp [h]

theorem passable_succ (h : ∃ k, k ≤ steps + 1 ∧ Passable k s) :
    ∃ k, k ≤ steps ∧ Passable (k + 1) s := by
  obtain ⟨k, hk, h⟩ := h
  cases k with
  | zero => exact (not_passable_zero h).elim
  | succ k => exact ⟨k, by omega, h⟩

def lowHalf (n : Nat) (s : List Char) : Except Flaw (Char × List Char) :=
  match s with
  | [] => .error .endInString
  | ['\\'] => .error .endInString
  | '\\' :: 'u' :: s => (hexFour s).bind fun x =>
    if x.1 < 0xDC00 || 0xDFFF < x.1 then .error .loneSurrogate
    else .ok (Char.ofNat (0x10000 + (n - 0xD800) * 1024 + (x.1 - 0xDC00)), x.2)
  | _ => .error .endOfHexEscape

theorem readUnicode_eq (s : List Char) :
    readUnicode s = (hexFour s).bind fun x =>
      if 0xDC00 ≤ x.1 && x.1 ≤ 0xDFFF then .error .loneSurrogate
      else if x.1 < 0xD800 || 0xDBFF < x.1 then .ok (Char.ofNat x.1, x.2)
      else lowHalf x.1 x.2 := rfl

theorem lowHalf_other {n : Nat} {c : Char} (hb : c ≠ '\\') (s : List Char) :
    lowHalf n (c :: s) = .error .endOfHexEscape := by
  unfold lowHalf
  split <;> simp_all

theorem lowHalf_escape {n : Nat} {e : Char} (he : e ≠ 'u') (s : List Char) :
    lowHalf n ('\\' :: e :: s) = .error .endOfHexEscape := by
  simp [lowHalf, he]

theorem lowHalf_unicode {n : Nat} {x : Nat × List Char} (h : hexFour s = .ok x) :
    lowHalf n ('\\' :: 'u' :: s) =
      if x.1 < 0xDC00 || 0xDFFF < x.1 then .error .loneSurrogate
      else .ok (Char.ofNat (0x10000 + (n - 0xD800) * 1024 + (x.1 - 0xDC00)), x.2) := by
  rw [lowHalf, h]
  rfl

theorem hexFour_of_lowHalf {n : Nat} {x : Char × List Char}
    (h : lowHalf n ('\\' :: 'u' :: s) = .ok x) : ∃ y, hexFour s = .ok y := by
  rw [lowHalf] at h
  obtain ⟨y, hy, -⟩ := bind_ok h
  exact ⟨y, hy⟩

theorem hexFour_of_passable (h : Passable k ('\\' :: 'u' :: s)) :
    ∃ y, hexFour s = .ok y ∧ ∃ k', k' ≤ k ∧ Passable k' y.2 := by
  cases k with
  | zero => exact (not_passable_zero h).elim
  | succ k =>
    obtain ⟨y, hy, hp⟩ := passable_unicode.mp h
    exact ⟨y, hy, k, by omega, hp⟩

theorem lowHalf_append {n : Nat} (h : (∃ x, lowHalf n s = .ok x) ∨ Passable k s)
    (more : List Char) : lowHalf n (s ++ more) = (lowHalf n s).map (before more) := by
  cases shape s with
  | nil =>
    obtain ⟨x, h⟩ | h := h
    · cases h
    · exact (not_passable_nil h).elim
  | backslash =>
    obtain ⟨x, h⟩ | h := h
    · cases h
    · exact (not_passable_backslash h).elim
  | quote s =>
    rw [lowHalf_other (by decide), List.cons_append, lowHalf_other (by decide)]
    rfl
  | plain hq hb s =>
    rw [lowHalf_other hb, List.cons_append, lowHalf_other hb]
    rfl
  | escape he s =>
    rw [lowHalf_escape he, List.cons_append, List.cons_append, lowHalf_escape he]
    rfl
  | unicode s =>
    have hx : ∃ x, hexFour s = .ok x := by
      obtain ⟨x, h⟩ | h := h
      · exact hexFour_of_lowHalf h
      · obtain ⟨x, hx, -⟩ := hexFour_of_passable h
        exact ⟨x, hx⟩
    obtain ⟨x, hx⟩ := hx
    rw [lowHalf_unicode hx, List.cons_append, List.cons_append,
      lowHalf_unicode (hexFour_append hx more)]
    by_cases hm : (x.1 < 0xDC00 || 0xDFFF < x.1) = true
    · rw [if_pos hm]
      exact if_pos hm
    · rw [if_neg hm]
      refine (if_neg hm).trans ?_
      simp only [Except.map, before]

theorem lowHalf_passable {n : Nat} {x : Char × List Char} (h : lowHalf n s = .ok x)
    (hk : Passable k s) : ∃ k', k' ≤ k ∧ Passable k' x.2 := by
  cases shape s with
  | nil => cases h
  | backslash => cases h
  | quote s =>
    rw [lowHalf_other (by decide)] at h
    cases h
  | plain hq hb s =>
    rw [lowHalf_other hb] at h
    cases h
  | escape he s =>
    rw [lowHalf_escape he] at h
    cases h
  | unicode s =>
    obtain ⟨y, hy, k', hle, hp⟩ := hexFour_of_passable hk
    rw [lowHalf_unicode hy] at h
    split at h
    · cases h
    · obtain rfl := Except.ok.inj h
      exact ⟨k', hle, hp⟩

theorem hexFour_of_readUnicode {x : Char × List Char} (h : readUnicode s = .ok x) :
    ∃ y, hexFour s = .ok y := by
  rw [readUnicode_eq] at h
  obtain ⟨y, hy, -⟩ := bind_ok h
  exact ⟨y, hy⟩

theorem readUnicode_append {y : Nat × List Char} (hy : hexFour s = .ok y)
    (h : (∃ x, readUnicode s = .ok x) ∨ Passable k y.2) (more : List Char) :
    readUnicode (s ++ more) = (readUnicode s).map (before more) := by
  rw [readUnicode_eq, hy] at h
  rw [readUnicode_eq, readUnicode_eq, hy, hexFour_append hy more]
  simp only [Except.bind] at h ⊢
  by_cases hlow : (0xDC00 ≤ y.1 && y.1 ≤ 0xDFFF) = true
  · rw [if_pos hlow]
    exact if_pos hlow
  · by_cases hone : (y.1 < 0xD800 || 0xDBFF < y.1) = true
    · rw [if_neg hlow, if_pos hone]
      exact (if_neg hlow).trans (if_pos hone)
    · rw [if_neg hlow, if_neg hone] at h ⊢
      exact ((if_neg hlow).trans (if_neg hone)).trans (lowHalf_append h more)

theorem readUnicode_passable {y : Nat × List Char} (hy : hexFour s = .ok y)
    {x : Char × List Char} (h : readUnicode s = .ok x) (hk : Passable k y.2) :
    ∃ k', k' ≤ k ∧ Passable k' x.2 := by
  rw [readUnicode_eq, hy] at h
  simp only [Except.bind] at h
  split at h
  · cases h
  · split at h
    · obtain rfl := Except.ok.inj h
      exact ⟨k, Nat.le_refl k, hk⟩
    · exact lowHalf_passable h hk

/-- A string that is read, or at least passed over, is read the same with more
text behind it. -/
theorem readString_append
    (h : (∃ x, readString steps read s = .ok x) ∨ ∃ k, k ≤ steps ∧ Passable k s)
    (hle : steps ≤ steps') (more : List Char) :
    readString steps' read (s ++ more) = (readString steps read s).map (before more) := by
  induction steps generalizing s read steps' with
  | zero =>
    obtain ⟨x, h⟩ | ⟨k, hk, h⟩ := h
    · cases h
    · obtain rfl := Nat.le_zero.mp hk
      exact (not_passable_zero h).elim
  | succ steps ih =>
    obtain ⟨steps', rfl, hsteps⟩ := exists_succ hle
    have h : (∃ x, readString (steps + 1) read s = .ok x) ∨
        ∃ k, k ≤ steps ∧ Passable (k + 1) s := h.imp_right passable_succ
    cases shape s with
    | nil =>
      obtain ⟨x, h⟩ | ⟨k, -, h⟩ := h
      · cases h
      · exact (not_passable_nil h).elim
    | quote s => rfl
    | backslash =>
      obtain ⟨x, h⟩ | ⟨k, -, h⟩ := h
      · cases h
      · exact (not_passable_backslash h).elim
    | unicode s =>
      rw [readString_unicode] at h ⊢
      rw [List.cons_append, List.cons_append, readString_unicode]
      have hy : ∃ y, hexFour s = .ok y ∧
          ((∃ u, readUnicode s = .ok u ∧ ∃ x, readString steps (u.1 :: read) u.2 = .ok x) ∨
            ∃ k, k ≤ steps ∧ Passable k y.2) := by
        obtain ⟨x, h⟩ | ⟨k, hk, h⟩ := h
        · obtain ⟨u, hu, h⟩ := bind_ok h
          obtain ⟨y, hy⟩ := hexFour_of_readUnicode hu
          exact ⟨y, hy, .inl ⟨u, hu, x, h⟩⟩
        · obtain ⟨y, hy, h⟩ := passable_unicode.mp h
          exact ⟨y, hy, .inr ⟨k, hk, h⟩⟩
      obtain ⟨y, hy, h⟩ := hy
      have happend : readUnicode (s ++ more) = (readUnicode s).map (before more) := by
        obtain ⟨u, hu, -⟩ | ⟨k, -, h⟩ := h
        · exact readUnicode_append (k := 0) hy (.inl ⟨u, hu⟩) more
        · exact readUnicode_append hy (.inr h) more
      rw [happend]
      cases hu : readUnicode s with
      | error f => rfl
      | ok u =>
        refine ih ?_ hsteps
        obtain ⟨u', hu', h⟩ | ⟨k, hk, h⟩ := h
        · rw [hu] at hu'
          cases hu'
          exact .inl h
        · obtain ⟨k', hk', h⟩ := readUnicode_passable hy hu h
          exact .inr ⟨k', by omega, h⟩
    | escape he s =>
      rw [readString_escape he] at h ⊢
      rw [List.cons_append, List.cons_append, readString_escape he]
      simp only [passable_escape he] at h
      cases hc : shortEscape _ with
      | none => rfl
      | some c =>
        rw [hc] at h
        exact ih (h.imp_right fun ⟨k, hk, h⟩ => ⟨k, hk, h.2⟩) hsteps
    | plain hq hb s =>
      rw [readString_plain hq hb] at h ⊢
      rw [List.cons_append, readString_plain hq hb]
      simp only [passable_plain hq hb] at h
      split_ifs at h ⊢ with hc
      · rfl
      · exact ih (h.imp_right fun ⟨k, hk, h⟩ => ⟨k, hk, h.2⟩) hsteps

theorem readText_append {d : Doc} (h : readText steps s = (d, some rest))
    (hle : steps ≤ steps') (more : List Char) :
    readText steps' (s ++ more) = (d, some (rest ++ more)) := by
  unfold readText at h ⊢
  cases hr : readString steps [] s with
  | ok x =>
    rw [readString_append (.inl ⟨x, hr⟩) hle, hr]
    rw [hr] at h
    cases h
    rfl
  | error f =>
    rw [hr] at h
    cases hk : skipString steps s with
    | error g =>
      rw [hk] at h
      cases h
    | ok s₁ =>
      rw [readString_append (.inr ⟨steps, Nat.le_refl _, s₁, hk⟩) hle, hr,
        skipString_append hk hle]
      rw [hk] at h
      cases h
      rfl

theorem readWord_append {whole d : Doc} {w : List Char}
    (h : readWord whole w s = (d, some rest)) (more : List Char) :
    readWord whole w (s ++ more) = (d, some (rest ++ more)) := by
  induction w generalizing s with
  | nil =>
    cases h
    rfl
  | cons a w ih =>
    cases s with
    | nil => cases h
    | cons c s =>
      rw [readWord] at h
      rw [List.cons_append, readWord]
      split_ifs at h ⊢ with ha
      · exact ih h
      · cases h

theorem readWord_outcome (whole : Doc) (w s : List Char) :
    (readWord whole w s).1 = whole ∨ ∃ f, (readWord whole w s).1 = .stopped f := by
  induction w generalizing s with
  | nil => exact .inl rfl
  | cons a w ih =>
    cases s with
    | nil => exact .inr ⟨_, rfl⟩
    | cons c s =>
      rw [readWord]
      split_ifs
      · exact ih s
      · exact .inr ⟨_, rfl⟩

end Strings

end Cardwalk.Json
