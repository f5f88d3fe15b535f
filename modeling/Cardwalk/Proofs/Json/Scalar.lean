import Mathlib.Tactic.IntervalCases
import Mathlib.Tactic.SplitIfs
import Cardwalk.Json.Doc
import Cardwalk.Json.Print

/-!
# Numbers and strings read back

A whole number of 64 bits and a string are read as what was written, whatever
stands behind them, as long as a number does not go on there.
-/

set_option autoImplicit false

namespace Cardwalk.Json

/-- Nothing that a number could go on with. -/
def isEnd (c : Char) : Bool := c = ',' || c = ']' || c = '}' || isSpace c

def Ended (rest : List Char) : Prop := ∀ c s, rest = c :: s → isEnd c = true

theorem ended_nil : Ended [] := by
  intro c s h
  cases h

theorem ended_cons {c : Char} {s : List Char} (h : isEnd c = true) : Ended (c :: s) := by
  intro d t he
  obtain ⟨rfl, rfl⟩ := List.cons.inj he
  exact h

theorem ne_of_isEnd {c d : Char} (h : isEnd c = true) (hd : isEnd d = false) : c ≠ d := by
  rintro rfl
  rw [h] at hd
  exact Bool.noConfusion hd

theorem isDigit_of_isEnd {c : Char} (h : isEnd c = true) : c.isDigit = false := by
  simp only [isEnd, isSpace, Bool.or_eq_true, decide_eq_true_eq] at h
  rcases h with ((rfl | rfl) | rfl) | ((rfl | rfl) | rfl) | rfl <;> decide

theorem digitAhead_ended {rest : List Char} (h : Ended rest) : digitAhead rest = false := by
  cases rest with
  | nil => rfl
  | cons c s => exact isDigit_of_isEnd (h c s rfl)

theorem le_ofDigitChars (ds : List Char) (n : Nat) : n ≤ Nat.ofDigitChars 10 ds n := by
  induction ds generalizing n with
  | nil => exact Nat.le_refl n
  | cons c ds ih =>
    have h := ih (10 * n + (c.toNat - '0'.toNat))
    rw [Nat.ofDigitChars_cons]
    omega

theorem gather_digits {ds rest : List Char} (hds : ∀ c ∈ ds, c.isDigit = true)
    (hrest : Ended rest) {n : Nat} (h : Nat.ofDigitChars 10 ds n ≤ maxWord) (count : Nat) :
    gather n count (ds ++ rest) = (Nat.ofDigitChars 10 ds n, count + ds.length, rest) := by
  induction ds generalizing n count with
  | nil =>
    cases rest with
    | nil => rfl
    | cons c s =>
      have hc := isDigit_of_isEnd (hrest c s rfl)
      simp [gather, hc]
  | cons c ds ih =>
    have hc := hds c (by simp)
    rw [Nat.ofDigitChars_cons, Nat.mul_comm] at h
    have hle := le_ofDigitChars ds (n * 10 + (c.toNat - '0'.toNat))
    have hnext : ¬ maxWord < n * 10 + (c.toNat - 48) := Nat.not_lt.mpr (hle.trans h)
    have hstep := ih (fun d hd => hds d (by simp [hd])) h (count + 1)
    rw [List.cons_append, gather, if_pos hc, if_neg hnext]
    rw [Nat.ofDigitChars_cons, Nat.mul_comm 10, List.length_cons, Nat.add_comm ds.length,
      ← Nat.add_assoc]
    exact hstep

theorem natDigits_head {n : Nat} (h : 0 < n) :
    ∃ c ds, Decimal.natDigits n = c :: ds ∧ c ≠ '0' := by
  induction n using Nat.strongRecOn with
  | ind n ih =>
    rw [Decimal.natDigits, Nat.toDigits_eq_if (by decide)]
    by_cases hn : n < 10
    · rw [if_pos hn]
      refine ⟨n.digitChar, [], rfl, ?_⟩
      interval_cases n <;> decide
    · obtain ⟨c, ds, hds, hc⟩ := ih (n / 10) (by omega) (by omega)
      rw [if_neg hn]
      exact ⟨c, ds ++ [(n % 10).digitChar], by rw [← List.cons_append, ← hds]; rfl, hc⟩

theorem scanUnsigned_natDigits {n : Nat} (hn : n ≤ maxWord) (negative : Bool)
    {rest : List Char} (hrest : Ended rest) :
    scanUnsigned negative (Decimal.natDigits n ++ rest) = (whole negative n, rest) := by
  have hahead := digitAhead_ended hrest
  have hstop : ∀ d t, isEnd d = false → rest = d :: t → False :=
    fun d t hd he => ne_of_isEnd (hrest d t he) hd rfl
  rcases Nat.eq_zero_or_pos n with rfl | hpos
  · show scanUnsigned negative ('0' :: rest) = _
    rw [scanUnsigned, hahead]
    · rfl
    all_goals
      intro t he
      exact hstop _ t (by decide) he
  · obtain ⟨c, ds, hds, hc⟩ := natDigits_head hpos
    have hdigits : ∀ d ∈ c :: ds, d.isDigit = true := by
      intro d hd
      rw [← hds] at hd
      exact Nat.isDigit_of_mem_toDigits (by decide) (by decide) hd
    have hvalue : Nat.ofDigitChars 10 (c :: ds) 0 = n := by
      rw [← hds]
      exact Nat.ofDigitChars_toDigits (by decide) (by decide)
    have hgather := gather_digits hdigits hrest (hvalue.trans_le hn) 0
    rw [hvalue] at hgather
    have hdigit := hdigits c (by simp)
    rw [hds]
    rw [List.cons_append] at hgather ⊢
    rw [scanUnsigned, if_pos hdigit, hgather]
    · simp only [hahead, Bool.false_eq_true, if_false]
      -- Neither a point nor an exponent can stand where the number has ended.
      split
      · exact (hstop _ _ (by decide) rfl).elim
      · exact (hstop _ _ (by decide) rfl).elim
      · exact (hstop _ _ (by decide) rfl).elim
      · rfl
    · exact hc

def isNumberHead (c : Char) : Bool := c = '-' || c.isDigit

/-- A number that is read back as it was written. -/
structure Number.Readable (n : Number) : Prop where
  head : ∃ c s, n.chars = c :: s ∧ isNumberHead c = true
  scan : ∀ steps rest, Ended rest →
    scanValue (steps + 1) (n.chars ++ rest) = (.number n, some rest)

theorem scanValue_digit {c : Char} (h : c.isDigit = true) (steps : Nat) (s : List Char) :
    scanValue (steps + 1) (c :: s) = readNumber false (c :: s) := by
  have hne : ∀ d : Char, d.isDigit = false → c ≠ d := by
    rintro d hd rfl
    rw [h] at hd
    exact Bool.noConfusion hd
  have hspace : skipSpace (c :: s) = c :: s := by
    have hc : isSpace c = false := by
      simp [isSpace, hne ' ' (by decide), hne '\n' (by decide), hne '\t' (by decide),
        hne '\r' (by decide)]
    simp [skipSpace, hc]
  rw [scanValue, hspace]
  split
  case h_9 he =>
    obtain ⟨rfl, rfl⟩ := List.cons.inj he
    rw [if_pos h]
  case h_1 he => cases he
  all_goals
    rename_i he
    exact absurd (List.cons.inj he).1 (hne _ (by decide))

theorem readable_natural {n : Nat} (h : n ≤ maxWord) : (Number.int n).Readable := by
  have hchars : (Number.int n).chars = Decimal.natDigits n := by
    have hn : ¬ (n : Int) < 0 := by omega
    simp [Number.chars, Decimal.intDigits, hn]
  obtain ⟨c, ds, hds⟩ := List.exists_cons_of_ne_nil (Nat.toDigits_ne_nil (n := n) (b := 10))
  have hc : c.isDigit = true :=
    Nat.isDigit_of_mem_toDigits (b := 10) (n := n) (by decide) (by decide) (by simp [hds])
  rw [← Decimal.natDigits] at hds
  constructor
  · exact ⟨c, ds, hchars.trans hds, by simp [isNumberHead, hc]⟩
  · intro steps rest hrest
    have hscan := scanUnsigned_natDigits h false hrest
    rw [hds] at hscan
    rw [hchars, hds, List.cons_append, scanValue_digit hc, readNumber]
    rw [List.cons_append] at hscan
    rw [hscan]
    rfl

theorem readable_negative {n : Nat} (hpos : 0 < n) (h : n ≤ Decimal.twoTo 63) :
    (Number.int (-(n : Int))).Readable := by
  have hchars : (Number.int (-(n : Int))).chars = '-' :: Decimal.natDigits n := by
    have hn : -(n : Int) < 0 := by omega
    rw [Number.chars, Decimal.intDigits, if_pos hn, Int.natAbs_neg, Int.natAbs_natCast]
  have hword : n ≤ maxWord := h.trans (by decide)
  have hwhole : whole true n = .number (.int (-(n : Int))) := by
    have hzero : n ≠ 0 := by omega
    have hlarge : ¬ Decimal.twoTo 63 < n := by omega
    simp [whole, hzero, hlarge]
  constructor
  · exact ⟨'-', Decimal.natDigits n, hchars, by decide⟩
  · intro steps rest hrest
    have hscan := scanUnsigned_natDigits hword true hrest
    have hvalue : scanValue (steps + 1) ('-' :: (Decimal.natDigits n ++ rest)) =
        readNumber true (Decimal.natDigits n ++ rest) := rfl
    rw [hchars, List.cons_append, hvalue, readNumber, hscan, hwhole]

def FitsWord (i : Int) : Prop := -(Decimal.twoTo 63 : Int) ≤ i ∧ i ≤ maxWord

theorem readable_int {i : Int} (h : FitsWord i) : (Number.int i).Readable := by
  obtain ⟨n, rfl | rfl⟩ := i.eq_nat_or_neg
  · exact readable_natural (Int.ofNat_le.mp h.2)
  · rcases Nat.eq_zero_or_pos n with rfl | hpos
    · exact readable_natural (Nat.zero_le _)
    · exact readable_negative hpos (by have := h.1; omega)

theorem hexValue_hexDigit {n : Nat} (h : n < 16) : hexValue (hexDigit n) = some n := by
  interval_cases n <;> decide

theorem readUnicode_control {c : Char} (h : c.toNat < 0x20) (s : List Char) :
    readUnicode ('0' :: '0' :: hexDigit (c.toNat / 16) :: hexDigit (c.toNat % 16) :: s) =
      .ok (c, s) := by
  have hhigh := hexValue_hexDigit (n := c.toNat / 16) (by omega)
  have hlow := hexValue_hexDigit (n := c.toNat % 16) (by omega)
  have hzero : hexValue '0' = some 0 := by decide
  have hsum : c.toNat / 16 * 16 + c.toNat % 16 = c.toNat := by omega
  have hfour : hexFour ('0' :: '0' :: hexDigit (c.toNat / 16) :: hexDigit (c.toNat % 16) :: s) =
      .ok (c.toNat, s) := by
    simp [hexFour, hhigh, hlow, hzero, hsum]
  have hlone : ¬ 0xDC00 ≤ c.toNat := by omega
  have hpair : c.toNat < 0xD800 := by omega
  simp [readUnicode, hfour, hlone, hpair, bind, Except.bind]

theorem readString_escapeChar (c : Char) (steps : Nat) (read s : List Char) :
    readString (steps + 1) read (escapeChar c ++ s) = readString steps (c :: read) s := by
  unfold escapeChar
  split_ifs with h₁ h₂ h₃ h₄ h₅ h₆ h₇ h₈
  · subst h₁
    rfl
  · subst h₂
    rfl
  · have hcontrol : ¬ c.toNat < 0x20 := by omega
    rw [List.singleton_append, readString, if_neg hcontrol]
    · exact h₁
    · rintro rfl
      exact fun _ => h₂ rfl
    · rintro e t rfl
      exact fun _ => h₂ rfl
  · subst h₄
    rfl
  · subst h₅
    rfl
  · subst h₆
    rfl
  · obtain rfl : c = Char.ofNat 8 := by rw [← h₇, Char.ofNat_toNat]
    rfl
  · obtain rfl : c = Char.ofNat 12 := by rw [← h₈, Char.ofNat_toNat]
    rfl
  · have hunicode := readUnicode_control (c := c) (by omega) s
    simp only [List.cons_append, List.nil_append]
    rw [readString, if_pos rfl, hunicode]

theorem readString_escaped (t : List Char) {steps : Nat} (h : t.length < steps)
    (read s : List Char) :
    readString steps read (t.flatMap escapeChar ++ '"' :: s) =
      .ok (String.ofList (read.reverse ++ t), s) := by
  induction t generalizing steps read with
  | nil =>
    obtain ⟨steps, rfl⟩ := Nat.exists_eq_add_of_lt h
    simp [readString]
  | cons c t ih =>
    cases steps with
    | zero => simp at h
    | succ steps =>
      rw [List.flatMap_cons, List.append_assoc, readString_escapeChar,
        ih (by simpa using h)]
      simp

theorem quoted_append (t : String) (rest : List Char) :
    quoted t ++ rest = '"' :: (t.toList.flatMap escapeChar ++ '"' :: rest) := by
  simp [quoted]

theorem escapeChar_ne_nil (c : Char) : escapeChar c ≠ [] := by
  unfold escapeChar
  split_ifs <;> simp

theorem length_le_escaped (t : List Char) : t.length ≤ (t.flatMap escapeChar).length := by
  induction t with
  | nil => simp
  | cons c t ih =>
    have hc := List.length_pos_iff.mpr (escapeChar_ne_nil c)
    rw [List.flatMap_cons, List.length_append, List.length_cons]
    omega

theorem length_quoted (t : String) : t.toList.length + 2 ≤ (quoted t).length := by
  have h := length_le_escaped t.toList
  simp only [quoted, List.length_cons, List.length_append, List.length_nil]
  omega

theorem readString_quoted (t : String) {steps : Nat} (h : t.toList.length < steps)
    (rest : List Char) :
    readString steps [] (t.toList.flatMap escapeChar ++ '"' :: rest) = .ok (t, rest) := by
  rw [readString_escaped t.toList h]
  simp

end Cardwalk.Json
