import Cardwalk.Proofs.Json.RoundTrip
import Cardwalk.Proofs.Json.Tokens

/-!
# Numbers that are read back

Not every floating-point number is read from its decimal digits as it was
before. Whether one is can be seen from its own text, because what may stand
behind a number in a value does not change how it is read.
-/

set_option autoImplicit false

namespace Cardwalk.Decimal

/-- The characters of numbers, of infinity and of what is no number. -/
def isPlain (c : Char) : Bool := c.isDigit || "-+.einfNa".toList.contains c

def Plain (s : List Char) : Prop := ∀ c ∈ s, isPlain c = true

@[simp] theorem plain_nil : Plain [] := by simp [Plain]

@[simp] theorem plain_cons {c : Char} {s : List Char} :
    Plain (c :: s) ↔ isPlain c = true ∧ Plain s := List.forall_mem_cons

@[simp] theorem plain_append {s t : List Char} : Plain (s ++ t) ↔ Plain s ∧ Plain t :=
  List.forall_mem_append

theorem natDigits_plain (n : Nat) : Plain (natDigits n) := by
  intro c hc
  have hdigit := Nat.isDigit_of_mem_toDigits (by decide) (by decide) hc
  simp [isPlain, hdigit]

theorem intDigits_plain (i : Int) : Plain (intDigits i) := by
  have hdash : isPlain '-' = true := by decide
  unfold intDigits
  split <;> simp [natDigits_plain, hdash]

theorem zeros_plain (n : Nat) : Plain (zeros n) := by
  intro c hc
  rw [List.eq_of_mem_replicate hc]
  decide

theorem scientific_plain {ds : List Char} (h : Plain ds) (leading : Int) :
    Plain (scientific ds leading) := by
  have hpoint : isPlain '.' = true := by decide
  have hletter : isPlain 'e' = true := by decide
  have hsign : Plain (if leading < 0 then [] else ['+']) := by
    have hplus : isPlain '+' = true := by decide
    split <;> simp [hplus]
  unfold scientific
  rcases ds with _ | ⟨d, _ | ⟨e, rest⟩⟩
  · simp [hletter, hsign, intDigits_plain]
  · have hd := plain_cons.mp h
    simp [hd, hletter, hsign, intDigits_plain]
  · have hd := plain_cons.mp h
    simp [hd.1, plain_cons.mp hd.2, hpoint, hletter, hsign, intDigits_plain]

theorem positional_plain {ds : List Char} (h : Plain ds) (point : Bool) (exponent : Int) :
    Plain (positional point ds exponent) := by
  have hpoint : isPlain '.' = true := by decide
  have hzero : isPlain '0' = true := by decide
  have htake : ∀ n, Plain (ds.take n) := fun n c hc => h c (List.mem_of_mem_take hc)
  have hdrop : ∀ n, Plain (ds.drop n) := fun n c hc => h c (List.mem_of_mem_drop hc)
  unfold positional
  dsimp only
  split_ifs <;> simp [h, hpoint, hzero, zeros_plain, htake, hdrop]

theorem write_plain (l : Layout) (d : Numeral) : Plain (l.write d) := by
  unfold Layout.write
  dsimp only
  split_ifs
  · exact positional_plain (natDigits_plain _) _ _
  · exact scientific_plain (natDigits_plain _) _

theorem parts_plain (l : Layout) (p : Parts) : Plain (l.parts p) := by
  have hdash : isPlain '-' = true := by decide
  have hzero : isPlain '0' = true := by decide
  have hpoint : isPlain '.' = true := by decide
  have hletters : isPlain 'i' = true ∧ isPlain 'n' = true ∧ isPlain 'f' = true ∧
      isPlain 'N' = true ∧ isPlain 'a' = true := by decide
  cases p with
  | zero negative =>
    have hend : Plain (if l.point then ['.', '0'] else []) := by
      split <;> simp [hpoint, hzero]
    cases negative <;> simp [Layout.parts, hdash, hzero, hend]
  | finite negative m => cases negative <;> simp [Layout.parts, write_plain, hdash]
  | infinite negative => cases negative <;> simp [Layout.parts, hdash, hletters]
  | notANumber => simp [Layout.parts, hletters]

end Cardwalk.Decimal

namespace Cardwalk.Json

open Decimal (Plain isPlain)

theorem Number.chars_plain (n : Number) : Plain n.chars := by
  cases n with
  | int i => exact Decimal.intDigits_plain i
  | float x => exact Decimal.parts_plain _ _

theorem isSpace_of_isPlain {c : Char} (h : isPlain c = true) : isSpace c = false := by
  apply Bool.eq_false_iff.mpr
  intro hs
  simp only [isSpace, Bool.or_eq_true, decide_eq_true_eq] at hs
  rcases hs with ((rfl | rfl) | rfl) | rfl <;> revert h <;> decide

theorem skipSpace_chars (n : Number) : skipSpace n.chars = n.chars := by
  have hplain := n.chars_plain
  cases hs : n.chars with
  | nil => rfl
  | cons c s =>
    rw [hs] at hplain
    exact skipSpace_cons (isSpace_of_isPlain (hplain c (by simp))) s

/-- The text of the number is read as the number, to its end. -/
def Number.ReadsBack (n : Number) : Prop := scan n.chars = (.number n, some [])

deriving instance DecidableEq for Number

def Number.readsBack (n : Number) : Bool :=
  match scan n.chars with
  | (.number m, some []) => m = n
  | _ => false

theorem Number.readsBack_iff (n : Number) : n.readsBack = true ↔ n.ReadsBack := by
  unfold Number.readsBack Number.ReadsBack
  split
  · rename_i m hs
    rw [hs]
    simp
  · rename_i hs
    simpa using hs n

instance (n : Number) : Decidable n.ReadsBack := decidable_of_iff _ n.readsBack_iff

theorem quiet_of_ended {rest : List Char} (h : Ended rest) : Quiet rest := by
  intro c t he
  have hc := h c t he
  simp only [isEnd, isSpace, Bool.or_eq_true, decide_eq_true_eq] at hc
  rcases hc with ((rfl | rfl) | rfl) | ((rfl | rfl) | rfl) | rfl <;> decide

theorem readWord_ne_number {whole : Doc} {w s : List Char} {n : Number}
    {rest : Option (List Char)} (hw : ∀ m, whole ≠ .number m) :
    readWord whole w s ≠ (.number n, rest) := by
  intro h
  obtain hwhole | ⟨f, hstop⟩ := readWord_outcome whole w s
  · rw [h] at hwhole
    exact hw n hwhole.symm
  · rw [h] at hstop
    cases hstop

theorem readText_ne_number {steps : Nat} {s : List Char} {n : Number}
    {rest : Option (List Char)} : readText steps s ≠ (.number n, rest) := by
  unfold readText
  split
  · simp
  · split <;> simp

theorem scanValue_number {steps : Nat} {s rest : List Char} {n : Number}
    (hs : skipSpace s = s) (h : scanValue (steps + 1) s = (.number n, some rest)) :
    (∃ t, s = '-' :: t ∧ readNumber true t = (.number n, some rest)) ∨
      ∃ c t, s = c :: t ∧ c.isDigit = true ∧
        readNumber false (c :: t) = (.number n, some rest) := by
  unfold scanValue at h
  rw [hs] at h
  split at h
  case h_1 => cases h
  case h_2 => exact absurd h (readWord_ne_number (by simp))
  case h_3 => exact absurd h (readWord_ne_number (by simp))
  case h_4 => exact absurd h (readWord_ne_number (by simp))
  case h_5 t => exact .inl ⟨t, rfl, h⟩
  case h_6 => exact absurd h readText_ne_number
  case h_7 => cases h
  case h_8 => cases h
  case h_9 c t _ _ _ _ _ _ _ =>
    split_ifs at h with hc
    · exact .inr ⟨c, t, rfl, hc, h⟩
    · cases h

theorem Number.ReadsBack.readable {n : Number} (h : n.ReadsBack) : n.Readable := by
  obtain ⟨t, ht, hread⟩ | ⟨c, t, ht, hc, hread⟩ := scanValue_number (skipSpace_chars n) h
  · constructor
    · exact ⟨'-', t, ht, by decide⟩
    · intro steps rest hrest
      rw [ht]
      exact readNumber_quiet (quiet_of_ended hrest) hread
  · constructor
    · exact ⟨c, t, ht, by simp [isNumberHead, hc]⟩
    · intro steps rest hrest
      rw [ht, List.cons_append, scanValue_digit hc]
      exact readNumber_quiet (quiet_of_ended hrest) hread

def ReadsBack : Json → Prop
  | .number n => n.ReadsBack
  | _ => True

theorem readable_of_readsBack {v : Json} (h : Every ReadsBack v) : Every Readable v := by
  intro u hu
  have hnumber := h u hu
  cases u with
  | number n => exact hnumber.readable
  | _ => trivial

end Cardwalk.Json
