import Cardwalk.Proofs.Placeholder.Stripping
import Cardwalk.Proofs.Text.Pattern

/-!
# What the last pass takes out

The last pass takes out pieces between double braces that stand on one line,
and nothing else: each is the leftmost and shortest match behind the one before.
Although characters come together where a piece stood, no such piece is left,
so a second pass would find nothing.
-/

set_option autoImplicit false

namespace Cardwalk.Placeholder

open Text (Part matchHead search)

/-- Pieces between double braces on one line are taken out of the first text;
the second is what remains, in its order. -/
inductive Thinned : List Char → List Char → Prop
  | nil : Thinned [] []
  | keep (c : Char) {s t : List Char} (h : Thinned s t) : Thinned (c :: s) (c :: t)
  | drop {w s t : List Char} (hw : '\n' ∉ w) (h : Thinned s t) : Thinned (token w ++ s) t

/-- A piece between double braces, as short as it can be. -/
def closing : List Part := [.reluctant (· ≠ '\n'), .word ['}', '}']]

def braces : List Part := .word ['{', '{'] :: closing

theorem closingAt_inv {t : List Char} {n : Nat} (h : closingAt t = some n) :
    ∃ w rest, t = w ++ '}' :: '}' :: rest ∧ '\n' ∉ w ∧ n = w.length + 2 := by
  fun_induction closingAt t generalizing n with
  | case1 => cases h
  | case2 s =>
    cases h
    exact ⟨[], s, rfl, List.not_mem_nil, rfl⟩
  | case3 s hx => cases h
  | case4 c s hx hc ih =>
    obtain ⟨m, hm, rfl⟩ := Option.map_eq_some_iff.mp h
    obtain ⟨w, rest, rfl, hw, rfl⟩ := ih hm
    refine ⟨c :: w, rest, rfl, ?_, rfl⟩
    rw [List.mem_cons, not_or]
    exact ⟨Ne.symm hc, hw⟩

theorem matchHead_closing (t : List Char) :
    matchHead closing t = (closingAt t).map fun n => [t.take (n - 2), ['}', '}']] := by
  fun_induction closingAt t with
  | case1 => rfl
  | case2 s =>
    rw [closing, Text.matchHead_reluctant_cons]
    rfl
  | case3 s hx => rfl
  | case4 c s hx hc ih =>
    have hno : Text.startsWith ['}', '}'] (c :: s) = false := by
      refine Bool.eq_false_iff.mpr fun hs => ?_
      obtain ⟨rest, hrest⟩ := Text.startsWith_iff.mp hs
      obtain ⟨rfl, rfl⟩ := List.cons.inj hrest
      exact hx rest rfl rfl
    have hclass : decide (c ≠ '\n') = true := by simpa using hc
    rw [closing] at ih ⊢
    rw [Text.matchHead_reluctant_cons, Text.matchHead_word, hno, hclass, ih]
    cases hn : closingAt s with
    | none => rfl
    | some n =>
      obtain ⟨w, rest, rfl, -, rfl⟩ := closingAt_inv hn
      simp [Text.lengthen]

theorem matchHead_open (t : List Char) :
    matchHead braces ('{' :: '{' :: t) =
      (closingAt t).map fun n => [['{', '{'], t.take (n - 2), ['}', '}']] := by
  have hs : Text.startsWith ['{', '{'] ('{' :: '{' :: t) = true :=
    Text.startsWith_append ['{', '{'] t
  rw [braces, Text.matchHead_word, if_pos hs]
  change (matchHead closing t).map _ = _
  rw [matchHead_closing, Option.map_map]
  rfl

theorem matchHead_unclosed {c : Char} {s : List Char}
    (h : ∀ t, c = '{' → s = '{' :: t → closingAt t = none) :
    matchHead braces (c :: s) = none := by
  by_cases hopen : ∃ t, c = '{' ∧ s = '{' :: t
  · obtain ⟨t, rfl, rfl⟩ := hopen
    rw [matchHead_open, h t rfl rfl]
    rfl
  · rw [braces, Text.matchHead_word, if_neg]
    intro hs
    obtain ⟨t, ht⟩ := Text.startsWith_iff.mp hs
    obtain ⟨rfl, rfl⟩ := List.cons.inj ht
    exact hopen ⟨t, rfl, rfl⟩

theorem stripFrom_eq_drop (k : Nat) (s : List Char) : stripFrom k s = strip (s.drop k) := by
  induction s generalizing k with
  | nil => simp [strip, stripFrom]
  | cons c s ih =>
    cases k with
    | zero => rfl
    | succ k => exact ih k

theorem thinned_stripFrom (k : Nat) (s : List Char) : Thinned (s.drop k) (stripFrom k s) := by
  fun_induction stripFrom k s with
  | case1 k => simpa using Thinned.nil
  | case2 k c s ih => exact ih
  | case3 t n hn ih =>
    obtain ⟨w, rest, rfl, hw, rfl⟩ := closingAt_inv hn
    have htoken : '{' :: '{' :: (w ++ '}' :: '}' :: rest) = token w ++ rest := by simp [token]
    have hrest : ('{' :: (w ++ '}' :: '}' :: rest)).drop (w.length + 2 + 1) = rest := by simp
    rw [hrest] at ih
    rw [List.drop_zero, htoken]
    exact .drop hw ih
  | case4 t hn ih => exact .keep _ ih
  | case5 c s hx ih => exact .keep _ ih

theorem thinned_strip (s : List Char) : Thinned s (strip s) := thinned_stripFrom 0 s

theorem Thinned.count_newline {s t : List Char} (h : Thinned s t) :
    t.count '\n' = s.count '\n' := by
  induction h with
  | nil => rfl
  | keep c h ih => simp [List.count_cons, ih]
  | @drop w s t hw h ih =>
    have hnone : (token w).count '\n' = 0 := by
      rw [List.count_eq_zero]
      simp [token, hw]
    rw [List.count_append, hnone, Nat.zero_add, ih]

theorem strip_search (s : List Char) :
    strip s =
      match search braces s with
      | none => s
      | some (before, texts) =>
        before ++ strip (s.drop (before.length + texts.flatten.length)) := by
  induction s with
  | nil => rfl
  | cons c s ih =>
    rw [search]
    -- Only two braces that are closed on their line make a match at the head.
    by_cases hopen : ∃ t n, c = '{' ∧ s = '{' :: t ∧ closingAt t = some n
    · obtain ⟨t, n, rfl, rfl, hn⟩ := hopen
      rw [matchHead_open, hn, strip, stripFrom, hn]
      obtain ⟨w, rest, rfl, -, rfl⟩ := closingAt_inv hn
      simp [stripFrom_eq_drop]
    · have hno : ∀ t, c = '{' → s = '{' :: t → closingAt t = none := fun t hc hs =>
        Option.eq_none_iff_forall_ne_some.mpr fun n hn => hopen ⟨t, n, hc, hs, hn⟩
      have hstep : strip (c :: s) = c :: strip s := stripFrom_cons hno
      rw [matchHead_unclosed hno, hstep, ih]
      cases search braces s with
      | none => rfl
      | some found => simp [Nat.add_right_comm]

theorem strip_of_stripped {s : List Char} (h : Stripped s) : strip s = s := by
  induction s with
  | nil => rfl
  | cons c s ih =>
    have hs : Stripped s := fun t ht => h t (ht.trans (List.suffix_cons c s))
    have hopen : ∀ t, c = '{' → s = '{' :: t → closingAt t = none := by
      rintro t rfl rfl
      exact h t List.suffix_rfl
    rw [strip, stripFrom_cons hopen]
    exact congrArg (c :: ·) (ih hs)

structure Removal (s t : List Char) : Prop where
  thinned : Thinned s t
  lines : t.count '\n' = s.count '\n'
  clear : Clear t
  again : strip t = t
  /-- The pieces are those that backtracking finds. -/
  search_eq : t = match search braces s with
    | none => s
    | some (before, texts) => before ++ strip (s.drop (before.length + texts.flatten.length))

theorem removal_strip (s : List Char) : Removal s (strip s) where
  thinned := thinned_strip s
  lines := (thinned_strip s).count_newline
  clear := (stripped_strip s).clear
  again := strip_of_stripped (stripped_strip s)
  search_eq := strip_search s

theorem clear_ofList_strip (s : List Char) : Clear (String.ofList (strip s)).toList := by
  rw [String.toList_ofList]
  exact (removal_strip s).clear

/-- One pass takes out every piece, so none is left in a text that a card makes
use of. -/
theorem one_pass_clears :
    (∀ s, Removal s (strip s)) ∧
    ∀ (previous : Option Envelope) (bindings : List Binding) (template : String),
      Clear (resolve previous bindings template).toList ∧
      Clear (resolvePrompt template previous).toList ∧
      Clear (fill template previous).toList :=
  ⟨removal_strip, fun _ _ _ =>
    ⟨clear_ofList_strip _, clear_ofList_strip _, clear_ofList_strip _⟩⟩

/-- A brace in front of a piece goes with it, one behind it stays, and so does a
piece with a line break. -/
example : strip (['{'] ++ token ['a'] ++ ['}'] ++ token ['\n']) = ['}'] ++ token ['\n'] := by
  decide

end Cardwalk.Placeholder
