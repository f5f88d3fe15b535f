import Mathlib.Data.List.TakeWhile
import Cardwalk.Text.Replace

/-!
# Patterns

A pattern is a row of words and runs of characters. It is matched by
backtracking: the ways of a part are tried in their order of preference, and
the first that lets the rest of the pattern match is taken. A search takes the
leftmost place where the pattern matches. So the first match is the one of
highest preference at the leftmost place.
-/

set_option autoImplicit false

namespace Cardwalk.Text

/-- A word, a run of characters of a class that is as long as possible and at
least so long, or one that is as short as possible. -/
inductive Part where
  | word (w : List Char)
  | greedy (least : Nat) (p : Char → Bool)
  | reluctant (p : Char → Bool)

def runs (p : Char → Bool) : List Char → List (List Char × List Char)
  | [] => [([], [])]
  | c :: s =>
    if p c then (runs p s).map (fun way => (c :: way.1, way.2)) ++ [([], c :: s)]
    else [([], c :: s)]

def Part.ways : Part → List Char → List (List Char × List Char)
  | .word w, s => if startsWith w s then [(w, s.drop w.length)] else []
  | .greedy least p, s => (runs p s).filter fun way => least ≤ way.1.length
  | .reluctant p, s => (runs p s).reverse

/-- The texts of the parts, for the preferred way in which the pattern matches
the head of a text. -/
def matchHead : List Part → List Char → Option (List (List Char))
  | [], _ => some []
  | part :: parts, s =>
    (part.ways s).findSome? fun way => (matchHead parts way.2).map (way.1 :: ·)

def search (parts : List Part) : List Char → Option (List Char × List (List Char))
  | [] => (matchHead parts []).map fun texts => ([], texts)
  | c :: s =>
    match matchHead parts (c :: s) with
    | some texts => some ([], texts)
    | none => (search parts s).map fun found => (c :: found.1, found.2)

section Runs

variable {β : Type} {p : Char → Bool}

theorem findSome?_runs_cons (f : List Char × List Char → Option β) (c : Char) (s : List Char) :
    (runs p (c :: s)).findSome? f =
      if p c then ((runs p s).findSome? fun way => f (c :: way.1, way.2)).or (f ([], c :: s))
      else f ([], c :: s) := by
  rw [runs]
  split
  · simp [List.findSome?_append, List.findSome?_map, Function.comp_def]
  · simp

theorem findSome?_filter {α : Type} (q : α → Bool) (f : α → Option β) (l : List α) :
    (l.filter q).findSome? f = l.findSome? fun a => if q a then f a else none := by
  induction l with
  | nil => rfl
  | cons a l ih =>
    by_cases ha : q a = true
    · rw [List.filter_cons_of_pos ha, List.findSome?_cons, List.findSome?_cons, if_pos ha, ih]
    · rw [List.filter_cons_of_neg ha, List.findSome?_cons, if_neg ha, ih]

theorem findSome?_runs {f : List Char × List Char → Option β}
    (h : ∀ w c s, p c = true → f (w, c :: s) = none) (s : List Char) :
    (runs p s).findSome? f = f (s.takeWhile p, s.dropWhile p) := by
  induction s generalizing f with
  | nil => simp [runs]
  | cons c s ih =>
    rw [findSome?_runs_cons]
    by_cases hc : p c = true
    · have hmore := ih (f := fun way => f (c :: way.1, way.2)) fun w d t => h (c :: w) d t
      rw [if_pos hc, hmore, h [] c s hc, Option.or_none, List.takeWhile_cons_of_pos hc,
        List.dropWhile_cons_of_pos hc]
    · rw [if_neg hc, List.takeWhile_cons_of_neg hc, List.dropWhile_cons_of_neg hc]

end Runs

section Matches

variable {parts : List Part}

theorem matchHead_word (w : List Char) (parts : List Part) (s : List Char) :
    matchHead (.word w :: parts) s =
      if startsWith w s then (matchHead parts (s.drop w.length)).map (w :: ·) else none := by
  rw [matchHead, Part.ways]
  split
  · simp
  · simp

/-- A run is as long as it can be if the rest of the pattern does not begin
with one of its characters. -/
theorem matchHead_greedy {p : Char → Bool}
    (h : ∀ c s, p c = true → matchHead parts (c :: s) = none) (least : Nat) (s : List Char) :
    matchHead (.greedy least p :: parts) s =
      if least ≤ (s.takeWhile p).length then
        (matchHead parts (s.dropWhile p)).map (s.takeWhile p :: ·)
      else none := by
  rw [matchHead, Part.ways, findSome?_filter, findSome?_runs]
  · simp only [decide_eq_true_eq]
  · intro w c t hc
    simp only [h c t hc, Option.map_none, ite_self]

def lengthen (c : Char) : List (List Char) → List (List Char)
  | [] => []
  | w :: texts => (c :: w) :: texts

theorem findSome?_lengthen (c : Char) (l : List (List Char × List Char)) :
    (l.findSome? fun way => (matchHead parts way.2).map ((c :: way.1) :: ·)) =
      (l.findSome? fun way => (matchHead parts way.2).map (way.1 :: ·)).map (lengthen c) := by
  rw [List.map_findSome?]
  congr 1
  funext way
  simp only [Function.comp_apply, Option.map_map]
  rfl

theorem matchHead_greedy_cons (p : Char → Bool) (c : Char) (s : List Char) :
    matchHead (.greedy 0 p :: parts) (c :: s) =
      if p c then
        ((matchHead (.greedy 0 p :: parts) s).map (lengthen c)).or
          ((matchHead parts (c :: s)).map ([] :: ·))
      else (matchHead parts (c :: s)).map ([] :: ·) := by
  have hways : ∀ s, (Part.greedy 0 p).ways s = runs p s := by simp [Part.ways]
  rw [matchHead, matchHead, hways, hways, findSome?_runs_cons, findSome?_lengthen]

theorem matchHead_reluctant_cons (p : Char → Bool) (c : Char) (s : List Char) :
    matchHead (.reluctant p :: parts) (c :: s) =
      ((matchHead parts (c :: s)).map ([] :: ·)).or
        (if p c then (matchHead (.reluctant p :: parts) s).map (lengthen c) else none) := by
  rw [matchHead, matchHead, Part.ways, Part.ways, runs]
  split
  · rw [List.reverse_append, List.findSome?_append, ← List.map_reverse, List.findSome?_map,
      ← findSome?_lengthen]
    simp [Function.comp_def]
  · simp

end Matches

end Cardwalk.Text
