/-!
# Pieces of a text

Replacing every occurrence of a piece, joining and splitting.  An
occurrence is found from the left, and occurrences do not overlap: after a
match the search goes on behind it, never inside the replacement.
-/

set_option autoImplicit false

namespace Cardwalk.Text

def startsWith : List Char → List Char → Bool
  | [], _ => true
  | _ :: _, [] => false
  | p :: piece, c :: s => p == c && startsWith piece s

def occurs (piece : List Char) : List Char → Bool
  | [] => piece.isEmpty
  | c :: s => startsWith piece (c :: s) || occurs piece s

/-- The replacement loop; the number counts the characters of the current
match that are still to be dropped. -/
def replaceFrom (piece value : List Char) : Nat → List Char → List Char
  | _, [] => []
  | k + 1, _ :: s => replaceFrom piece value k s
  | 0, c :: s =>
    if startsWith piece (c :: s) then
      value ++ replaceFrom piece value (piece.length - 1) s
    else
      c :: replaceFrom piece value 0 s

def replace (piece value s : List Char) : List Char := replaceFrom piece value 0 s

def replaceChar (c : Char) (value s : List Char) : List Char :=
  s.flatMap fun d => if d = c then value else [d]

def splitAt (c : Char) : List Char → List (List Char)
  | [] => [[]]
  | d :: s =>
    if d = c then [] :: splitAt c s
    else
      match splitAt c s with
      | [] => [[d]]
      | piece :: rest => (d :: piece) :: rest

def joinWith (between : List Char) : List (List Char) → List Char
  | [] => []
  | [piece] => piece
  | piece :: next :: rest => piece ++ between ++ joinWith between (next :: rest)

theorem splitAt_ne_nil (c : Char) (s : List Char) : splitAt c s ≠ [] := by
  cases s with
  | nil => simp [splitAt]
  | cons d s =>
    unfold splitAt
    split
    · simp
    · split <;> simp

theorem joinWith_splitAt (c : Char) (s : List Char) :
    joinWith [c] (splitAt c s) = s := by
  induction s with
  | nil => rfl
  | cons d s ih =>
    unfold splitAt
    split
    · rename_i h
      subst h
      cases hs : splitAt d s with
      | nil => exact absurd hs (splitAt_ne_nil d s)
      | cons piece rest =>
        rw [hs] at ih
        exact congrArg (d :: ·) ih
    · cases hs : splitAt c s with
      | nil => exact absurd hs (splitAt_ne_nil c s)
      | cons piece rest =>
        rw [hs] at ih
        cases rest with
        | nil => exact congrArg (d :: ·) ih
        | cons next rest =>
          have h : (d :: piece) ++ [c] ++ joinWith [c] (next :: rest) = d :: s :=
            congrArg (d :: ·) ih
          exact h

theorem startsWith_append (piece s : List Char) :
    startsWith piece (piece ++ s) = true := by
  induction piece with
  | nil => rfl
  | cons p piece ih => simp [startsWith, ih]

theorem startsWith_iff {piece s : List Char} :
    startsWith piece s = true ↔ ∃ rest, s = piece ++ rest := by
  induction piece generalizing s with
  | nil => simp [startsWith]
  | cons p piece ih =>
    cases s with
    | nil => simp [startsWith]
    | cons c s =>
      simp only [startsWith, Bool.and_eq_true, beq_iff_eq, ih, List.cons_append,
        List.cons.injEq]
      constructor
      · rintro ⟨rfl, rest, h⟩
        exact ⟨rest, rfl, h⟩
      · rintro ⟨rest, rfl, h⟩
        exact ⟨rfl, rest, h⟩

end Cardwalk.Text
