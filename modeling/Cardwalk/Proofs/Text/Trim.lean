import Mathlib.Data.List.TakeWhile
import Cardwalk.Text.Blank

/-!
# What trimming takes off

A text is what trimming leaves of it between two runs of blanks.
-/

set_option autoImplicit false

namespace Cardwalk.Text

def leading (s : List Char) : List Char := s.takeWhile isBlank

/-- The blanks at the end of a text, unless it is all blank. -/
def trailing (s : List Char) : List Char := ((trimStart s).reverse.takeWhile isBlank).reverse

theorem isBlank_of_mem_leading {s : List Char} {c : Char} (h : c ∈ leading s) :
    isBlank c = true :=
  List.mem_takeWhile_imp h

theorem isBlank_of_mem_trailing {s : List Char} {c : Char} (h : c ∈ trailing s) :
    isBlank c = true :=
  List.mem_takeWhile_imp (List.mem_reverse.mp h)

theorem trim_trailing (s : List Char) : trim s ++ trailing s = trimStart s := by
  rw [trim, trimEnd, trailing, ← List.reverse_append, List.takeWhile_append_dropWhile,
    List.reverse_reverse]

theorem leading_trim_trailing (s : List Char) : leading s ++ trim s ++ trailing s = s := by
  rw [List.append_assoc, trim_trailing]
  exact List.takeWhile_append_dropWhile

theorem isBlank_of_trim {s t : List Char} {c : Char} (h : trim s = c :: t) :
    isBlank c = false := by
  have hstart := trim_trailing s
  have hhead := List.head?_dropWhile_not isBlank s
  rw [← trimStart, ← hstart, h] at hhead
  simpa using hhead

theorem trim_cons {c : Char} (hc : isBlank c = false) (s : List Char) :
    ∃ t, trim (c :: s) = c :: t := by
  have hstart := trim_trailing (c :: s)
  rw [trimStart_of_not_isBlank hc] at hstart
  cases ht : trim (c :: s) with
  | nil =>
    rw [ht, List.nil_append] at hstart
    have hblank := isBlank_of_mem_trailing (s := c :: s) (hstart ▸ List.mem_cons_self)
    rw [hc] at hblank
    exact Bool.noConfusion hblank
  | cons d t =>
    rw [ht] at hstart
    exact ⟨t, by rw [(List.cons.inj hstart).1]⟩

end Cardwalk.Text
