import Mathlib.Data.List.Induction
import Cardwalk.Retrieval.Chunk

/-!
# Chunks cover their text

The chunks of a text overlap and give the text back when what they repeat is
dropped. Each chunk but the last has the usual length or ends, a little
behind it, with the last sentence that ends there.
-/

set_option autoImplicit false

namespace Cardwalk.Chunk

theorem throughLastSeparator_nil : throughLastSeparator [] = 0 := rfl

theorem throughLastSeparator_snoc (w : List Char) (c : Char) :
    throughLastSeparator (w ++ [c]) =
      if isSeparator c then w.length + 1 else throughLastSeparator w := by
  by_cases hc : isSeparator c = true
  · simp [throughLastSeparator, hc]
  · simp [throughLastSeparator, hc]

theorem throughLastSeparator_le (w : List Char) : throughLastSeparator w ≤ w.length := by
  induction w using List.reverseRecOn with
  | nil => exact Nat.le_refl 0
  | append_singleton w c ih =>
    rw [throughLastSeparator_snoc, List.length_append, List.length_singleton]
    split
    · omega
    · omega

def Unbroken (w : List Char) : Prop := ∀ c ∈ w, isSeparator c = false

theorem throughLastSeparator_cases (w : List Char) :
    (Unbroken w ∧ throughLastSeparator w = 0) ∨
      ∃ u c v, w = u ++ c :: v ∧ isSeparator c = true ∧ Unbroken v ∧
        throughLastSeparator w = u.length + 1 := by
  induction w using List.reverseRecOn with
  | nil =>
    left
    exact ⟨by simp [Unbroken], throughLastSeparator_nil⟩
  | append_singleton w c ih =>
    rw [throughLastSeparator_snoc]
    by_cases hc : isSeparator c = true
    · right
      exact ⟨w, c, [], rfl, hc, by simp [Unbroken], if_pos hc⟩
    · rw [if_neg hc]
      have hfalse : isSeparator c = false := by simpa using hc
      rcases ih with ⟨hw, h0⟩ | ⟨u, d, v, rfl, hd, hv, hn⟩
      · left
        refine ⟨?_, h0⟩
        intro x hx
        rcases List.mem_append.mp hx with hx | hx
        · exact hw x hx
        · rw [List.mem_singleton.mp hx, hfalse]
      · right
        refine ⟨u, d, v ++ [c], by simp, hd, ?_, hn⟩
        intro x hx
        rcases List.mem_append.mp hx with hx | hx
        · exact hv x hx
        · rw [List.mem_singleton.mp hx, hfalse]

def window (s : List Char) : List Char := (s.drop size).take overlap

theorem window_length_le (s : List Char) : (window s).length ≤ overlap ∧
    (window s).length ≤ s.length - size := by
  rw [window, List.length_take, List.length_drop]
  omega

theorem headLength_short {s : List Char} (h : s.length ≤ size) : headLength s = s.length :=
  if_pos h

theorem headLength_long {s : List Char} (h : size < s.length) :
    headLength s = size + throughLastSeparator (window s) :=
  if_neg (by omega)

theorem headLength_bounds {s : List Char} (h : size < s.length) :
    size ≤ headLength s ∧ headLength s ≤ size + overlap ∧ headLength s ≤ s.length := by
  have hle := throughLastSeparator_le (window s)
  have hw := window_length_le s
  rw [headLength_long h]
  omega

theorem headLength_le (s : List Char) :
    headLength s ≤ size + overlap ∧ headLength s ≤ s.length := by
  by_cases h : s.length ≤ size
  · rw [headLength_short h]
    omega
  · have hb := headLength_bounds (s := s) (by omega)
    omega

theorem headLength_pos {s : List Char} (h : s ≠ []) : 1 ≤ headLength s := by
  have hpos := List.length_pos_iff.mpr h
  by_cases hs : s.length ≤ size
  · rw [headLength_short hs]
    omega
  · have hb := headLength_bounds (s := s) (by omega)
    have h2 : size = 500 := rfl
    omega

theorem size_lt_of_headLength_lt {s : List Char} (h : headLength s < s.length) :
    size < s.length := by
  by_cases hs : s.length ≤ size
  · rw [headLength_short hs] at h
    omega
  · omega

/-- The chunk at the head of a text that goes on has the usual length, or it
ends right behind the last separator of the window. -/
def EndsWell (s c : List Char) : Prop :=
  (Unbroken (window s) ∧ c = s.take size) ∨
    ∃ u x v, window s = u ++ x :: v ∧ isSeparator x = true ∧ Unbroken v ∧
      c = s.take size ++ u ++ [x]

theorem take_size_window (s : List Char) {u v : List Char} (h : window s = u ++ v) :
    s.take (size + u.length) = s.take size ++ u := by
  have hu : (s.drop size).take u.length = u := by
    have hle : u.length ≤ overlap := by
      have hw := (window_length_le s).1
      rw [h, List.length_append] at hw
      omega
    calc (s.drop size).take u.length
        = (window s).take u.length := by rw [window, List.take_take, Nat.min_eq_left hle]
      _ = u := by rw [h, List.take_left]
  rw [List.take_add, hu]

theorem endsWell_head {s : List Char} (h : size < s.length) :
    EndsWell s (s.take (headLength s)) := by
  rw [headLength_long h]
  rcases throughLastSeparator_cases (window s) with ⟨hw, h0⟩ | ⟨u, x, v, hw, hx, hv, hn⟩
  · left
    exact ⟨hw, by rw [h0, Nat.add_zero]⟩
  · right
    refine ⟨u, x, v, hw, hx, hv, ?_⟩
    have hsplit : window s = (u ++ [x]) ++ v := by simp [hw]
    have htake := take_size_window s hsplit
    rw [List.length_append, List.length_singleton] at htake
    rw [hn, htake, List.append_assoc]

theorem headLength_usual {s : List Char} (h : size < s.length) :
    headLength s = size ↔ Unbroken (window s) := by
  rw [headLength_long h]
  rcases throughLastSeparator_cases (window s) with ⟨hw, h0⟩ | ⟨u, x, v, hw, hx, hv, hn⟩
  · exact iff_of_true (by omega) hw
  · apply iff_of_false
    · omega
    · intro hunbroken
      have hmem : x ∈ window s := by simp [hw]
      rw [hunbroken x hmem] at hx
      exact absurd hx (by decide)

theorem cut_nil (steps : Nat) : cut steps [] = [] := by
  cases steps with
  | zero => rfl
  | succ steps => rfl

theorem cut_last (steps : Nat) {s : List Char} (hs : s ≠ []) (h : s.length ≤ headLength s) :
    cut (steps + 1) s = [s] := by
  rw [cut]
  · exact if_pos h
  · exact hs

theorem cut_more (steps : Nat) {s : List Char} (h : headLength s < s.length) :
    cut (steps + 1) s =
      s.take (headLength s) :: cut steps (s.drop (headLength s - overlap)) := by
  rw [cut]
  · exact if_neg (by omega)
  · rintro rfl
    exact absurd h (by simp)

theorem rest_length {s : List Char} (h : headLength s < s.length) :
    overlap < (s.drop (headLength s - overlap)).length ∧
      (s.drop (headLength s - overlap)).length < s.length := by
  have hb := headLength_bounds (size_lt_of_headLength_lt h)
  have h1 : overlap = 100 := rfl
  have h2 : size = 500 := rfl
  rw [List.length_drop]
  omega

/-- The length of the text is enough: the cutter comes to the end of it. -/
theorem cut_steps (steps : Nat) (s : List Char) (h : s.length < steps) :
    cut (steps + 1) s = cut steps s := by
  induction steps generalizing s with
  | zero => omega
  | succ steps ih =>
    by_cases hs : s = []
    · subst hs
      rw [cut_nil, cut_nil]
    · by_cases hlast : s.length ≤ headLength s
      · rw [cut_last _ hs hlast, cut_last _ hs hlast]
      · have hmore : headLength s < s.length := by omega
        have hrest := rest_length hmore
        rw [cut_more _ hmore, cut_more _ hmore, ih _ (by omega)]

theorem cut_of_lt {steps : Nat} {s : List Char} (h : s.length < steps) :
    cut steps s = ofText s := by
  induction steps with
  | zero => omega
  | succ steps ih =>
    by_cases hs : s.length < steps
    · rw [cut_steps steps s hs, ih hs]
    · have he : steps = s.length := by omega
      rw [he, ofText]

theorem ofText_nil : ofText [] = [] := rfl

theorem ofText_last {s : List Char} (hs : s ≠ []) (h : s.length ≤ headLength s) :
    ofText s = [s] :=
  cut_last s.length hs h

theorem ofText_more {s : List Char} (h : headLength s < s.length) :
    ofText s = s.take (headLength s) :: ofText (s.drop (headLength s - overlap)) := by
  rw [ofText, cut_more _ h, cut_of_lt (rest_length h).2]

theorem ofText_induction {motive : List Char → List (List Char) → Prop}
    (nil : motive [] [])
    (last : ∀ s, s ≠ [] → s.length ≤ headLength s → motive s [s])
    (more : ∀ s, headLength s < s.length →
      motive (s.drop (headLength s - overlap)) (ofText (s.drop (headLength s - overlap))) →
      motive s (s.take (headLength s) :: ofText (s.drop (headLength s - overlap))))
    (s : List Char) : motive s (ofText s) := by
  induction hn : s.length using Nat.strongRecOn generalizing s with
  | ind n ih =>
    by_cases hs : s = []
    · subst hs
      exact nil
    · by_cases hlast : s.length ≤ headLength s
      · rw [ofText_last hs hlast]
        exact last s hs hlast
      · have hmore : headLength s < s.length := by omega
        rw [ofText_more hmore]
        apply more s hmore
        exact ih _ (by rw [← hn]; exact (rest_length hmore).2) _ rfl

theorem ofText_eq_nil_iff (s : List Char) : ofText s = [] ↔ s = [] := by
  induction s using ofText_induction with
  | nil => simp
  | last s hs h => simp [hs]
  | more s h ih =>
    have hs : s ≠ [] := by
      rintro rfl
      exact absurd h (by simp)
    simp [hs]

theorem overlap_lt_headLength {s : List Char} (h : overlap < s.length) :
    overlap < headLength s := by
  have h1 : overlap = 100 := rfl
  have h2 : size = 500 := rfl
  by_cases hs : s.length ≤ size
  · rw [headLength_short hs]
    exact h
  · have hb := headLength_bounds (s := s) (by omega)
    omega

theorem ofText_head {s c : List Char} {rest : List (List Char)} (h : ofText s = c :: rest) :
    c = s.take (headLength s) := by
  by_cases hs : s = []
  · rw [hs, ofText_nil] at h
    exact absurd h (by simp)
  · by_cases hlast : s.length ≤ headLength s
    · rw [ofText_last hs hlast] at h
      rw [List.take_of_length_le hlast]
      exact (List.cons.inj h).1.symm
    · rw [ofText_more (by omega)] at h
      exact (List.cons.inj h).1.symm

theorem length_of_head {s c : List Char} {rest : List (List Char)} (h : ofText s = c :: rest) :
    c.length = headLength s := by
  rw [ofText_head h, List.length_take, Nat.min_eq_left (headLength_le s).2]

theorem ofText_tail {s c d : List Char} {rest : List (List Char)}
    (h : ofText s = c :: d :: rest) :
    headLength s < s.length ∧ ofText (s.drop (c.length - overlap)) = d :: rest := by
  have hs : s ≠ [] := by
    rintro rfl
    exact absurd h (by simp [ofText_nil])
  have hmore : headLength s < s.length := by
    by_contra hlast
    rw [ofText_last hs (by omega)] at h
    exact absurd h (by simp)
  have hlength := length_of_head h
  rw [ofText_more hmore] at h
  refine ⟨hmore, ?_⟩
  rw [hlength]
  exact (List.cons.inj h).2

/-- Chunks put together: what each repeats of the one before is dropped. -/
def rejoin : List (List Char) → List Char
  | [] => []
  | c :: rest => c ++ rest.flatMap fun d => d.drop overlap

theorem rejoin_cons (c : List Char) {d : List Char} (rest : List (List Char))
    (h : overlap ≤ d.length) :
    rejoin (c :: d :: rest) = c ++ (rejoin (d :: rest)).drop overlap := by
  rw [rejoin, rejoin, List.flatMap_cons, List.drop_append_of_le_length h]

theorem rejoin_ofText (s : List Char) : rejoin (ofText s) = s := by
  induction s using ofText_induction with
  | nil => rfl
  | last s hs h => simp [rejoin]
  | more s h ih =>
    have hrest := rest_length h
    have hsize := headLength_bounds (size_lt_of_headLength_lt h)
    have h1 : overlap = 100 := rfl
    have h2 : size = 500 := rfl
    cases hr : ofText (s.drop (headLength s - overlap)) with
    | nil =>
      rw [ofText_eq_nil_iff] at hr
      rw [hr] at hrest
      exact absurd hrest.1 (by simp)
    | cons d rest =>
      have hd : overlap ≤ d.length := by
        rw [length_of_head hr]
        exact Nat.le_of_lt (overlap_lt_headLength hrest.1)
      have hsum : headLength s - overlap + overlap = headLength s := by omega
      rw [rejoin_cons _ _ hd, ← hr, ih, List.drop_drop, hsum, List.take_append_drop]

/-- The second chunk begins with the characters that the first one ends with,
and it goes on. -/
def Overlaps (c d : List Char) : Prop :=
  ∃ u t v, c = u ++ t ∧ d = t ++ v ∧ t.length = overlap ∧ v ≠ []

theorem overlaps_head {s c d : List Char} {rest : List (List Char)}
    (h : ofText s = c :: d :: rest) : Overlaps c d := by
  obtain ⟨hmore, htail⟩ := ofText_tail h
  have hsize := headLength_bounds (size_lt_of_headLength_lt hmore)
  have hrest := rest_length hmore
  have h1 : overlap = 100 := rfl
  have h2 : size = 500 := rfl
  have hc := ofText_head h
  have hd := ofText_head htail
  rw [length_of_head h] at hd
  have hlong := overlap_lt_headLength hrest.1
  generalize hr : s.drop (headLength s - overlap) = r at hd hrest hlong
  have hcut : s.take (headLength s) = s.take (headLength s - overlap) ++ r.take overlap := by
    have hsum : headLength s = headLength s - overlap + overlap := by omega
    rw [← hr, ← List.take_add, ← hsum]
  have hgo : r.take (headLength r) =
      r.take overlap ++ (r.drop overlap).take (headLength r - overlap) := by
    rw [← List.take_add, Nat.add_sub_cancel' (Nat.le_of_lt hlong)]
  refine ⟨s.take (headLength s - overlap), r.take overlap,
    (r.drop overlap).take (headLength r - overlap), hc.trans hcut, hd.trans hgo, ?_, ?_⟩
  · rw [List.length_take]
    omega
  · apply List.ne_nil_of_length_pos
    rw [List.length_take, List.length_drop]
    omega

def placeBehind : List (List Char) → Nat
  | [] => 0
  | c :: before => c.length - overlap + placeBehind before

theorem ofText_behind {s c : List Char} {before rest : List (List Char)}
    (h : ofText s = before ++ c :: rest) :
    ofText (s.drop (placeBehind before)) = c :: rest := by
  induction before generalizing s with
  | nil => exact h
  | cons b before ih =>
    -- Behind `b` there is a chunk, so that the text behind it was cut like a text of its own.
    obtain ⟨d, more, hd⟩ : ∃ d more, before ++ c :: rest = d :: more := by
      cases before with
      | nil => exact ⟨c, rest, rfl⟩
      | cons d before => exact ⟨d, before ++ c :: rest, rfl⟩
    rw [List.cons_append, hd] at h
    have htail := (ofText_tail h).2
    rw [← hd] at htail
    have hbehind := ih htail
    rw [List.drop_drop] at hbehind
    exact hbehind

theorem Overlaps.lt {c d : List Char} (h : Overlaps c d) : overlap < d.length := by
  obtain ⟨u, t, v, -, rfl, ht, hv⟩ := h
  have hpos := List.length_pos_iff.mpr hv
  rw [List.length_append]
  omega

structure Covers (s : List Char) (chunks : List (List Char)) : Prop where
  empty : chunks = [] ↔ s = []
  whole : rejoin chunks = s
  overlapping : ∀ before c d after, chunks = before ++ c :: d :: after →
    Overlaps c d ∧ overlap < d.length
  inner : ∀ before c d after, chunks = before ++ c :: d :: after →
    size ≤ c.length ∧ c.length ≤ size + overlap
  last : ∀ before c, chunks = before ++ [c] → 1 ≤ c.length ∧ c.length ≤ size + overlap
  ending : ∀ before c d after, chunks = before ++ c :: d :: after →
    EndsWell (s.drop (placeBehind before)) c
  usual : ∀ before c d after, chunks = before ++ c :: d :: after →
    (c.length = size ↔ Unbroken (window (s.drop (placeBehind before))))

theorem covers_ofText (s : List Char) : Covers s (ofText s) where
  empty := ofText_eq_nil_iff s
  whole := rejoin_ofText s
  overlapping := by
    intro before c d after h
    have ho := overlaps_head (ofText_behind h)
    exact ⟨ho, ho.lt⟩
  inner := by
    intro before c d after h
    have hhead := ofText_behind h
    have hb := headLength_bounds (size_lt_of_headLength_lt (ofText_tail hhead).1)
    rw [length_of_head hhead]
    exact ⟨hb.1, hb.2.1⟩
  last := by
    intro before c h
    have hhead := ofText_behind h
    have hne : s.drop (placeBehind before) ≠ [] := by
      intro hnil
      rw [hnil, ofText_nil] at hhead
      exact absurd hhead (by simp)
    rw [length_of_head hhead]
    exact ⟨headLength_pos hne, (headLength_le _).1⟩
  ending := by
    intro before c d after h
    have hhead := ofText_behind h
    rw [ofText_head hhead]
    exact endsWell_head (size_lt_of_headLength_lt (ofText_tail hhead).1)
  usual := by
    intro before c d after h
    have hhead := ofText_behind h
    rw [length_of_head hhead]
    exact headLength_usual (size_lt_of_headLength_lt (ofText_tail hhead).1)

/-- The cutter comes to the end of every text, however many steps it may still
make, and its chunks cover the text. -/
theorem ofText_covers (s : List Char) :
    (∀ more, cut (s.length + 1 + more) s = ofText s) ∧ Covers s (ofText s) := by
  constructor
  · intro more
    apply cut_of_lt
    omega
  · exact covers_ofText s

end Cardwalk.Chunk
