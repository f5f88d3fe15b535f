import Mathlib.Order.Bounds.Basic
import Cardwalk.Suggestion

/-!
# The distance of two texts

A text becomes another by edits of single characters. The rows of the table
hold the least number of edits between the beginnings of two texts, and the
last entry of the last row that between the texts.
-/

set_option autoImplicit false

namespace Cardwalk.Suggestion

/-- A character is put in, taken out or exchanged. -/
inductive Edit : List Char → List Char → Prop
  | insertion (before after : List Char) (c : Char) : Edit (before ++ after) (before ++ c :: after)
  | deletion (before after : List Char) (c : Char) : Edit (before ++ c :: after) (before ++ after)
  | substitution (before after : List Char) (c d : Char) :
      Edit (before ++ c :: after) (before ++ d :: after)

/-- So many edits make one text of another. -/
inductive Edits : Nat → List Char → List Char → Prop
  | refl (a : List Char) : Edits 0 a a
  | step {n : Nat} {a b c : List Char} : Edit a b → Edits n b c → Edits (n + 1) a c

section Edits

variable {m n : Nat} {a b c : List Char}

theorem Edit.symm (h : Edit a b) : Edit b a := by
  cases h with
  | insertion before after c => exact .deletion before after c
  | deletion before after c => exact .insertion before after c
  | substitution before after c d => exact .substitution before after d c

theorem Edit.reverse (h : Edit a b) : Edit a.reverse b.reverse := by
  cases h with
  | insertion before after c => simpa using Edit.insertion after.reverse before.reverse c
  | deletion before after c => simpa using Edit.deletion after.reverse before.reverse c
  | substitution before after c d =>
    simpa using Edit.substitution after.reverse before.reverse c d

theorem Edit.cons (h : Edit a b) (c : Char) : Edit (c :: a) (c :: b) := by
  cases h with
  | insertion before after d => exact .insertion (c :: before) after d
  | deletion before after d => exact .deletion (c :: before) after d
  | substitution before after d e => exact .substitution (c :: before) after d e

theorem Edits.trans (hab : Edits m a b) (hbc : Edits n b c) : Edits (m + n) a c := by
  induction hab with
  | refl a => simpa using hbc
  | step he _ ih =>
    rw [Nat.succ_add]
    exact .step he (ih hbc)

theorem Edits.one (h : Edit a b) : Edits 1 a b := .step h (.refl b)

theorem Edits.symm (h : Edits n a b) : Edits n b a := by
  induction h with
  | refl a => exact .refl a
  | step he _ ih => exact ih.trans (.one he.symm)

theorem Edits.reverse (h : Edits n a b) : Edits n a.reverse b.reverse := by
  induction h with
  | refl a => exact .refl a.reverse
  | step he _ ih => exact .step he.reverse ih

theorem Edits.cons (h : Edits n a b) (c : Char) : Edits n (c :: a) (c :: b) := by
  induction h with
  | refl a => exact .refl (c :: a)
  | step he _ ih => exact .step (he.cons c) ih

theorem Edits.eq_of_zero (h : Edits 0 a b) : a = b := by
  cases h
  rfl

theorem edits_insert (b : List Char) : Edits b.length [] b := by
  induction b with
  | nil => exact .refl []
  | cons d b ih => exact .step (.insertion [] [] d) (ih.cons d)

theorem edits_delete (a : List Char) : Edits a.length a [] := (edits_insert a).symm

end Edits

def headDistance : List Char → List Char → Nat
  | [], b => b.length
  | c :: a, [] => (c :: a).length
  | c :: a, d :: b =>
    min (min (headDistance a (d :: b) + 1) (headDistance (c :: a) b + 1))
      (headDistance a b + if c = d then 0 else 1)
termination_by a b => a.length + b.length

theorem headDistance_nil_left (b : List Char) : headDistance [] b = b.length := by
  rw [headDistance]

theorem headDistance_nil_right (a : List Char) : headDistance a [] = a.length := by
  cases a <;> rw [headDistance]

theorem headDistance_cons (c d : Char) (a b : List Char) :
    headDistance (c :: a) (d :: b) =
      min (min (headDistance a (d :: b) + 1) (headDistance (c :: a) b + 1))
        (headDistance a b + if c = d then 0 else 1) := by
  rw [headDistance]

theorem edits_headDistance (a b : List Char) : Edits (headDistance a b) a b := by
  fun_induction headDistance a b with
  | case1 b => exact edits_insert b
  | case2 c a => exact edits_delete (c :: a)
  | case3 c a d b hdelete hinsert hkeep =>
    have hdelete' : Edits (headDistance a (d :: b) + 1) (c :: a) (d :: b) :=
      .step (.deletion [] a c) hdelete
    have hinsert' : Edits (headDistance (c :: a) b + 1) (c :: a) (d :: b) :=
      .step (.insertion [] (c :: a) d) (hinsert.cons d)
    have hkeep' : Edits (headDistance a b + if c = d then 0 else 1) (c :: a) (d :: b) := by
      split
      · rename_i heq
        exact heq ▸ hkeep.cons c
      · exact .step (.substitution [] a c d) (hkeep.cons d)
    exact min_rec' (Edits · (c :: a) (d :: b))
      (min_rec' (Edits · (c :: a) (d :: b)) hdelete' hinsert') hkeep'

theorem headDistance_self (a : List Char) : headDistance a a = 0 := by
  induction a with
  | nil => exact headDistance_nil_left []
  | cons c a ih => simp [headDistance_cons, ih]

section Step

variable (a b : List Char) (c d : Char)

theorem headDistance_cons_left : headDistance (c :: a) b ≤ headDistance a b + 1 := by
  cases b with
  | nil => simp [headDistance_nil_right]
  | cons d b => rw [headDistance_cons]; omega

theorem headDistance_cons_right : headDistance a (d :: b) ≤ headDistance a b + 1 := by
  cases a with
  | nil => simp [headDistance_nil_left]
  | cons c a => rw [headDistance_cons]; omega

theorem headDistance_tail : headDistance a b ≤ headDistance (c :: a) b + 1 := by
  induction b with
  | nil => simp [headDistance_nil_right]; omega
  | cons d b ih =>
    have h := headDistance_cons_right a b d
    rw [headDistance_cons]
    omega

theorem headDistance_head : headDistance (c :: a) b ≤ headDistance (d :: a) b + 1 := by
  induction b with
  | nil => simp [headDistance_nil_right]
  | cons e b ih =>
    rw [headDistance_cons, headDistance_cons]
    split <;> split <;> omega

variable {a b} in
theorem headDistance_cons_both (h : ∀ x, headDistance a x ≤ headDistance b x + 1) (x : List Char) :
    headDistance (c :: a) x ≤ headDistance (c :: b) x + 1 := by
  induction x with
  | nil => simpa [headDistance_nil_right] using h []
  | cons e x ih =>
    have hdelete := h (e :: x)
    have hkeep := h x
    rw [headDistance_cons, headDistance_cons]
    omega

variable {a b} in
theorem headDistance_append (before : List Char)
    (h : ∀ x, headDistance a x ≤ headDistance b x + 1) (x : List Char) :
    headDistance (before ++ a) x ≤ headDistance (before ++ b) x + 1 := by
  induction before generalizing x with
  | nil => exact h x
  | cons e before ih => exact headDistance_cons_both e ih x

end Step

theorem Edit.headDistance_le {a b : List Char} (h : Edit a b) :
    ∀ c, headDistance a c ≤ headDistance b c + 1 := by
  cases h with
  | insertion before after d =>
    exact headDistance_append before fun c => headDistance_tail after c d
  | deletion before after d =>
    exact headDistance_append before fun c => headDistance_cons_left after c d
  | substitution before after d d' =>
    exact headDistance_append before fun c => headDistance_head after c d d'

theorem Edits.headDistance_le {n : Nat} {a b : List Char} (h : Edits n a b) :
    headDistance a b ≤ n := by
  induction h with
  | refl a => exact (headDistance_self a).le
  | step he _ ih => exact (he.headDistance_le _).trans (Nat.succ_le_succ ih)

theorem headDistance_le_max (a b : List Char) : headDistance a b ≤ max a.length b.length := by
  fun_induction headDistance a b with
  | case1 b => simp
  | case2 c a => simp
  | case3 c a d b _ _ hkeep =>
    simp only [List.length_cons]
    split <;> omega

theorem length_le_headDistance {a b : List Char} (h : ∀ c ∈ a, c ∉ b) :
    a.length ≤ headDistance a b := by
  fun_induction headDistance a b with
  | case1 b => simp
  | case2 c a => rfl
  | case3 c a d b hdelete hinsert hkeep =>
    have hcd : c ≠ d := List.ne_of_not_mem_cons (h c List.mem_cons_self)
    have hb : ∀ x ∈ c :: a, x ∉ b := fun x hx => List.not_mem_of_not_mem_cons (h x hx)
    have hdelete' := hdelete fun x hx => h x (List.mem_cons_of_mem c hx)
    have hinsert' := hinsert hb
    have hkeep' := hkeep fun x hx => hb x (List.mem_cons_of_mem c hx)
    simp only [List.length_cons, if_neg hcd] at hinsert' ⊢
    omega

/-- The distances of a text to the beginnings of another, all of them read
backwards: behind `q`, which has been read, come the characters of `b`. -/
def distancesFrom (p q : List Char) : List Char → List Nat
  | [] => []
  | d :: b => headDistance p (d :: q) :: distancesFrom p (d :: q) b

def row (p b : List Char) : List Nat := headDistance p [] :: distancesFrom p [] b

theorem firstRow_eq (q b : List Char) :
    firstRow q.length b = headDistance [] q :: distancesFrom [] q b := by
  induction b generalizing q with
  | nil => rw [firstRow, headDistance_nil_left, distancesFrom]
  | cons d b ih => rw [firstRow, distancesFrom, headDistance_nil_left, ← ih (d :: q)]; rfl

theorem extendRow_eq (c : Char) (p q b : List Char) :
    extendRow c (headDistance p q) (headDistance (c :: p) q) (distancesFrom p q b) b =
      distancesFrom (c :: p) q b := by
  induction b generalizing q with
  | nil => rfl
  | cons d b ih =>
    rw [distancesFrom, distancesFrom, extendRow, ← headDistance_cons]
    exact congrArg _ (ih (d :: q))

theorem nextRow_eq (c : Char) (p b : List Char) : nextRow c (row p b) b = row (c :: p) b := by
  have hfirst : headDistance p [] + 1 = headDistance (c :: p) [] := by
    simp [headDistance_nil_right]
  rw [row, nextRow, hfirst, extendRow_eq, row]

theorem rows_eq (p a b : List Char) : rows (row p b) a b = row (a.reverse ++ p) b := by
  induction a generalizing p with
  | nil => rfl
  | cons c a ih => rw [rows, nextRow_eq, ih, List.reverse_cons, List.append_assoc]; rfl

theorem getLast?_distancesFrom (p q b : List Char) :
    (headDistance p q :: distancesFrom p q b).getLast? = some (headDistance p (b.reverse ++ q)) := by
  induction b generalizing q with
  | nil => rfl
  | cons d b ih =>
    rw [distancesFrom, List.getLast?_cons_cons, ih, List.reverse_cons, List.append_assoc]
    rfl

/-- The rows go from the front, so the texts are read backwards from the heads. -/
theorem distance_eq (a b : List Char) : distance a b = headDistance a.reverse b.reverse := by
  have hfirst : firstRow 0 b = row [] b := firstRow_eq [] b
  rw [distance, hfirst, rows_eq, row, getLast?_distancesFrom]
  simp

section Distance

variable (a b c : List Char)

theorem edits_distance : Edits (distance a b) a b := by
  rw [distance_eq]
  simpa using (edits_headDistance a.reverse b.reverse).reverse

variable {a b} in
theorem Edits.distance_le {n : Nat} (h : Edits n a b) : distance a b ≤ n := by
  rw [distance_eq]
  exact h.reverse.headDistance_le

theorem isLeast_distance : IsLeast {n | Edits n a b} (distance a b) :=
  ⟨edits_distance a b, fun _ h => h.distance_le⟩

theorem distance_le_max : distance a b ≤ max a.length b.length := by
  simpa [distance_eq] using headDistance_le_max a.reverse b.reverse

variable {a b} in
theorem length_le_distance (h : ∀ c ∈ a, c ∉ b) : a.length ≤ distance a b := by
  have hreverse : ∀ c ∈ a.reverse, c ∉ b.reverse := by simpa using h
  simpa [distance_eq] using length_le_headDistance hreverse

theorem lt_distance_iff {n : Nat} :
    n < distance a b ↔ ∀ m, Edits m a b → n < m :=
  ⟨fun h _ he => h.trans_le he.distance_le, fun h => h _ (edits_distance a b)⟩

theorem le_distance_iff {n : Nat} :
    n ≤ distance a b ↔ ∀ m, Edits m a b → n ≤ m :=
  ⟨fun h _ he => h.trans he.distance_le, fun h => h _ (edits_distance a b)⟩

theorem distance_comm : distance a b = distance b a :=
  le_antisymm (edits_distance b a).symm.distance_le (edits_distance a b).symm.distance_le

theorem distance_eq_zero_iff : distance a b = 0 ↔ a = b := by
  constructor
  · intro h
    exact (h ▸ edits_distance a b).eq_of_zero
  · rintro rfl
    exact Nat.le_zero.mp (Edits.refl a).distance_le

theorem distance_triangle : distance a c ≤ distance a b + distance b c :=
  ((edits_distance a b).trans (edits_distance b c)).distance_le

/-- The last entry of the table is the least number of edits between two texts.
So the distance is the same both ways, is zero for equal texts only, and is no
longer than any detour. -/
theorem distance_is_edit_distance :
    IsLeast {n | Edits n a b} (distance a b) ∧ distance a b = distance b a ∧
      (distance a b = 0 ↔ a = b) ∧ ∀ c, distance a c ≤ distance a b + distance b c :=
  ⟨isLeast_distance a b, distance_comm a b, distance_eq_zero_iff a b, distance_triangle a b⟩

example : distance "kitten".toList "sitting".toList = 3 := by decide

end Distance

end Cardwalk.Suggestion
