import Mathlib.Data.Finset.Card
import Mathlib.Data.Finset.Prod
import Mathlib.Data.List.Infix
import Cardwalk.Retrieval.Chunk
import Cardwalk.Proofs.Decimal.Quotient

/-!
# Grams as sets

The grams of a text are the pairs of letters that stand next to each other in
it, each of them once. What a chunk scores is the fraction of the grams of the
query that it holds, and rounding does not change which of two chunks holds
more of them.
-/

set_option autoImplicit false

namespace Cardwalk.Score

theorem lowerChar_ne_nil (c : Char) : Text.lowerChar c ≠ [] := by
  unfold Text.lowerChar
  split_ifs
  · exact List.cons_ne_nil _ _
  · exact List.cons_ne_nil _ _
  · exact List.cons_ne_nil _ _
  · exact List.cons_ne_nil _ _

theorem letters_ne_nil {s : List Char} {c : Char} (hc : c ∈ s) (hb : Text.isBlank c = false) :
    letters s ≠ [] := by
  obtain ⟨l, hl⟩ := List.exists_mem_of_ne_nil _ (lowerChar_ne_nil c)
  have hm : c ∈ s.filter fun c => !Text.isBlank c := by
    rw [List.mem_filter, hb]
    exact ⟨hc, rfl⟩
  exact List.ne_nil_of_mem (List.mem_flatMap.mpr ⟨c, hm, hl⟩)

theorem mem_pairs (g s : List Char) : g ∈ pairs s ↔ ∃ a b, g = [a, b] ∧ [a, b] <:+: s := by
  induction s using pairs.induct with
  | case1 a b s ih =>
    rw [pairs, List.mem_cons, ih]
    constructor
    · rintro (rfl | ⟨c, d, rfl, h⟩)
      · exact ⟨a, b, rfl, List.infix_cons_iff.mpr (.inl ⟨s, rfl⟩)⟩
      · exact ⟨c, d, rfl, List.infix_cons_iff.mpr (.inr h)⟩
    · rintro ⟨c, d, rfl, h⟩
      -- A pair stands at the head, or it is one of the rest.
      rcases List.infix_cons_iff.mp h with h | h
      · simp only [List.cons_prefix_cons, List.nil_prefix, and_true] at h
        rw [h.1, h.2]
        exact .inl rfl
      · exact .inr ⟨c, d, rfl, h⟩
  | case2 s hs =>
    rw [pairs]
    constructor
    · intro h
      cases h
    · rintro ⟨a, b, rfl, h⟩
      have hlength := h.length_le
      match s, hs with
      | [], _ => cases hlength
      | [c], _ => cases Nat.le_of_succ_le_succ hlength
      | c :: d :: s, hs => exact absurd rfl (hs c d s)
    · exact hs

theorem nodup_eraseDups {α : Type} [BEq α] [LawfulBEq α] (xs : List α) : xs.eraseDups.Nodup := by
  cases xs with
  | nil => exact List.nodup_nil
  | cons x xs =>
    rw [List.eraseDups_cons, List.nodup_cons]
    constructor
    · simp
    · exact nodup_eraseDups _
termination_by xs.length
decreasing_by exact Nat.lt_succ_of_le (List.length_filter_le _ _)

theorem grams_nil {s : List Char} (h : letters s = []) : grams s = [] := by
  rw [grams, h]

theorem grams_single {s : List Char} {c : Char} (h : letters s = [c]) : grams s = [[c]] := by
  rw [grams, h]

theorem grams_pairs {s : List Char} (h : 2 ≤ (letters s).length) :
    grams s = (pairs (letters s)).eraseDups := by
  unfold grams
  split
  · rename_i hs
    rw [hs] at h
    cases h
  · rename_i c hs
    rw [hs] at h
    cases Nat.le_of_succ_le_succ h
  · rfl

theorem mem_grams {s : List Char} (h : 2 ≤ (letters s).length) (g : List Char) :
    g ∈ grams s ↔ ∃ a b, g = [a, b] ∧ [a, b] <:+: letters s := by
  rw [grams_pairs h, List.mem_eraseDups, mem_pairs]

theorem letters_cases (s : List Char) :
    letters s = [] ∨ (∃ c, letters s = [c]) ∨ 2 ≤ (letters s).length := by
  match letters s with
  | [] => exact .inl rfl
  | [c] => exact .inr (.inl ⟨c, rfl⟩)
  | _ :: _ :: _ => exact .inr (.inr (by simp))

theorem grams_ne_nil {s : List Char} (h : letters s ≠ []) : grams s ≠ [] := by
  rcases letters_cases s with hs | ⟨c, hs⟩ | hs
  · exact absurd hs h
  · rw [grams_single hs]
    exact List.cons_ne_nil _ _
  · match hletters : letters s, hs with
    | a :: b :: rest, _ =>
      have hm : [a, b] ∈ grams s := by
        rw [mem_grams hs]
        exact ⟨a, b, rfl, hletters ▸ ⟨[], rest, rfl⟩⟩
      exact List.ne_nil_of_mem hm

theorem grams_nodup (s : List Char) : (grams s).Nodup := by
  rcases letters_cases s with hs | ⟨c, hs⟩ | hs
  · rw [grams_nil hs]
    exact List.nodup_nil
  · rw [grams_single hs]
    exact List.nodup_singleton _
  · rw [grams_pairs hs]
    exact nodup_eraseDups _

theorem length_pairs_le {s : List Char} (hs : 2 ≤ (letters s).length) (codes : Finset Nat)
    (hc : ∀ c : Char, c.toNat ∈ codes) : (grams s).length ≤ codes.card * codes.card := by
  -- Each pair is given by its two code points.
  have hsubset : (grams s).toFinset ⊆
      Finset.image (fun p : Nat × Nat => [Char.ofNat p.1, Char.ofNat p.2]) (codes ×ˢ codes) := by
    intro g hg
    obtain ⟨a, b, rfl, -⟩ := (mem_grams hs g).mp (List.mem_toFinset.mp hg)
    rw [Finset.mem_image]
    refine ⟨(a.toNat, b.toNat), ?_, by rw [Char.ofNat_toNat, Char.ofNat_toNat]⟩
    exact Finset.mem_product.mpr ⟨hc a, hc b⟩
  calc (grams s).length = (grams s).toFinset.card :=
        (List.toFinset_card_of_nodup (grams_nodup s)).symm
    _ ≤ _ := Finset.card_le_card hsubset
    _ ≤ (codes ×ˢ codes).card := Finset.card_image_le
    _ = codes.card * codes.card := Finset.card_product codes codes

theorem toNat_lt (c : Char) : c.toNat < 2 ^ 21 := by
  rcases c.valid with h | ⟨-, h⟩
  · exact Nat.lt_trans h (by decide)
  · exact Nat.lt_trans h (by decide)

/-- There are not too many characters for the grams of a text to be counted
exactly. -/
theorem length_grams_le (s : List Char) : (grams s).length ≤ 2 ^ 50 := by
  rcases letters_cases s with hs | ⟨c, hs⟩ | hs
  · rw [grams_nil hs]
    exact Nat.zero_le _
  · rw [grams_single hs]
    exact Nat.one_le_two_pow
  · have hle := length_pairs_le hs (Finset.range (2 ^ 21)) fun c =>
      Finset.mem_range.mpr (toNat_lt c)
    rw [Finset.card_range] at hle
    exact hle.trans (by norm_num)

theorem shared_le_total (query chunk : List Char) :
    (share query chunk).shared ≤ (share query chunk).total := List.length_filter_le _ _

theorem shared_eq_card (query chunk : List Char) :
    (share query chunk).shared = ((grams query).toFinset ∩ (grams chunk).toFinset).card := by
  have hset : (grams query).toFinset ∩ (grams chunk).toFinset =
      ((grams query).filter (grams chunk).contains).toFinset := by
    ext g
    simp
  rw [hset, List.toFinset_card_of_nodup ((grams_nodup query).filter _)]
  rfl

theorem value_eq_fraction {query : List Char} (h : grams query ≠ []) (chunk : List Char) :
    (share query chunk).value =
      Float.ofNat (share query chunk).shared / Float.ofNat (grams query).length :=
  if_neg fun h0 => h (List.length_eq_zero_iff.mp h0)

theorem value_pos_iff (query chunk : List Char) :
    0 < (share query chunk).value ↔ 0 < (share query chunk).shared := by
  by_cases h : grams query = []
  · have hempty : share query chunk = ⟨0, 0⟩ := by simp [share, h]
    rw [hempty]
    decide
  · rw [value_eq_fraction h]
    exact Decimal.fraction_pos_iff (shared_le_total query chunk) (List.length_pos_iff.mpr h)
      (length_grams_le query)

theorem value_le_iff (query a b : List Char) :
    (share query a).value ≤ (share query b).value ↔
      (share query a).shared ≤ (share query b).shared := by
  by_cases h : grams query = []
  · have hempty : ∀ chunk, share query chunk = ⟨0, 0⟩ := by simp [share, h]
    rw [hempty, hempty]
    decide
  · rw [value_eq_fraction h, value_eq_fraction h]
    exact Decimal.fraction_le_iff (shared_le_total query a) (shared_le_total query b)
      (List.length_pos_iff.mpr h) (length_grams_le query)

theorem value_eq_one {query chunk : List Char} (h : grams query ≠ [])
    (hall : ∀ g ∈ grams query, g ∈ grams chunk) : (share query chunk).value = 1 := by
  have hfilter : (grams query).filter (grams chunk).contains = grams query := by
    rw [List.filter_eq_self]
    simpa using hall
  rw [value_eq_fraction h, share, hfilter]
  apply Decimal.fraction_self (List.length_pos_iff.mpr h)
  exact Nat.lt_of_le_of_lt (length_grams_le query) (by decide)

end Cardwalk.Score
