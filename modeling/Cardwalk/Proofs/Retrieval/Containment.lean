import Cardwalk.Proofs.Retrieval.Ranking

/-!
# Chunks that contain the query

A chunk whose letters contain those of the query in one piece holds every pair
of the query, and is found. Only a query of a single letter has no pairs: it
fits the chunks that consist of the same letter, and no longer one.
-/

set_option autoImplicit false

namespace Cardwalk

namespace Score

theorem grams_subset {query chunk : List Char} (hne : letters query ≠ [])
    (hin : letters query <:+: letters chunk)
    (hlong : 2 ≤ (letters query).length ∨ (letters chunk).length = 1) :
    ∀ g ∈ grams query, g ∈ grams chunk := by
  have hlength := hin.length_le
  -- Two letters or more have pairs, and one letter has to be all there is.
  by_cases h : 2 ≤ (letters query).length
  · intro g hg
    obtain ⟨a, b, rfl, hab⟩ := (mem_grams h g).mp hg
    rw [mem_grams (h.trans hlength)]
    exact ⟨a, b, rfl, hab.trans hin⟩
  · have hpos := List.length_pos_iff.mpr hne
    have hletters : letters query = letters chunk := hin.eq_of_length (by omega)
    rw [grams, grams, hletters]
    intro g hg
    exact hg

theorem value_single {query chunk : List Char} (hq : (letters query).length = 1)
    (hc : 2 ≤ (letters chunk).length) : ¬ 0 < (share query chunk).value := by
  obtain ⟨c, hletters⟩ := List.length_eq_one_iff.mp hq
  rw [value_pos_iff, shared_eq_card, Finset.card_pos]
  rintro ⟨g, hg⟩
  obtain ⟨hgq, hgc⟩ := Finset.mem_inter.mp hg
  obtain ⟨a, b, rfl, -⟩ := (mem_grams hc g).mp (List.mem_toFinset.mp hgc)
  rw [grams_single hletters] at hgq
  simp at hgq

end Score

namespace Store

theorem Ordered.found {s : Store} (h : s.Ordered) {query : String} {c : ChunkRow} {count : Nat}
    (hc : c ∈ s.chunks) (hs : (sharedGrams query c).Nonempty) (hcount : s.chunks.length ≤ count) :
    ∃ r ∈ s.search query count, s.Shows query c r := by
  have hm : c ∈ (s.best query).map Prod.fst := by
    rw [(h.best_perm query).mem_iff, List.mem_filter]
    exact ⟨hc, decide_eq_true hs⟩
  have hlength : (s.best query).length ≤ count := by
    have hperm := (h.best_perm query).length_eq
    have hfilter := List.length_filter_le (fun c => (sharedGrams query c).Nonempty) s.chunks
    rw [List.length_map] at hperm
    omega
  obtain ⟨p, hp, rfl⟩ := List.mem_map.mp hm
  refine ⟨rate query p, ?_, rate_shows query (mem_best hp).1⟩
  rw [h.search_eq, List.take_of_length_le hlength]
  exact List.mem_map_of_mem hp

theorem Ordered.search_eq_nil {s : Store} (h : s.Ordered) {query : String} {count : Nat}
    (hs : ∀ c ∈ s.chunks, ¬ (sharedGrams query c).Nonempty) : s.search query count = [] := by
  have hperm := h.best_perm query
  rw [List.filter_eq_nil_iff.mpr (by simpa using hs), List.perm_nil, List.map_eq_nil_iff] at hperm
  rw [h.search_eq, hperm, List.take_nil, List.map_nil]

/-- A chunk that contains a query of two letters or more is a full match, in
every store and for every search that asks for all chunks; and so is one that
has no other letter than the query. -/
theorem contained_found {query chunk : String}
    (hletter : ∃ x ∈ query.toList, Text.isBlank x = false)
    (hin : Score.letters query.toList <:+: Score.letters chunk.toList)
    (hlong : 2 ≤ (Score.letters query.toList).length ∨
      (Score.letters chunk.toList).length = 1) :
    (Score.share query.toList chunk.toList).value = 1 ∧
      ∀ requests, ∀ c ∈ (empty.serve requests).2.chunks, c.text = chunk →
        ∀ count, (empty.serve requests).2.chunks.length ≤ count →
          ∃ r ∈ (empty.serve requests).2.search query count,
            (empty.serve requests).2.Shows query c r ∧ r.score = 1 := by
  obtain ⟨x, hx, hblank⟩ := hletter
  have hne := Score.letters_ne_nil hx hblank
  have hgrams := Score.grams_ne_nil hne
  have hall := Score.grams_subset hne hin hlong
  have hone := Score.value_eq_one hgrams hall
  refine ⟨hone, ?_⟩
  rintro requests c hc rfl count hcount
  have hshared : (sharedGrams query c).Nonempty := by
    obtain ⟨g, hg⟩ := List.exists_mem_of_ne_nil _ hgrams
    exact ⟨g, Finset.mem_inter.mpr ⟨List.mem_toFinset.mpr hg, List.mem_toFinset.mpr (hall g hg)⟩⟩
  obtain ⟨r, hr, hshows⟩ := (empty_ordered.serve requests).found hc hshared hcount
  exact ⟨r, hr, hshows, hshows.score.trans hone⟩

theorem contained_found_rust :
    (Score.share "RUST is".toList "Is R u s T\nIs".toList).value = 1 ∧
      ∃ r ∈ (empty.serve [.ingest "n" "s" "Is R u s T\nIs" "1"]).2.search "RUST is" 1,
        r.score = 1 := by
  have h := contained_found
    (show ∃ x ∈ "RUST is".toList, Text.isBlank x = false from ⟨'R', by decide, by decide⟩)
    (show Score.letters "RUST is".toList <:+: Score.letters "Is R u s T\nIs".toList from
      ⟨"is".toList, [], by decide⟩)
    (.inl (by decide))
  obtain ⟨r, hr, -, hscore⟩ := h.2 [.ingest "n" "s" "Is R u s T\nIs" "1"]
    ⟨1, 0, "Is R u s T\nIs"⟩ (by decide) rfl 1 (by decide)
  exact ⟨h.1, r, hr, hscore⟩

theorem single_letter_missed :
    (∃ x ∈ "a".toList, Text.isBlank x = false) ∧
      Score.letters "a".toList <:+: Score.letters "abc".toList ∧
      (Score.share "a".toList "abc".toList).value ≠ 1 ∧
      (empty.serve [.ingest "n" "s" "abc" "1"]).2.chunks = [⟨1, 0, "abc"⟩] ∧
      (empty.serve [.ingest "n" "s" "abc" "1"]).2.search "a" 1 = [] := by
  have hvalue := Score.value_single (show (Score.letters "a".toList).length = 1 by decide)
    (show 2 ≤ (Score.letters "abc".toList).length by decide)
  have hchunks : (empty.serve [.ingest "n" "s" "abc" "1"]).2.chunks = [⟨1, 0, "abc"⟩] := by decide
  refine ⟨⟨'a', by decide, by decide⟩, ⟨[], "bc".toList, by decide⟩, ?_, hchunks, ?_⟩
  · intro hone
    rw [hone] at hvalue
    exact hvalue (by decide)
  · apply (empty_ordered.serve [.ingest "n" "s" "abc" "1"]).search_eq_nil
    rw [hchunks]
    decide

end Store

end Cardwalk
