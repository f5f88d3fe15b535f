import Cardwalk.Proofs.Retrieval.Grams
import Cardwalk.Proofs.Retrieval.History

/-!
# What a search finds

The rows of a store stand in the order of documents and positions. A search
answers the first of those rows that share a gram with the query, which are
ordered by the number of grams they share and then by where they stand.
-/

set_option autoImplicit false

namespace Cardwalk

theorem pairwise_mergeSort_stable {α : Type} {le : α → α → Bool} {r : α → α → Prop}
    (htrans : ∀ a b c, le a b = true → le b c = true → le a c = true)
    (htotal : ∀ a b, (le a b || le b a) = true) {xs : List α} (h : xs.Pairwise r) :
    (xs.mergeSort le).Pairwise fun a b => le a b = true ∧ (le b a = true → r a b) := by
  -- Sorting the elements with their places is sorting them by quality and then by place.
  rw [← List.mergeSort_zipIdx, List.pairwise_map]
  have hsorted := List.pairwise_mergeSort (List.zipIdxLE_trans htrans)
    (List.zipIdxLE_total htotal) xs.zipIdx
  have hplaces : (xs.zipIdx.mergeSort (List.zipIdxLE le)).Pairwise
      fun a b => a.2 ≠ b.2 := by
    rw [← List.pairwise_map (f := Prod.snd)]
    apply ((List.mergeSort_perm _ _).map Prod.snd).nodup_iff.mpr
    rw [List.zipIdx_map_snd]
    exact List.nodup_range'
  apply (hsorted.and hplaces).imp_of_mem
  rintro ⟨a, i⟩ ⟨b, j⟩ ha hb ⟨hle, hne⟩
  obtain ⟨hi, hai⟩ := List.mem_zipIdx' (List.mem_mergeSort.mp ha)
  obtain ⟨hj, hbj⟩ := List.mem_zipIdx' (List.mem_mergeSort.mp hb)
  unfold List.zipIdxLE at hle
  by_cases hab : le a b = true
  · refine ⟨hab, fun hba => ?_⟩
    simp only [hab, hba, if_true, decide_eq_true_eq] at hle
    show r a b
    rw [hai, hbj]
    exact List.pairwise_iff_getElem.mp h i j hi hj (Nat.lt_of_le_of_ne hle hne)
  · simp [hab] at hle

/-- The row of an earlier document, or an earlier row of the same one. -/
def ChunkRow.Earlier (a b : ChunkRow) : Prop :=
  a.document < b.document ∨ a.document = b.document ∧ a.position < b.position

theorem ChunkRow.Earlier.asymm {a b : ChunkRow} (hab : a.Earlier b) : ¬ b.Earlier a := by
  unfold ChunkRow.Earlier at hab ⊢
  omega

theorem ChunkRow.number_earlier (document position : Nat) (texts : List String) :
    (ChunkRow.number document position texts).Pairwise ChunkRow.Earlier := by
  rw [number_eq_mapIdx, List.pairwise_iff_getElem]
  intro i j hi hj hij
  rw [List.getElem_mapIdx, List.getElem_mapIdx]
  exact .inr ⟨rfl, Nat.add_lt_add_left hij position⟩

namespace Store

structure Ordered (s : Store) : Prop extends s.Wellformed where
  rows : s.chunks.Pairwise ChunkRow.Earlier

theorem empty_ordered : empty.Ordered where
  toWellformed := empty_wellformed
  rows := .nil

theorem Ordered.delete {s : Store} (h : s.Ordered) (id : Int) : (s.delete id).Ordered where
  toWellformed := h.toWellformed.delete id
  rows := h.rows.filter _

theorem Ordered.cleared {s : Store} (h : s.Ordered) (source : String) :
    (s.cleared source).Ordered := by
  unfold Store.cleared
  split
  · exact h.delete _
  · exact h

theorem Ordered.taken {s : Store} (h : s.Ordered) (name source text created : String) :
    (s.taken name source text created).Ordered where
  toWellformed := taken_wellformed h.toWellformed name source text created
  rows := by
    rw [Store.taken, List.pairwise_append]
    refine ⟨(h.cleared source).rows, ChunkRow.number_earlier _ _ _, ?_⟩
    -- The number of the new document is higher than any that is in use.
    intro a ha b hb
    obtain ⟨d, hd, he⟩ := (h.cleared source).owned a ha
    have hle := (h.cleared source).fresh d hd
    rw [cleared_lastId] at hle
    left
    rw [he, ChunkRow.number_document hb]
    omega

theorem Ordered.answer {s : Store} (h : s.Ordered) (q : Request) : (s.answer q).2.Ordered := by
  cases q with
  | ingest name source text created =>
    by_cases ht : pieces text = []
    · simp only [Store.answer, ingest_refused s name source created ht]
      exact h
    · simp only [Store.answer, ingest_taken h.toWellformed name source created ht]
      exact h.taken name source text created
  | delete id => exact h.delete id
  | list => exact h
  | search query count => exact h

theorem Ordered.serve {s : Store} (h : s.Ordered) (requests : List Request) :
    (s.serve requests).2.Ordered := by
  induction requests generalizing s with
  | nil => exact h
  | cons q rest ih => exact ih (h.answer q)

def joined (s : Store) : List (ChunkRow × String) :=
  s.chunks.flatMap fun c =>
    (s.documents.filter fun d => d.id = c.document).map fun d => (c, d.name)

theorem filter_id_nil {xs : List DocumentRow} {id : Nat} (h : ∀ d ∈ xs, d.id ≠ id) :
    (xs.filter fun d => d.id = id) = [] := by
  rw [List.filter_eq_nil_iff]
  intro d hd
  rw [decide_eq_true_eq]
  exact h d hd

theorem Wellformed.filter_id {s : Store} (hw : s.Wellformed) {d : DocumentRow}
    (hd : d ∈ s.documents) : (s.documents.filter fun e => e.id = d.id) = [d] := by
  obtain ⟨before, after, he⟩ := List.append_of_mem hd
  have hids := hw.ids
  rw [he, List.pairwise_append, List.pairwise_cons] at hids
  obtain ⟨-, ⟨hafter, -⟩, hbefore⟩ := hids
  rw [he, List.filter_append, List.filter_cons_of_pos (by simp), filter_id_nil, filter_id_nil,
    List.nil_append]
  · intro e hm
    exact Nat.ne_of_gt (hafter e hm)
  · intro e hm
    exact Nat.ne_of_lt (hbefore e hm d List.mem_cons_self)

theorem Wellformed.joined_rows {s : Store} (hw : s.Wellformed) :
    s.joined.map Prod.fst = s.chunks := by
  have hone : ∀ c ∈ s.chunks, ((s.documents.filter fun d => d.id = c.document).map
      fun d => (c, d.name)).map Prod.fst = [c] := by
    intro c hc
    obtain ⟨d, hd, he⟩ := hw.owned c hc
    rw [he, hw.filter_id hd]
    rfl
  rw [joined, List.map_flatMap, List.flatMap_congr hone, List.flatMap_singleton']

theorem mem_joined {s : Store} {p : ChunkRow × String} (h : p ∈ s.joined) :
    ∃ d ∈ s.documents, d.id = p.1.document ∧ p.2 = d.name := by
  obtain ⟨c, -, hm⟩ := List.mem_flatMap.mp h
  obtain ⟨d, hd, rfl⟩ := List.mem_map.mp hm
  obtain ⟨hd, he⟩ := List.mem_filter.mp hd
  exact ⟨d, hd, of_decide_eq_true he, rfl⟩

theorem isEarlier_of_earlier {a b : ChunkRow × String} (h : a.1.Earlier b.1) :
    isEarlier a b = true := by
  rw [isEarlier, Bool.or_eq_true, Bool.and_eq_true, decide_eq_true_eq, decide_eq_true_eq,
    decide_eq_true_eq]
  rcases h with h | ⟨he, h⟩
  · exact .inl h
  · exact .inr ⟨he, Nat.le_of_lt h⟩

theorem Ordered.pairwise_joined {s : Store} (h : s.Ordered) :
    s.joined.Pairwise fun a b => a.1.Earlier b.1 := by
  rw [← List.pairwise_map (f := Prod.fst), h.joined_rows]
  exact h.rows

theorem Ordered.named_eq {s : Store} (h : s.Ordered) : s.named = s.joined :=
  List.mergeSort_of_pairwise (h.pairwise_joined.imp isEarlier_of_earlier)

def sharedGrams (query : String) (c : ChunkRow) : Finset (List Char) :=
  (Score.grams query.toList).toFinset ∩ (Score.grams c.text.toList).toFinset

theorem rate_pos_iff (query : String) (p : ChunkRow × String) :
    0 < (rate query p).score ↔ (sharedGrams query p.1).Nonempty := by
  rw [rate, Score.value_pos_iff, Score.shared_eq_card, Finset.card_pos]
  rfl

theorem rate_le_iff (query : String) (a b : ChunkRow × String) :
    (rate query a).score ≤ (rate query b).score ↔
      (sharedGrams query a.1).card ≤ (sharedGrams query b.1).card := by
  rw [rate, rate, Score.value_le_iff, Score.shared_eq_card, Score.shared_eq_card]
  rfl

/-- A row that shares more grams with the query, or as many and stands earlier. -/
def Better (query : String) (a b : ChunkRow) : Prop :=
  (sharedGrams query b).card < (sharedGrams query a).card ∨
    (sharedGrams query a).card = (sharedGrams query b).card ∧ a.Earlier b

theorem Better.asymm {query : String} {a b : ChunkRow} (hab : Better query a b) :
    ¬ Better query b a := by
  rintro (hba | ⟨he, hba⟩)
  · unfold Better at hab
    omega
  · rcases hab with hlt | ⟨-, hab⟩
    · omega
    · exact hab.asymm hba

def best (s : Store) (query : String) : List (ChunkRow × String) :=
  (s.joined.filter fun p => 0 < (rate query p).score).mergeSort fun a b =>
    (rate query b).score ≤ (rate query a).score

theorem Ordered.ranked_eq {s : Store} (h : s.Ordered) (query : String) :
    s.ranked query = (s.best query).map (rate query) := by
  rw [ranked, h.named_eq, List.filter_map, best, List.map_mergeSort]
  · rfl
  · intro a _ b _
    rfl

theorem Ordered.best_better {s : Store} (h : s.Ordered) (query : String) :
    ((s.best query).map Prod.fst).Pairwise (Better query) := by
  rw [List.pairwise_map]
  apply (pairwise_mergeSort_stable ?_ ?_ (h.pairwise_joined.filter _)).imp
  · rintro a b ⟨hle, htie⟩
    rw [decide_eq_true_eq, rate_le_iff] at hle htie
    rcases Nat.lt_or_eq_of_le hle with hlt | he
    · exact .inl hlt
    · exact .inr ⟨he.symm, htie (Nat.le_of_eq he.symm)⟩
  · intro a b c hab hbc
    rw [decide_eq_true_eq, rate_le_iff] at hab hbc ⊢
    exact Nat.le_trans hbc hab
  · intro a b
    rw [Bool.or_eq_true, decide_eq_true_eq, decide_eq_true_eq, rate_le_iff, rate_le_iff]
    exact Nat.le_total _ _

theorem Ordered.best_perm {s : Store} (h : s.Ordered) (query : String) :
    ((s.best query).map Prod.fst).Perm
      (s.chunks.filter fun c => (sharedGrams query c).Nonempty) := by
  have hfilter : (s.chunks.filter fun c => (sharedGrams query c).Nonempty) =
      (s.joined.filter fun p => 0 < (rate query p).score).map Prod.fst := by
    rw [← h.joined_rows, List.filter_map]
    congr 1
    apply List.filter_congr
    intro p _
    rw [Function.comp_apply, decide_eq_decide, rate_pos_iff]
  rw [hfilter]
  exact (List.mergeSort_perm _ _).map Prod.fst

theorem mem_best {s : Store} {query : String} {p : ChunkRow × String} (h : p ∈ s.best query) :
    p ∈ s.joined ∧ 0 < (rate query p).score := by
  obtain ⟨hm, hp⟩ := List.mem_filter.mp (List.mem_mergeSort.mp h)
  exact ⟨hm, of_decide_eq_true hp⟩

theorem Ordered.search_eq {s : Store} (h : s.Ordered) (query : String) (count : Nat) :
    s.search query count = ((s.best query).take count).map (rate query) := by
  rw [search, h.ranked_eq, List.map_take]

structure Ranks (s : Store) (query : String) (ranking : List ChunkRow) : Prop where
  sharing : ranking.Perm (s.chunks.filter fun c => (sharedGrams query c).Nonempty)
  ordered : ranking.Pairwise (Better query)

theorem Ranks.unique {s : Store} {query : String} {xs ys : List ChunkRow}
    (hx : s.Ranks query xs) (hy : s.Ranks query ys) : xs = ys :=
  List.Perm.eq_of_pairwise (fun _ _ _ _ hab hba => absurd hba hab.asymm) hx.ordered hy.ordered
    (hx.sharing.trans hy.sharing.symm)

theorem Ranks.card_le {s : Store} {query : String} {ranking : List ChunkRow}
    (hr : s.Ranks query ranking) {count : Nat} {c d : ChunkRow} (hc : c ∈ s.chunks)
    (hout : c ∉ ranking.take count) (hd : d ∈ ranking.take count) :
    (sharedGrams query c).card ≤ (sharedGrams query d).card := by
  by_cases hs : (sharedGrams query c).Nonempty
  · -- It stands in the ranking, but behind all of the first.
    have hm : c ∈ ranking.take count ++ ranking.drop count := by
      rw [List.take_append_drop, hr.sharing.mem_iff, List.mem_filter]
      exact ⟨hc, decide_eq_true hs⟩
    have hdrop := (List.mem_append.mp hm).resolve_left hout
    have hpairs := hr.ordered
    rw [← List.take_append_drop count ranking, List.pairwise_append] at hpairs
    rcases hpairs.2.2 d hd c hdrop with hlt | ⟨he, -⟩
    · exact Nat.le_of_lt hlt
    · exact Nat.le_of_eq he.symm
  · rw [Finset.not_nonempty_iff_eq_empty.mp hs, Finset.card_empty]
    exact Nat.zero_le _

/-- What is shown of a chunk: its text, its score and the name of its document. -/
structure Shows (s : Store) (query : String) (c : ChunkRow) (r : Retrieved) : Prop where
  text : r.text = c.text
  score : r.score = (Score.share query.toList c.text.toList).value
  source : ∃ d ∈ s.documents, d.id = c.document ∧ r.source = some d.name

theorem rate_shows {s : Store} {p : ChunkRow × String} (query : String) (hp : p ∈ s.joined) :
    s.Shows query p.1 (rate query p) where
  text := rfl
  score := rfl
  source := by
    obtain ⟨d, hd, hid, hname⟩ := mem_joined hp
    exact ⟨d, hd, hid, congrArg some hname⟩

/-- A search answers the first chunks of the ranking; what it leaves out is no
better, and a longer answer only adds to it. -/
structure Answers (s : Store) (query : String) (ranking : List ChunkRow) (count : Nat) : Prop where
  first : List.Forall₂ (s.Shows query) (ranking.take count) (s.search query count)
  positive : ∀ r ∈ s.search query count, 0 < r.score
  maximal : ∀ c ∈ s.chunks, c ∉ ranking.take count → ∀ r ∈ s.search query count,
    (Score.share query.toList c.text.toList).value ≤ r.score
  extended : s.search query count <+: s.search query (count + 1)

theorem Ordered.ranks {s : Store} (h : s.Ordered) (query : String) :
    s.Ranks query ((s.best query).map Prod.fst) where
  sharing := h.best_perm query
  ordered := h.best_better query

theorem Ordered.answers {s : Store} (h : s.Ordered) (query : String) (count : Nat) :
    s.Answers query ((s.best query).map Prod.fst) count where
  first := by
    rw [h.search_eq, ← List.map_take, List.forall₂_map_left_iff, List.forall₂_map_right_iff,
      List.forall₂_same]
    intro p hp
    exact rate_shows query (mem_best (List.mem_of_mem_take hp)).1
  positive := by
    rw [h.search_eq]
    intro r hr
    obtain ⟨p, hp, rfl⟩ := List.mem_map.mp hr
    exact (mem_best (List.mem_of_mem_take hp)).2
  maximal := by
    intro c hc hout r hr
    rw [h.search_eq] at hr
    obtain ⟨p, hp, rfl⟩ := List.mem_map.mp hr
    have hfirst : p.1 ∈ ((s.best query).map Prod.fst).take count := by
      rw [← List.map_take]
      exact List.mem_map_of_mem hp
    exact (rate_le_iff query (c, "") p).mpr ((h.ranks query).card_le hc hout hfirst)
  extended := by
    rw [search, search]
    exact List.take_prefix_take_left (Nat.le_succ count)

end Store

end Cardwalk
