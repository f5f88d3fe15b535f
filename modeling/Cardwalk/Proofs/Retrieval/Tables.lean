import Mathlib.Data.List.Nodup
import Cardwalk.Retrieval.Store

/-!
# The two tables of a store

Each transaction of a store is described by what it leaves in the two tables.
Identifiers and sources are not repeated and every chunk belongs to a
document, so taking in a document removes exactly the earlier one from the
same source and its chunks.
-/

set_option autoImplicit false

namespace Cardwalk

theorem ChunkRow.number_eq_mapIdx (document position : Nat) (texts : List String) :
    ChunkRow.number document position texts =
      texts.mapIdx fun i text => ⟨document, position + i, text⟩ := by
  induction texts generalizing position with
  | nil => rfl
  | cons text texts ih =>
    rw [number, ih, List.mapIdx_cons]
    simp only [Nat.add_zero, List.cons.injEq, true_and]
    congr 1
    funext i text
    rw [Nat.add_assoc, Nat.add_comm 1 i]

theorem ChunkRow.number_document {document position : Nat} {texts : List String}
    {c : ChunkRow} (h : c ∈ ChunkRow.number document position texts) : c.document = document := by
  rw [number_eq_mapIdx] at h
  obtain ⟨i, hi, rfl⟩ := List.mem_mapIdx.mp h
  rfl

theorem pairwise_snoc {α : Type} {r : α → α → Prop} {xs : List α} {x : α} (h : xs.Pairwise r)
    (hx : ∀ a ∈ xs, r a x) : (xs ++ [x]).Pairwise r := by
  rw [List.pairwise_append]
  refine ⟨h, List.pairwise_singleton r x, ?_⟩
  intro a ha b hb
  rw [List.mem_singleton.mp hb]
  exact hx a ha

namespace Store

/-- What every store is like that was empty once. -/
structure Wellformed (s : Store) : Prop where
  ids : s.documents.Pairwise fun a b => a.id < b.id
  sources : s.documents.Pairwise fun a b => a.source ≠ b.source
  fresh : ∀ d ∈ s.documents, d.id ≤ s.lastId
  owned : ∀ c ∈ s.chunks, ∃ d ∈ s.documents, c.document = d.id

theorem empty_wellformed : empty.Wellformed where
  ids := .nil
  sources := .nil
  fresh := by simp [empty]
  owned := by simp [empty]

namespace Wellformed

variable {s : Store}

theorem eq_of_id (hw : s.Wellformed) {a b : DocumentRow} (ha : a ∈ s.documents)
    (hb : b ∈ s.documents) (h : a.id = b.id) : a = b :=
  List.inj_on_of_nodup_map
    (List.pairwise_map.mpr (hw.ids.imp fun hlt => Nat.ne_of_lt hlt)) ha hb h

theorem eq_of_source (hw : s.Wellformed) {a b : DocumentRow} (ha : a ∈ s.documents)
    (hb : b ∈ s.documents) (h : a.source = b.source) : a = b :=
  List.inj_on_of_nodup_map (List.pairwise_map.mpr hw.sources) ha hb h

end Wellformed

def chunksOf (s : Store) (id : Nat) : List ChunkRow := s.chunks.filter fun c => c.document = id

theorem withChunks_eq (s : Store) (d : DocumentRow) : s.withChunks d = ⟨d, s.chunksOf d.id⟩ := rfl

theorem Wellformed.chunksOf_next {s : Store} (hw : s.Wellformed) :
    s.chunksOf (s.lastId + 1) = [] := by
  rw [chunksOf, List.filter_eq_nil_iff]
  intro c hc
  obtain ⟨d, hd, he⟩ := hw.owned c hc
  have hle := hw.fresh d hd
  rw [he, decide_eq_true_eq]
  omega

theorem remove_eq (s : Store) (id : Int) : s.remove id = (s.contains id, s.delete id) := rfl

theorem delete_documents (s : Store) (id : Int) :
    (s.delete id).documents = s.documents.filter fun d => (d.id : Int) ≠ id := rfl

theorem delete_chunks (s : Store) (id : Int) :
    (s.delete id).chunks = s.chunks.filter fun c => (c.document : Int) ≠ id := rfl

theorem delete_chunksOf (s : Store) {id : Int} {n : Nat} (hne : (n : Int) ≠ id) :
    (s.delete id).chunksOf n = s.chunksOf n := by
  rw [chunksOf, delete_chunks, List.filter_filter, chunksOf]
  apply List.filter_congr
  intro c _
  by_cases he : c.document = n
  · simp [he, hne]
  · simp [he]

theorem contains_iff (s : Store) (id : Int) :
    s.contains id = true ↔ ∃ d ∈ s.documents, (d.id : Int) = id := by
  simp [contains, remove, deleteRow, deleteChunks, List.length_pos_iff_exists_mem]

theorem Wellformed.delete {s : Store} (hw : s.Wellformed) (id : Int) :
    (s.delete id).Wellformed where
  ids := hw.ids.filter _
  sources := hw.sources.filter _
  fresh d hd := hw.fresh d (List.mem_of_mem_filter hd)
  owned c hc := by
    obtain ⟨hm, hne⟩ := List.mem_filter.mp hc
    obtain ⟨d, hd, he⟩ := hw.owned c hm
    exact ⟨d, List.mem_filter.mpr ⟨hd, by rw [← he]; exact hne⟩, he⟩

theorem idOf?_none {s : Store} {source : String} (h : s.idOf? source = none) :
    ∀ d ∈ s.documents, d.source ≠ source := by
  simpa [idOf?] using h

theorem Wellformed.idOf?_some {s : Store} (hw : s.Wellformed) {source : String} {id : Nat}
    (h : s.idOf? source = some id) : ∀ d ∈ s.documents, d.id = id ↔ d.source = source := by
  obtain ⟨e, he, rfl⟩ := Option.map_eq_some_iff.mp h
  have hm : e ∈ s.documents := List.mem_of_find?_eq_some he
  have hs : e.source = source := by simpa using List.find?_some he
  intro d hd
  constructor
  · intro hid
    rw [hw.eq_of_id hd hm hid, hs]
  · intro hsource
    rw [hw.eq_of_source hd hm (by rw [hsource, hs])]

theorem cleared_wellformed {s : Store} (hw : s.Wellformed) (source : String) :
    (s.cleared source).Wellformed := by
  unfold cleared
  split
  · exact hw.delete _
  · exact hw

theorem cleared_documents {s : Store} (hw : s.Wellformed) (source : String) :
    (s.cleared source).documents = s.documents.filter fun d => d.source ≠ source := by
  unfold cleared
  split
  · rename_i id h
    rw [delete_documents]
    apply List.filter_congr
    intro d hd
    rw [decide_eq_decide, ne_eq, ne_eq, ← hw.idOf?_some h d hd]
    omega
  · rename_i h
    symm
    rw [List.filter_eq_self]
    simpa using idOf?_none h

theorem cleared_chunksOf {s : Store} (hw : s.Wellformed) {source : String} {d : DocumentRow}
    (hd : d ∈ s.documents) (hne : d.source ≠ source) :
    (s.cleared source).chunksOf d.id = s.chunksOf d.id := by
  unfold cleared
  split
  · rename_i id h
    apply delete_chunksOf
    have hid := (hw.idOf?_some h d hd).not.mpr hne
    omega
  · rfl

theorem cleared_lastId (s : Store) (source : String) :
    (s.cleared source).lastId = s.lastId := by
  unfold cleared
  split <;> rfl

theorem insertChunks_eq (rows : List ChunkRow) (s : Store) :
    s.insertChunks rows = { s with chunks := s.chunks ++ rows } := by
  induction rows generalizing s with
  | nil => simp [insertChunks]
  | cons row rows ih => simp [insertChunks, ih, insertChunk]

theorem ingest_refused (s : Store) (name source created : String) {text : String}
    (ht : pieces text = []) : s.ingest name source text created = .error (.noText name) := by
  simp [ingest, ht]

def nextRow (s : Store) (name source created : String) : DocumentRow :=
  ⟨s.lastId + 1, name, source, created⟩

def taken (s : Store) (name source text created : String) : Store where
  documents := (s.cleared source).documents ++ [s.nextRow name source created]
  chunks := (s.cleared source).chunks ++ ChunkRow.number (s.lastId + 1) 0 (pieces text)
  lastId := s.lastId + 1

theorem ingest_taken {s : Store} (hw : s.Wellformed) (name source created : String)
    {text : String} (ht : pieces text ≠ []) :
    s.ingest name source text created =
      .ok (⟨s.nextRow name source created, ChunkRow.number (s.lastId + 1) 0 (pieces text)⟩,
        s.taken name source text created) := by
  have hnone : ((s.cleared source).documents.any fun d => d.source = source) = false := by
    rw [cleared_documents hw]
    simp
  have hrow : (s.cleared source).insertRow name source created =
      .ok (s.nextRow name source created,
        { s.cleared source with
          documents := (s.cleared source).documents ++ [s.nextRow name source created]
          lastId := s.lastId + 1 }) := by
    simp [insertRow, hnone, nextRow, cleared_lastId]
  rw [ingest, if_neg (by simpa using ht), hrow]
  simp [insertChunks_eq, taken, nextRow]

section Taken

variable {s : Store} (hw : s.Wellformed) (name source text created : String)
include hw

theorem taken_documents :
    (s.taken name source text created).documents =
      (s.documents.filter fun d => d.source ≠ source) ++ [s.nextRow name source created] := by
  rw [taken, cleared_documents hw]

theorem taken_chunksOf_old {d : DocumentRow} (hd : d ∈ s.documents) (hne : d.source ≠ source) :
    (s.taken name source text created).chunksOf d.id = s.chunksOf d.id := by
  have hnew : ((ChunkRow.number (s.lastId + 1) 0 (pieces text)).filter fun c =>
      c.document = d.id) = [] := by
    rw [List.filter_eq_nil_iff]
    intro c hc
    have hle := hw.fresh d hd
    rw [ChunkRow.number_document hc, decide_eq_true_eq]
    omega
  rw [chunksOf, taken, List.filter_append, hnew, List.append_nil]
  exact cleared_chunksOf hw hd hne

theorem taken_chunksOf_next :
    (s.taken name source text created).chunksOf (s.lastId + 1) =
      ChunkRow.number (s.lastId + 1) 0 (pieces text) := by
  have hold := (cleared_wellformed hw source).chunksOf_next
  rw [cleared_lastId, chunksOf] at hold
  rw [chunksOf, taken, List.filter_append, hold, List.nil_append, List.filter_eq_self]
  intro c hc
  rw [ChunkRow.number_document hc, decide_eq_true_eq]

theorem taken_wellformed : (s.taken name source text created).Wellformed where
  ids := by
    rw [taken_documents hw]
    apply pairwise_snoc (hw.ids.filter _)
    intro a ha
    exact Nat.lt_succ_of_le (hw.fresh a (List.mem_of_mem_filter ha))
  sources := by
    rw [taken_documents hw]
    apply pairwise_snoc (hw.sources.filter _)
    intro a ha
    simpa [nextRow] using (List.mem_filter.mp ha).2
  fresh d hd := by
    rw [taken_documents hw] at hd
    rcases List.mem_append.mp hd with hd | hd
    · exact Nat.le_succ_of_le (hw.fresh d (List.mem_of_mem_filter hd))
    · obtain rfl := List.mem_singleton.mp hd
      exact Nat.le_refl _
  owned c hc := by
    rcases List.mem_append.mp hc with hc | hc
    · obtain ⟨d, hd, he⟩ := (cleared_wellformed hw source).owned c hc
      exact ⟨d, List.mem_append_left _ hd, he⟩
    · exact ⟨s.nextRow name source created, by simp [taken], ChunkRow.number_document hc⟩

end Taken

theorem isNewer_iff (a b : Document) :
    isNewer a b = true ↔ b.created < a.created ∨ a.created = b.created ∧ b.id ≤ a.id := by
  simp [isNewer]

theorem isNewer_trans (a b c : Document) (hab : isNewer a b = true) (hbc : isNewer b c = true) :
    isNewer a c = true := by
  rw [isNewer_iff] at hab hbc ⊢
  rcases hab with hab | ⟨hab, hid⟩
  · rcases hbc with hbc | ⟨hbc, -⟩
    · exact .inl (String.lt_trans hbc hab)
    · exact .inl (hbc ▸ hab)
  · rw [hab]
    rcases hbc with hbc | ⟨hbc, hid'⟩
    · exact .inl hbc
    · exact .inr ⟨hbc, Nat.le_trans hid' hid⟩

theorem isNewer_total (a b : Document) : (isNewer a b || isNewer b a) = true := by
  rw [Bool.or_eq_true, isNewer_iff, isNewer_iff]
  by_cases hab : a.created < b.created
  · exact .inr (.inl hab)
  · by_cases hba : b.created < a.created
    · exact .inl (.inl hba)
    · have he := String.le_antisymm (String.not_lt.mp hba) (String.not_lt.mp hab)
      rcases Nat.le_total b.id a.id with h | h
      · exact .inl (.inr ⟨he, h⟩)
      · exact .inr (.inr ⟨he.symm, h⟩)

theorem isNewer_antisymm {a b : Document} (hab : isNewer a b = true)
    (hba : isNewer b a = true) : a.id = b.id := by
  rw [isNewer_iff] at hab hba
  rcases hab with hab | ⟨hab, hid⟩
  · rcases hba with hba | ⟨hba, -⟩
    · exact absurd (String.lt_trans hab hba) (String.lt_irrefl _)
    · exact absurd (hba ▸ hab) (String.lt_irrefl _)
  · rcases hba with hba | ⟨-, hid'⟩
    · exact absurd (hab ▸ hba) (String.lt_irrefl _)
    · exact Nat.le_antisymm hid' hid

theorem list_eq_reverse {s : Store} (hw : s.Wellformed)
    (hc : s.documents.Pairwise fun a b => a.created ≤ b.created) :
    s.list = (s.documents.map s.withChunks).reverse := by
  -- Two sorted lists of the same documents agree, since no number is repeated.
  refine List.Perm.eq_of_pairwise ?_ (List.pairwise_mergeSort isNewer_trans isNewer_total _) ?_
    ((List.mergeSort_perm _ _).trans (List.reverse_perm _).symm)
  · intro a b ha hb hab hba
    obtain ⟨d, hd, rfl⟩ := List.mem_map.mp (List.mem_mergeSort.mp ha)
    obtain ⟨e, he, rfl⟩ := List.mem_map.mp (List.mem_reverse.mp hb)
    rw [hw.eq_of_id hd he (isNewer_antisymm hab hba)]
  · rw [List.pairwise_reverse, List.pairwise_map]
    refine (hw.ids.and hc).imp ?_
    rintro a b ⟨hid, hcreated⟩
    rw [isNewer_iff]
    by_cases hlt : a.created < b.created
    · exact .inl hlt
    · exact .inr ⟨String.le_antisymm (String.not_lt.mp hlt) hcreated, Nat.le_of_lt hid⟩

end Store

end Cardwalk
