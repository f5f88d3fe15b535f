import Cardwalk.Proofs.Retrieval.Tables

/-!
# Histories of a store

A store that began empty answers requests in any order. Its documents are
those whose last ingest was not undone: no later document came from the same
source, and none of the later requests deleted it. The chunks in the store
are those of its documents.
-/

set_option autoImplicit false

namespace Cardwalk.Store

/-- What a store is asked for; a document comes with the time it is taken in. -/
inductive Request where
  | ingest (name source text created : String)
  | delete (id : Int)
  | list
  | search (query : String) (count : Nat)

inductive Reply where
  | ingested (answer : Except IngestError Document)
  | deleted (found : Bool)
  | listed (documents : List Document)
  | found (chunks : List Retrieved)

abbrev Exchange := Request × Reply

def answer (s : Store) : Request → Reply × Store
  | .ingest name source text created =>
    match s.ingest name source text created with
    | .error e => (.ingested (.error e), s)
    | .ok (d, s') => (.ingested (.ok d), s')
  | .delete id => (.deleted (s.remove id).1, (s.remove id).2)
  | .list => (.listed s.list, s)
  | .search query count => (.found (s.search query count), s)

def serve (s : Store) : List Request → List Exchange × Store
  | [] => ([], s)
  | q :: rest =>
    ((q, (s.answer q).1) :: ((s.answer q).2.serve rest).1, ((s.answer q).2.serve rest).2)

/-- The document of this row was taken in with this text. -/
def Takes (row : DocumentRow) (text : String) (x : Exchange) : Prop :=
  ∃ chunks, x = (.ingest row.name row.source text row.created, .ingested (.ok ⟨row, chunks⟩))

/-- The document of this row does not outlast the exchange. -/
def Displaces (row : DocumentRow) : Exchange → Prop
  | (.ingest _ source _ _, .ingested (.ok _)) => source = row.source
  | (.delete id, _) => (row.id : Int) = id
  | _ => False

/-- The document of this row is there still, with this text. -/
def Current (history : List Exchange) (row : DocumentRow) (text : String) : Prop :=
  ∃ before x after, history = before ++ x :: after ∧ Takes row text x ∧
    ∀ y ∈ after, ¬ Displaces row y

def givenIds (history : List Exchange) : List Nat :=
  history.filterMap fun
    | (_, .ingested (.ok d)) => some d.id
    | _ => none

/-- The time of a request. A text without chunks is refused before the clock
is read. -/
def Request.created? : Request → Option String
  | .ingest _ _ text created => if pieces text = [] then none else some created
  | _ => none

/-- The clock does not go backwards between the requests. -/
def Forward (requests : List Request) : Prop :=
  (requests.filterMap Request.created?).Pairwise (· ≤ ·)

theorem current_nil (row : DocumentRow) (text : String) : ¬ Current [] row text := by
  rintro ⟨before, x, after, h, -⟩
  simp at h

theorem current_snoc (history : List Exchange) (x : Exchange) (row : DocumentRow)
    (text : String) :
    Current (history ++ [x]) row text ↔
      Current history row text ∧ ¬ Displaces row x ∨ Takes row text x := by
  constructor
  · rintro ⟨before, y, after, h, ht, hd⟩
    -- The document comes from the new exchange exactly if nothing stands behind.
    rcases List.eq_nil_or_concat after with rfl | ⟨after, z, rfl⟩
    · obtain ⟨-, hx⟩ := List.append_inj' h rfl
      obtain rfl : x = y := by simpa using hx
      exact .inr ht
    · rw [List.concat_eq_append, ← List.cons_append, ← List.append_assoc] at h
      obtain ⟨rfl, hx⟩ := List.append_inj' h rfl
      obtain rfl : x = z := by simpa using hx
      exact .inl ⟨⟨before, y, after, rfl, ht, fun w hw => hd w (by simp [hw])⟩,
        hd x (by simp)⟩
  · rintro (⟨⟨before, y, after, rfl, ht, hd⟩, hx⟩ | ht)
    · refine ⟨before, y, after ++ [x], by simp, ht, fun w hw => ?_⟩
      rcases List.mem_append.mp hw with hw | hw
      · exact hd w hw
      · obtain rfl := List.mem_singleton.mp hw
        exact hx
    · exact ⟨history, x, [], rfl, ht, by simp⟩

theorem Current.created_mem {history : List Exchange} {row : DocumentRow} {text : String}
    (h : Current history row text) (hp : pieces text ≠ []) :
    row.created ∈ (history.map Prod.fst).filterMap Request.created? := by
  obtain ⟨before, x, after, rfl, ⟨chunks, rfl⟩, -⟩ := h
  simp [Request.created?, hp]

theorem givenIds_snoc (history : List Exchange) (x : Exchange) :
    givenIds (history ++ [x]) = givenIds history ++ givenIds [x] := List.filterMap_append

theorem Forward.before {history requests : List Request}
    (h : Forward (history ++ requests)) : Forward history := by
  unfold Forward at h ⊢
  rw [List.filterMap_append] at h
  exact (List.pairwise_append.mp h).1

structure Keeps (history : List Exchange) (s : Store) : Prop extends s.Wellformed where
  current : ∀ row, row ∈ s.documents ↔ ∃ text, Current history row text
  kept : ∀ row text, Current history row text → pieces text ≠ [] ∧
    s.chunksOf row.id = ChunkRow.number row.id 0 (pieces text)
  forward : s.documents.Pairwise fun a b => a.created ≤ b.created
  given : (givenIds history).Pairwise (· < ·)
  bounded : ∀ id ∈ givenIds history, id ≤ s.lastId

theorem empty_keeps : Keeps [] empty where
  toWellformed := empty_wellformed
  current row := iff_of_false (by simp [empty]) fun ⟨text, h⟩ => current_nil row text h
  kept row text h := absurd h (current_nil row text)
  forward := .nil
  given := .nil
  bounded := by simp [givenIds]

theorem Keeps.quiet {history : List Exchange} {s : Store} (h : Keeps history s) {x : Exchange}
    (hd : ∀ row, ¬ Displaces row x) (ht : ∀ row text, ¬ Takes row text x)
    (hg : givenIds [x] = []) : Keeps (history ++ [x]) s where
  toWellformed := h.toWellformed
  current row := by simpa [current_snoc, hd, ht] using h.current row
  kept row text hc := by
    rw [current_snoc] at hc
    rcases hc with ⟨hc, -⟩ | hc
    · exact h.kept row text hc
    · exact absurd hc (ht row text)
  forward := h.forward
  given := by simpa [givenIds_snoc, hg] using h.given
  bounded := by simpa [givenIds_snoc, hg] using h.bounded

theorem Keeps.delete {history : List Exchange} {s : Store} (h : Keeps history s) (id : Int)
    (found : Bool) : Keeps (history ++ [(.delete id, .deleted found)]) (s.delete id) where
  toWellformed := h.toWellformed.delete id
  current row := by
    rw [delete_documents, List.mem_filter, h.current row]
    simp [current_snoc, Takes, Displaces]
  kept row text hc := by
    rw [current_snoc] at hc
    rcases hc with ⟨hc, hne⟩ | ⟨chunks, hc⟩
    · rw [delete_chunksOf s hne]
      exact h.kept row text hc
    · simp at hc
  forward := h.forward.filter _
  given := by
    rw [givenIds_snoc, show givenIds [_] = [] from rfl, List.append_nil]
    exact h.given
  bounded := by
    rw [givenIds_snoc, show givenIds [_] = [] from rfl, List.append_nil]
    exact h.bounded

def taking (s : Store) (name source text created : String) : Exchange :=
  (.ingest name source text created, .ingested (.ok ⟨s.nextRow name source created,
    ChunkRow.number (s.lastId + 1) 0 (pieces text)⟩))

theorem takes_taking (s : Store) (name source text created : String) (row : DocumentRow)
    (text' : String) :
    Takes row text' (s.taking name source text created) ↔
      row = s.nextRow name source created ∧ text' = text := by
  constructor
  · rintro ⟨chunks, hx⟩
    simp only [taking, Prod.mk.injEq, Request.ingest.injEq, Reply.ingested.injEq,
      Except.ok.injEq, Document.mk.injEq] at hx
    obtain ⟨⟨-, -, rfl, -⟩, rfl, -⟩ := hx
    exact ⟨rfl, rfl⟩
  · rintro ⟨rfl, rfl⟩
    exact ⟨_, rfl⟩

theorem Keeps.ingest {history : List Exchange} {s : Store} (h : Keeps history s)
    (name source created : String) {text : String} (ht : pieces text ≠ [])
    (hc : ∀ row ∈ s.documents, row.created ≤ created) :
    Keeps (history ++ [s.taking name source text created])
      (s.taken name source text created) where
  toWellformed := taken_wellformed h.toWellformed name source text created
  current row := by
    rw [taken_documents h.toWellformed, List.mem_append, List.mem_filter, h.current row,
      List.mem_singleton, decide_eq_true_eq]
    simp only [current_snoc, takes_taking]
    constructor
    · rintro (⟨⟨text', hcur⟩, hne⟩ | rfl)
      · exact ⟨text', .inl ⟨hcur, fun e => hne e.symm⟩⟩
      · exact ⟨text, .inr ⟨rfl, rfl⟩⟩
    · rintro ⟨text', ⟨hcur, hne⟩ | ⟨rfl, -⟩⟩
      · exact .inl ⟨⟨text', hcur⟩, fun e => hne e.symm⟩
      · exact .inr rfl
  kept row text' hcur := by
    rw [current_snoc, takes_taking] at hcur
    rcases hcur with ⟨hcur, hne⟩ | ⟨rfl, rfl⟩
    · have hm : row ∈ s.documents := (h.current row).mpr ⟨text', hcur⟩
      rw [taken_chunksOf_old h.toWellformed name source text created hm fun e => hne e.symm]
      exact h.kept row text' hcur
    · exact ⟨ht, taken_chunksOf_next h.toWellformed name source text' created⟩
  forward := by
    rw [taken_documents h.toWellformed]
    apply pairwise_snoc (h.forward.filter _)
    intro a ha
    exact hc a (List.mem_of_mem_filter ha)
  given := by
    rw [givenIds_snoc]
    apply pairwise_snoc h.given
    intro id hid
    exact Nat.lt_succ_of_le (h.bounded id hid)
  bounded id hid := by
    rw [givenIds_snoc] at hid
    rcases List.mem_append.mp hid with hid | hid
    · exact Nat.le_succ_of_le (h.bounded id hid)
    · obtain rfl := List.mem_singleton.mp hid
      exact Nat.le_refl _

theorem Keeps.answer {history : List Exchange} {s : Store} (h : Keeps history s) (q : Request)
    (hf : Forward (history.map Prod.fst ++ [q])) :
    Keeps (history ++ [(q, (s.answer q).1)]) (s.answer q).2 := by
  cases q with
  | ingest name source text created =>
    by_cases ht : pieces text = []
    · simp only [Store.answer, ingest_refused s name source created ht]
      exact h.quiet (fun row => id) (fun row text ⟨chunks, hx⟩ => by simp at hx) rfl
    · simp only [Store.answer, ingest_taken h.toWellformed name source created ht]
      refine h.ingest name source created ht fun row hm => ?_
      obtain ⟨text', hcur⟩ := (h.current row).mp hm
      have hmem := hcur.created_mem (h.kept row text' hcur).1
      unfold Forward at hf
      rw [List.filterMap_append] at hf
      exact (List.pairwise_append.mp hf).2.2 _ hmem _ (by simp [Request.created?, ht])
  | delete id => exact h.delete id _
  | list => exact h.quiet (fun row => id) (fun row text ⟨chunks, hx⟩ => by simp at hx) rfl
  | search query count =>
    exact h.quiet (fun row => id) (fun row text ⟨chunks, hx⟩ => by simp at hx) rfl

theorem Keeps.serve {history : List Exchange} {s : Store} (h : Keeps history s)
    (requests : List Request) (hf : Forward (history.map Prod.fst ++ requests)) :
    Keeps (history ++ (s.serve requests).1) (s.serve requests).2 := by
  induction requests generalizing history s with
  | nil => simpa [Store.serve] using h
  | cons q rest ih =>
    have hall : Forward ((history.map Prod.fst ++ [q]) ++ rest) := by simpa using hf
    have hstep := h.answer q hall.before
    have hrest := ih hstep (by simpa using hf)
    simpa [Store.serve] using hrest

theorem Keeps.list_eq {history : List Exchange} {s : Store} (h : Keeps history s) :
    s.list = (s.documents.map s.withChunks).reverse :=
  list_eq_reverse h.toWellformed h.forward

theorem Keeps.chunksOf_eq {history : List Exchange} {s : Store} (h : Keeps history s)
    {row : DocumentRow} {text : String} (hcur : Current history row text) :
    s.chunksOf row.id = (pieces text).mapIdx fun i piece => ⟨row.id, i, piece⟩ := by
  rw [(h.kept row text hcur).2, ChunkRow.number_eq_mapIdx]
  simp only [Nat.zero_add]

theorem Keeps.mem_list {history : List Exchange} {s : Store} (h : Keeps history s)
    (d : Document) :
    d ∈ s.list ↔ ∃ text, Current history d.toDocumentRow text ∧
      d.chunks = (pieces text).mapIdx fun i piece => ⟨d.id, i, piece⟩ := by
  rw [h.list_eq, List.mem_reverse, List.mem_map]
  constructor
  · rintro ⟨row, hm, rfl⟩
    obtain ⟨text, hcur⟩ := (h.current row).mp hm
    exact ⟨text, hcur, h.chunksOf_eq hcur⟩
  · rintro ⟨text, hcur, hchunks⟩
    refine ⟨d.toDocumentRow, (h.current _).mpr ⟨text, hcur⟩, ?_⟩
    rw [withChunks_eq, h.chunksOf_eq hcur, ← hchunks]

theorem Keeps.delete_list {history : List Exchange} {s : Store} (h : Keeps history s)
    (id : Int) : (s.delete id).list = s.list.filter fun d => (d.id : Int) ≠ id := by
  rw [(h.delete id false).list_eq, h.list_eq, List.filter_reverse, List.filter_map,
    delete_documents]
  congr 1
  apply List.map_congr_left
  intro d hd
  have hne : (d.id : Int) ≠ id := by simpa using (List.mem_filter.mp hd).2
  rw [withChunks_eq, withChunks_eq, delete_chunksOf s hne]

/-- The store is the map from sources to documents that its history describes;
`documents` is what it lists. -/
structure Refines (history : List Exchange) (s : Store) (documents : List Document) : Prop where
  listing : s.answer .list = (.listed documents, s)
  listed : ∀ d, d ∈ documents ↔ ∃ text, Current history d.toDocumentRow text ∧
    d.chunks = (pieces text).mapIdx fun i piece => ⟨d.id, i, piece⟩
  sources : (documents.map fun d => d.source).Nodup
  newest : documents.Pairwise fun a b => b.id < a.id ∧ b.created ≤ a.created
  counted : ∀ d ∈ documents, ∀ text, Current history d.toDocumentRow text →
    d.chunks.length = (pieces text).length ∧ 1 ≤ d.chunks.length
  chunks : ∀ d ∈ documents, ∀ text, Current history d.toDocumentRow text →
    s.chunksOf d.id = (pieces text).mapIdx fun i piece => ⟨d.id, i, piece⟩
  owned : ∀ c ∈ s.chunks, ∃ d ∈ documents, c.document = d.id
  given : (givenIds history).Pairwise (· < ·)
  refused : ∀ name source text created,
    ((∃ e, (s.answer (.ingest name source text created)).1 = .ingested (.error e)) ↔
      pieces text = []) ∧
    (pieces text = [] → (s.answer (.ingest name source text created)).2 = s)
  deleted : ∀ id, ∃ found s', s.answer (.delete id) = (.deleted found, s') ∧
    (found = true ↔ ∃ d ∈ documents, (d.id : Int) = id) ∧
    s'.list = (documents.filter fun d => (d.id : Int) ≠ id) ∧
    s'.chunks = s.chunks.filter fun c => (c.document : Int) ≠ id

theorem Keeps.refines {history : List Exchange} {s : Store} (h : Keeps history s) :
    Refines history s s.list where
  listing := rfl
  listed := h.mem_list
  sources := by
    rw [h.list_eq, List.map_reverse, List.nodup_reverse, List.map_map]
    exact List.pairwise_map.mpr h.sources
  newest := by
    rw [h.list_eq, List.pairwise_reverse, List.pairwise_map]
    exact h.ids.and h.forward
  counted d hd text hcur := by
    obtain ⟨text', hcur', hd'⟩ := (h.mem_list d).mp hd
    have hlength : d.chunks.length = (pieces text).length := by
      rw [hd', ← h.chunksOf_eq hcur', h.chunksOf_eq hcur, List.length_mapIdx]
    have hp := List.length_pos_iff.mpr (h.kept _ text hcur).1
    exact ⟨hlength, by omega⟩
  chunks d _ text hcur := h.chunksOf_eq hcur
  owned c hc := by
    obtain ⟨row, hm, he⟩ := h.owned c hc
    exact ⟨s.withChunks row, by rw [h.list_eq]; simpa using ⟨row, hm, rfl⟩, he⟩
  given := h.given
  refused name source text created := by
    by_cases ht : pieces text = []
    · simp [Store.answer, ingest_refused s name source created ht, ht]
    · simp [Store.answer, ingest_taken h.toWellformed name source created ht, ht]
  deleted id := by
    refine ⟨s.contains id, s.delete id, by rw [Store.answer, remove_eq], ?_, h.delete_list id,
      delete_chunks s id⟩
    rw [contains_iff, h.list_eq]
    simp [withChunks]

/-- A store that began empty refines its history. -/
theorem serve_refines (requests : List Request) (hf : Forward requests) :
    Refines (empty.serve requests).1 (empty.serve requests).2
      (empty.serve requests).2.list :=
  (empty_keeps.serve requests (by simpa using hf)).refines

def replacing : List Request :=
  [.ingest "a" "a.txt" "One." "1", .ingest "b" "b.txt" "Two." "2",
    .ingest "a" "a.txt" "Three." "2", .ingest "a" "a.txt" "" "3", .delete 2, .list]

theorem replacing_refines :
    Forward replacing ∧ (empty.serve replacing).2.documents.map (·.id) = [3] ∧
      Refines (empty.serve replacing).1 (empty.serve replacing).2
        (empty.serve replacing).2.list :=
  have hf : Forward replacing := by unfold Forward; decide
  ⟨hf, by decide, serve_refines replacing hf⟩

end Cardwalk.Store
