import Mathlib.Data.List.Forall2
import Cardwalk.Graph.Basic
import Cardwalk.Proofs.Json.Filled
import Cardwalk.Proofs.Json.Numbers
import Cardwalk.Proofs.Json.Values

/-!
# Loading a graph

A loaded graph has the cards and the connections of its text, one for each
document and in their order. The properties of a card are its own, followed by
those of its kind that it lacks. A graph that was loaded is loaded again from
what it is written as.
-/

set_option autoImplicit false

namespace Cardwalk

open Json (Doc Every Orderly ReadsBack maxDepth maxWord)
open Json.Decoder

namespace Members

def lacking (ms defaults : Members) : Members := defaults.filter fun m => m.1 ∉ ms.keys

theorem contains_iff {key : String} {ms : Members} : ms.contains key = true ↔ key ∈ ms.keys := by
  rw [contains, Option.isSome_iff_ne_none, ne_eq, get?_eq_none_iff, not_not]

theorem lacking_append {ms defaults : Members} {key : String} (v : Json)
    (h : key ∉ defaults.keys) : lacking (ms ++ [(key, v)]) defaults = lacking ms defaults := by
  refine List.filter_congr fun m hm => ?_
  have hne : m.1 ≠ key := fun he => h (he ▸ List.mem_map_of_mem hm)
  have hkeys : keys (ms ++ [(key, v)]) = ms.keys ++ [key] := List.map_append
  rw [hkeys]
  simp [hne]

theorem fill_eq {defaults : Members} (h : defaults.keys.Nodup) (ms : Members) :
    ms.fill defaults = ms ++ lacking ms defaults := by
  induction defaults generalizing ms with
  | nil => simp [fill, lacking]
  | cons m defaults ih =>
    obtain ⟨k, v⟩ := m
    obtain ⟨hk, hrest⟩ := List.nodup_cons.mp h
    have hstep : ms.fill ((k, v) :: defaults) = (ms.putNew k v).fill defaults := rfl
    rw [hstep, ih hrest, putNew]
    by_cases hin : k ∈ ms.keys
    · rw [if_pos (contains_iff.mpr hin)]
      simp [lacking, hin]
    · rw [if_neg (mt contains_iff.mp hin), lacking_append v hk]
      simp [lacking, hin]

theorem lacking_fill (ms defaults : Members) :
    lacking (ms ++ lacking ms defaults) defaults = [] := by
  refine List.filter_eq_nil_iff.mpr fun m hm => ?_
  by_cases hin : m.1 ∈ ms.keys
  · simp only [keys, List.map_append, List.mem_append] at hin ⊢
    simp [hin]
  · have hlacking : m ∈ lacking ms defaults := List.mem_filter.mpr ⟨hm, by simpa using hin⟩
    have hkey : m.1 ∈ (lacking ms defaults).map Prod.fst := List.mem_map_of_mem hlacking
    simp only [keys, List.map_append, List.mem_append]
    simp [hkey]

theorem nodup_fill {ms defaults : Members} (hms : ms.keys.Nodup) (hd : defaults.keys.Nodup) :
    (ms ++ lacking ms defaults).keys.Nodup := by
  rw [keys, List.map_append]
  refine List.nodup_append.mpr ⟨hms, hd.sublist (List.filter_sublist.map _), ?_⟩
  rintro a ha b hb rfl
  obtain ⟨m, hm, rfl⟩ := List.mem_map.mp hb
  have hnot : m.1 ∉ ms.keys := by simpa using (List.mem_filter.mp hm).2
  exact hnot ha

end Members

theorem CardKind.nodup_defaults (k : CardKind) : k.defaults.keys.Nodup := by
  cases k <;> decide

def Card.depth : Nat := maxDepth - 1 - 1 - 1

theorem CardKind.defaults_orderly (k : CardKind) (depth : Nat) :
    ∀ m ∈ k.defaults, Orderly depth m.2 := by
  cases k <;> simp [defaults, Orderly, Json.Distinct, Json.height, Json.ofNat]

theorem CardKind.defaults_readsBack (k : CardKind) :
    ∀ m ∈ k.defaults, Every ReadsBack m.2 := by
  have hcount : (Json.Number.int 5).ReadsBack := by decide +kernel
  cases k <;> simp [defaults, ReadsBack, Json.ofNat, hcount]

theorem Card.fillDefaults_eq (c : Card) : c.fillDefaults =
    { c with properties := c.properties ++ c.properties.lacking c.kind.defaults } := by
  rw [fillDefaults, Members.fill_eq c.kind.nodup_defaults]

/-- What a field says of its value, and the default where it is missing. -/
def Supplied {α : Type} (standard a : α) (form : Doc → Prop) : Option Doc → Prop
  | none => a = standard
  | some doc => form doc

theorem Supplied.of_given {α : Type} {d : Json.Decoder α} {depth : Nat} {standard a : α}
    {form : Doc → Prop} {doc : Option Doc} (h : Given d .text depth standard a doc)
    (hform : ∀ doc, d .text depth doc = .ok a → form doc) : Supplied standard a form doc := by
  cases doc with
  | none => exact h
  | some doc => exact hform doc h

structure Card.ReadFrom (doc : Doc) (c : Card) : Prop where
  id : recordKind.field? "id" doc = some (.string c.id)
  kind : recordKind.field? "type" doc = some (.string c.kind.name) ∨
    recordKind.field? "type" doc = some (.object [(.ok c.kind.name, .null)] .closed)
  x : Supplied 0 c.x (fun d => ∃ n, d = .number n ∧ c.x = n.toFloat) (recordKind.field? "x" doc)
  y : Supplied 0 c.y (fun d => ∃ n, d = .number n ∧ c.y = n.toFloat) (recordKind.field? "y" doc)
  properties : ∃ own : Members,
    Supplied [] own (fun d => d.value depth = .ok (.object own))
      (recordKind.field? "properties" doc) ∧
    c.properties = own ++ own.lacking c.kind.defaults

structure Connection.ReadFrom (doc : Doc) (e : Connection) : Prop where
  id : recordKind.field? "id" doc = some (.string e.id)
  source : recordKind.field? "startCardId" doc = some (.string e.source)
  sourcePort : Supplied 0 e.sourcePort (· = .number (.int e.sourcePort))
    (recordKind.field? "startPortIndex" doc)
  target : recordKind.field? "endCardId" doc = some (.string e.target)
  targetPort : Supplied 0 e.targetPort (· = .number (.int e.targetPort))
    (recordKind.field? "endPortIndex" doc)

namespace Graph

def docs (key : String) (doc : Doc) : List Doc :=
  match recordKind.field? key doc with
  | some (.array docs _) => docs
  | _ => []

structure ReadFrom (doc : Doc) (g : Graph) : Prop where
  cards : List.Forall₂ Card.ReadFrom (docs "cards" doc) g.cards
  connections : List.Forall₂ Connection.ReadFrom (docs "connections" doc) g.connections

end Graph

theorem Json.Decoder.RecordKind.Field.field?_text {ρ : Type} {kind : RecordKind ρ} {key : String}
    {get : ρ → String} {depth : Nat} (field : kind.Field key text get)
    (hs : ∃ s ∈ kind.slots, s.key = key ∧ s.absent = .required) {doc : Doc} {r : ρ}
    (h : kind.decoder .text depth doc = .ok r) :
    kind.field? key doc = some (.string (get r)) := by
  obtain ⟨s, hs, rfl, hr⟩ := hs
  obtain ⟨d, hd⟩ := Option.isSome_iff_exists.mp (field?_required hs hr h)
  have hgiven := field.read h
  rw [hd] at hgiven
  rw [hd, text_ok hgiven]

theorem CardKind.mem_names {k : CardKind} {name : String} (h : (name, k) ∈ names) :
    name = k.name := by
  obtain ⟨k', -, he⟩ := List.mem_map.mp h
  rw [← (Prod.mk.inj he).1, (Prod.mk.inj he).2]

namespace Card

theorem field_id : recordKind.Field "id" Json.Decoder.text (·.id) :=
  ⟨by decide, by decide, by simp [recordKind, writes_own, writes_other]⟩

theorem field_kind : recordKind.Field "type" CardKind.decoder (·.kind) :=
  ⟨by decide, by decide, by simp [recordKind, writes_own, writes_other]⟩

theorem field_x : recordKind.Field "x" double (·.x) :=
  ⟨by decide, by decide, by simp [recordKind, writes_own, writes_other]⟩

theorem field_y : recordKind.Field "y" double (·.y) :=
  ⟨by decide, by decide, by simp [recordKind, writes_own, writes_other]⟩

theorem field_properties : recordKind.Field "properties" members (·.properties) :=
  ⟨by decide, by decide, by simp [recordKind, writes_own, writes_other]⟩

variable {doc : Doc} {c : Card} (h : decoder .text (maxDepth - 1 - 1) doc = .ok c)

include h

theorem kind_of_decoder : recordKind.field? "type" doc = some (.string c.kind.name) ∨
    recordKind.field? "type" doc = some (.object [(.ok c.kind.name, .null)] .closed) := by
  have hsome : (recordKind.field? "type" doc).isSome :=
    RecordKind.field?_required (.tail _ (.head _)) rfl h
  obtain ⟨d, hd⟩ := Option.isSome_iff_exists.mp hsome
  have hgiven := field_kind.read h
  rw [hd] at hgiven ⊢
  obtain ⟨name, hname, hdoc⟩ := oneName_ok hgiven
  obtain rfl := CardKind.mem_names hname
  exact hdoc.imp (congrArg some) (congrArg some)

theorem readFrom_of_decoder : ReadFrom doc c.fillDefaults := by
  have hid := field_id.field?_text ⟨_, .head _, rfl, rfl⟩ h
  have hkind := kind_of_decoder h
  have hx : Supplied 0 c.x (fun d => ∃ n, d = .number n ∧ c.x = n.toFloat) _ :=
    .of_given (field_x.read h) fun _ => double_ok
  have hy : Supplied 0 c.y (fun d => ∃ n, d = .number n ∧ c.y = n.toFloat) _ :=
    .of_given (field_y.read h) fun _ => double_ok
  have hown : Supplied [] c.properties (fun d => d.value depth = .ok (.object c.properties)) _ :=
    .of_given (field_properties.read h) fun _ => members_ok
  exact ⟨hid, hkind, hx, hy, c.properties, hown, by rw [fillDefaults_eq]⟩

theorem orderly_of_decoder : Orderly depth (.object c.properties) := by
  have hgiven := field_properties.read h
  cases hd : recordKind.field? "properties" doc with
  | none =>
    rw [hd] at hgiven
    rw [show c.properties = [] from hgiven]
    exact Json.orderly_object.mpr ⟨List.nodup_nil, by simp⟩
  | some d =>
    rw [hd] at hgiven
    exact Json.value_orderly d _ _ (members_ok hgiven)

end Card

namespace Connection

theorem field_id : recordKind.Field "id" text (·.id) :=
  ⟨by decide, by decide, by simp [recordKind, writes_own, writes_other]⟩

theorem field_source : recordKind.Field "startCardId" text (·.source) :=
  ⟨by decide, by decide, by simp [recordKind, writes_own, writes_other]⟩

theorem field_sourcePort : recordKind.Field "startPortIndex" size (·.sourcePort) :=
  ⟨by decide, by decide, by simp [recordKind, writes_own, writes_other]⟩

theorem field_target : recordKind.Field "endCardId" text (·.target) :=
  ⟨by decide, by decide, by simp [recordKind, writes_own, writes_other]⟩

theorem field_targetPort : recordKind.Field "endPortIndex" size (·.targetPort) :=
  ⟨by decide, by decide, by simp [recordKind, writes_own, writes_other]⟩

variable {doc : Doc} {e : Connection} {depth : Nat}

theorem readFrom_of_decoder (h : decoder .text depth doc = .ok e) : ReadFrom doc e where
  id := field_id.field?_text ⟨_, .head _, rfl, rfl⟩ h
  source := field_source.field?_text ⟨_, .tail _ (.head _), rfl, rfl⟩ h
  sourcePort := .of_given (field_sourcePort.read h) fun _ hd => (natural_ok hd).1
  target := field_target.field?_text ⟨_, .tail _ (.tail _ (.tail _ (.head _))), rfl, rfl⟩ h
  targetPort := .of_given (field_targetPort.read h) fun _ hd => (natural_ok hd).1

def Fits (e : Connection) : Prop := e.sourcePort ≤ maxWord ∧ e.targetPort ≤ maxWord

theorem fits_of_decoder (h : decoder .text depth doc = .ok e) : e.Fits := by
  have hport : ∀ {port : Nat} {doc : Option Doc}, Given size .text (depth - 1) 0 port doc →
      port ≤ maxWord := by
    intro port doc hgiven
    cases doc with
    | none => exact (show port = 0 from hgiven) ▸ Nat.zero_le _
    | some d => exact (natural_ok hgiven).2
  exact ⟨hport (field_sourcePort.read h), hport (field_targetPort.read h)⟩

end Connection

namespace Graph

theorem field_cards : recordKind.Field "cards" (list Card.decoder) (·.cards) :=
  ⟨by decide, by decide, by simp [recordKind, writes_own, writes_other]⟩

theorem field_connections :
    recordKind.Field "connections" (list Connection.decoder) (·.connections) :=
  ⟨by decide, by decide, by simp [recordKind, writes_own, writes_other]⟩

theorem docs_of_given {α : Type} {d : Json.Decoder α} {depth : Nat} {key : String} {doc : Doc}
    {as : List α} (h : Given (list d) .text depth [] as (recordKind.field? key doc)) :
    List.Forall₂ (fun doc a => d .text (depth - 1) doc = .ok a) (docs key doc) as := by
  unfold docs
  cases hd : recordKind.field? key doc with
  | none =>
    rw [hd] at h
    rw [show as = [] from h]
    exact .nil
  | some d =>
    rw [hd] at h
    obtain ⟨ds, closing, rfl, hds⟩ := list_ok h
    exact hds

/-- Fit to be read back. -/
structure Storable (g : Graph) : Prop where
  properties : ∀ c ∈ g.cards, Orderly Card.depth (.object c.properties)
  ports : ∀ e ∈ g.connections, e.Fits

theorem forall_right {α β : Type} {R : α → β → Prop} {P : β → Prop} {as : List α} {bs : List β}
    (h : List.Forall₂ R as bs) (hP : ∀ a b, R a b → P b) : ∀ b ∈ bs, P b := by
  induction h with
  | nil => simp
  | cons hab _ ih => exact List.forall_mem_cons.mpr ⟨hP _ _ hab, ih⟩

section Decoded

variable {doc : Doc} {g : Graph} (h : decoder .text maxDepth doc = .ok g)

include h

theorem readFrom_of_decoder : ReadFrom doc g.normalize where
  cards := List.forall₂_map_right_iff.mpr <|
    (docs_of_given (field_cards.read h)).imp fun _ _ => Card.readFrom_of_decoder
  connections :=
    (docs_of_given (field_connections.read h)).imp fun _ _ => Connection.readFrom_of_decoder

theorem storable_of_decoder : g.Storable where
  properties := forall_right (docs_of_given (field_cards.read h)) fun _ _ =>
    Card.orderly_of_decoder
  ports := forall_right (docs_of_given (field_connections.read h)) fun _ _ =>
    Connection.fits_of_decoder

end Decoded

theorem normalize_normalize (g : Graph) : g.normalize.normalize = g.normalize := by
  have hcard : ∀ c : Card, c.fillDefaults.fillDefaults = c.fillDefaults := by
    intro c
    simp only [Card.fillDefaults_eq, Members.lacking_fill, List.append_nil]
  simp [normalize, hcard]

theorem Storable.normalize {g : Graph} (h : g.Storable) : g.normalize.Storable where
  ports := h.ports
  properties := by
    intro filled hfilled
    obtain ⟨c, hc, rfl⟩ := List.mem_map.mp hfilled
    obtain ⟨hkeys, hvalues⟩ := Json.orderly_object.mp (h.properties c hc)
    rw [Card.fillDefaults_eq]
    refine Json.orderly_object.mpr
      ⟨Members.nodup_fill hkeys c.kind.nodup_defaults, fun m hm => ?_⟩
    rcases List.mem_append.mp hm with hm | hm
    · exact hvalues m hm
    · exact c.kind.defaults_orderly _ m (List.mem_filter.mp hm).1

end Graph

theorem Card.decoder_toJson {c : Card} (h : Orderly depth (.object c.properties)) :
    decoder .text (maxDepth - 1 - 1) (Doc.ofJson c.toJson) = .ok c :=
  RecordKind.decoder_filled field_id.distinct <|
    .member (slot_read rfl) <| .member (slot_read (c.kind.decoder_toJson _ _)) <|
    .member (slot_read rfl) <| .member (slot_read rfl) <|
    .member (slot_read (members_read h.value)) <| .done _

theorem Connection.decoder_toJson {e : Connection} (h : e.Fits) (depth : Nat) :
    decoder .text (depth + 1) (Doc.ofJson e.toJson) = .ok e :=
  RecordKind.decoder_filled field_id.distinct <|
    .member (slot_read rfl) <| .member (slot_read rfl) <|
    .member (slot_read (natural_read h.1 _)) <| .member (slot_read rfl) <|
    .member (slot_read (natural_read h.2 _)) <| .done _

namespace Graph

theorem decoder_toJson {g : Graph} (h : g.Storable) :
    decoder .text maxDepth (Doc.ofJson g.toJson) = .ok g :=
  RecordKind.decoder_filled field_cards.distinct <|
    .member (slot_read (list_read fun c hc => Card.decoder_toJson (h.properties c hc))) <|
    .member (slot_read (list_read fun e he => Connection.decoder_toJson (h.ports e he) _)) <|
    .done _

theorem ofText_compact {g : Graph} (h : g.Storable) (hn : Every ReadsBack g.toJson) :
    ofText g.toJson.compact = .ok g.normalize := by
  have hdecode := (Json.decode_compactChars (Json.readable_of_readsBack hn) decoder).trans
    (decoder_toJson h)
  rw [ofText, Json.compact, String.toList_ofList, hdecode]
  rfl

theorem ofText_pretty {g : Graph} (h : g.Storable) (hn : Every ReadsBack g.toJson) :
    ofText g.toJson.pretty = .ok g.normalize := by
  have hdecode := (Json.decode_prettyChars (Json.readable_of_readsBack hn) decoder 0).trans
    (decoder_toJson h)
  rw [ofText, Json.pretty, String.toList_ofList, hdecode]
  rfl

theorem readsBack_normalize {g : Graph} (h : Every ReadsBack g.toJson) :
    Every ReadsBack g.normalize.toJson := by
  have hcard : ∀ c : Card, Every ReadsBack c.toJson → Every ReadsBack c.fillDefaults.toJson := by
    intro c hc
    rw [Card.fillDefaults_eq]
    simp only [Card.toJson, Json.every_object, List.forall_mem_cons, List.forall_mem_append]
      at hc ⊢
    obtain ⟨hobject, hid, hkind, hx, hy, ⟨hown, hms⟩, hrest⟩ := hc
    refine ⟨hobject, hid, hkind, hx, hy, ⟨hown, hms, fun m hm => ?_⟩, hrest⟩
    exact c.kind.defaults_readsBack m (List.mem_filter.mp hm).1
  simp only [toJson, normalize, Json.every_object, Json.every_array, List.forall_mem_cons,
    List.forall_mem_map] at h ⊢
  exact ⟨h.1, ⟨h.2.1.1, fun c hc => hcard c (h.2.1.2 c hc)⟩, h.2.2⟩

/-- What was loaded comes from the text, has all the properties of its kinds,
and stays as it is when it is written and loaded again. -/
theorem ofText_settles {s : String} {g : Graph} (h : ofText s = .ok g) :
    g.ReadFrom (Json.scan s.toList).1 ∧ g.normalize = g ∧
      (Every ReadsBack g.toJson →
        ofText g.toJson.compact = .ok g ∧ ofText g.toJson.pretty = .ok g) := by
  obtain ⟨raw, hraw, rfl⟩ := map_eq_ok h
  have hdoc := Json.decode_ok hraw
  have hstorable := (storable_of_decoder hdoc).normalize
  have hagain := normalize_normalize raw
  refine ⟨readFrom_of_decoder hdoc, hagain, fun hn => ⟨?_, ?_⟩⟩
  · rw [ofText_compact hstorable hn, hagain]
  · rw [ofText_pretty hstorable hn, hagain]

def sparse : Graph :=
  ⟨[⟨"a", .agent, 10, -0.5, [("tools", .null), ("limits", .array [.ofInt (-3), .ofFloat 2.5])]⟩],
    [⟨"e", "a", 0, "b", 7⟩]⟩

theorem sparse_storable : sparse.Storable where
  properties := by
    simp [-Prod.forall, sparse, Orderly, Json.Distinct, Json.height, Json.heightMembers,
      Json.heightItems, Json.ofInt, Json.ofFloat, Members.keys, Card.depth, maxDepth]
  ports := by simp [sparse, Connection.Fits, maxWord, Decimal.twoTo]

theorem sparse_readsBack : Every ReadsBack sparse.toJson := by
  have hx : (Json.Number.float 10).ReadsBack := by decide +kernel
  have hy : (Json.Number.float (-0.5)).ReadsBack := by decide +kernel
  have hinner : (Json.Number.float 2.5).ReadsBack := by decide +kernel
  have hnegative : (Json.Number.int (-3)).ReadsBack := by decide +kernel
  have hport : (Json.Number.int 0).ReadsBack ∧ (Json.Number.int 7).ReadsBack := by decide +kernel
  simp [-Prod.forall, sparse, toJson, Card.toJson, Connection.toJson, CardKind.toJson, ReadsBack,
    Json.ofInt, Json.ofNat, Json.ofFloat, *]

theorem ofText_settles_sparse :
    ofText sparse.toJson.compact = .ok sparse.normalize ∧
      sparse.normalize.ReadFrom (Json.scan sparse.toJson.compact.toList).1 ∧
      sparse.normalize.normalize = sparse.normalize ∧
      ofText sparse.normalize.toJson.pretty = .ok sparse.normalize := by
  have hload := ofText_compact sparse_storable sparse_readsBack
  obtain ⟨hread, hagain, hback⟩ := ofText_settles hload
  exact ⟨hload, hread, hagain, (hback (readsBack_normalize sparse_readsBack)).2⟩

end Graph

end Cardwalk
