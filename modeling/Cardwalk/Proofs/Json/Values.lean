import Cardwalk.Json.Decode
import Cardwalk.Proofs.Json.RoundTrip

/-!
# What is read out of a document

A value that was read has every key once and is no deeper than was allowed.
Each decoder of a leaf takes documents of one form only.
-/

set_option autoImplicit false

namespace Cardwalk

namespace Members

theorem mem_put {key : String} {v : Json} {ms : Members} {m : String × Json}
    (h : m ∈ put key v ms) : m = (key, v) ∨ m ∈ ms := by
  induction ms with
  | nil => exact .inl (List.mem_singleton.mp h)
  | cons n ms ih =>
    simp only [put] at h
    split at h
    · rename_i hk
      rcases List.mem_cons.mp h with rfl | h
      · exact .inl (by rw [hk])
      · exact .inr (List.mem_cons_of_mem _ h)
    · rcases List.mem_cons.mp h with rfl | h
      · exact .inr List.mem_cons_self
      · exact (ih h).imp_right (List.mem_cons_of_mem _)

theorem mem_ofList {ms : List (String × Json)} {m : String × Json} (h : m ∈ ofList ms) :
    m ∈ ms := by
  have hfold : ∀ (ms : List (String × Json)) (acc : Members),
      m ∈ ms.foldl (fun acc m => put m.1 m.2 acc) acc → m ∈ acc ∨ m ∈ ms := by
    intro ms
    induction ms with
    | nil => exact fun acc => .inl
    | cons n ms ih =>
      intro acc h
      rcases ih _ h with h | h
      · rcases mem_put h with rfl | h
        · exact .inr List.mem_cons_self
        · exact .inl h
      · exact .inr (List.mem_cons_of_mem _ h)
  exact (hfold ms [] h).resolve_left List.not_mem_nil

theorem keys_put (key : String) (v : Json) (ms : Members) :
    keys (put key v ms) = if key ∈ keys ms then keys ms else keys ms ++ [key] := by
  induction ms with
  | nil => rfl
  | cons m ms ih =>
    obtain ⟨k, w⟩ := m
    by_cases hk : k = key
    · simp [put, keys, hk]
    · have hrest : (put key v ms).map Prod.fst =
          if key ∈ ms.map Prod.fst then ms.map Prod.fst else ms.map Prod.fst ++ [key] := ih
      simp only [put, if_neg hk, keys, List.map_cons, hrest, List.mem_cons, Ne.symm hk,
        false_or]
      split <;> rfl

theorem nodup_put {ms : Members} (h : (keys ms).Nodup) (key : String) (v : Json) :
    (keys (put key v ms)).Nodup := by
  rw [keys_put]
  split
  · exact h
  · rename_i hk
    simpa [List.nodup_append] using ⟨h, fun k hin he => hk (he ▸ hin)⟩

theorem nodup_ofList (ms : List (String × Json)) : (keys (ofList ms)).Nodup := by
  have hfold : ∀ (ms : List (String × Json)) (acc : Members), (keys acc).Nodup →
      (keys (ms.foldl (fun acc m => put m.1 m.2 acc) acc)).Nodup := by
    intro ms
    induction ms with
    | nil => exact fun acc h => h
    | cons m ms ih => exact fun acc h => ih _ (nodup_put h m.1 m.2)
  exact hfold ms [] List.nodup_nil

end Members

namespace Json

/-- Fit to be read back at this depth. -/
def Orderly (depth : Nat) (v : Json) : Prop := Every Distinct v ∧ height v ≤ depth

theorem heightItems_le {items : List Json} {depth : Nat} :
    heightItems items ≤ depth ↔ ∀ v ∈ items, height v ≤ depth := by
  induction items with
  | nil => simp [heightItems]
  | cons v items ih => simp [heightItems, ih]

theorem heightMembers_le {ms : Members} {depth : Nat} :
    heightMembers ms ≤ depth ↔ ∀ m ∈ ms, height m.2 ≤ depth := by
  induction ms with
  | nil => simp [heightMembers]
  | cons m ms ih => simp [heightMembers, ih]

theorem orderly_array {items : List Json} {depth : Nat} :
    Orderly (depth + 1) (.array items) ↔ ∀ v ∈ items, Orderly depth v := by
  simp only [Orderly, every_array, Distinct, true_and, height, Nat.add_le_add_iff_right,
    heightItems_le]
  exact ⟨fun h v hv => ⟨h.1 v hv, h.2 v hv⟩, fun h => ⟨fun v hv => (h v hv).1,
    fun v hv => (h v hv).2⟩⟩

theorem orderly_object {ms : Members} {depth : Nat} :
    Orderly (depth + 1) (.object ms) ↔
      (Members.keys ms).Nodup ∧ ∀ m ∈ ms, Orderly depth m.2 := by
  simp only [Orderly, every_object, Distinct, height, Nat.add_le_add_iff_right,
    heightMembers_le]
  exact ⟨fun h => ⟨h.1.1, fun m hm => ⟨h.1.2 m hm, h.2 m hm⟩⟩,
    fun h => ⟨⟨h.1, fun m hm => (h.2 m hm).1⟩, fun m hm => (h.2 m hm).2⟩⟩

theorem Orderly.value {depth : Nat} {v : Json} (h : Orderly depth v) :
    Doc.value depth (Doc.ofJson v) = .ok v :=
  value_ofJson v depth h.1 h.2

theorem closing_check {closing : Closing} {α : Type} {a b : α}
    (h : (closing.check.map fun _ => a) = .ok b) : a = b := by
  cases closing with
  | closed => exact Except.ok.inj h
  | stopped s => cases h

mutual
theorem value_orderly : ∀ (doc : Doc) (depth : Nat) (v : Json), Doc.value depth doc = .ok v →
    Orderly depth v
  | .null, _, _, h | .bool _, _, _, h | .number _, _, _, h | .string _, _, _, h => by
    simp only [Doc.value, Except.ok.injEq] at h
    subst h
    simp [Orderly, Distinct, height]
  | .hugeNumber, _, _, h | .badString _, _, _, h | .stopped _, _, _, h
  | .stoppedString _ _, _, _, h => by simp [Doc.value] at h
  | .array docs closing, 0, _, h => by simp [Doc.value] at h
  | .object ms closing, 0, _, h => by simp [Doc.value] at h
  | .array docs closing, depth + 1, v, h => by
    simp only [Doc.value] at h
    split at h
    · rename_i vs hvs
      rw [← closing_check h]
      exact orderly_array.mpr (values_orderly docs depth vs hvs)
    · simp at h
  | .object ms closing, depth + 1, v, h => by
    simp only [Doc.value] at h
    split at h
    · rename_i vs hvs
      rw [← closing_check h]
      exact orderly_object.mpr ⟨Members.nodup_ofList vs, fun m hm =>
        memberValues_orderly ms depth vs hvs m (Members.mem_ofList hm)⟩
    · simp at h

theorem values_orderly : ∀ (docs : List Doc) (depth : Nat) (vs : List Json),
    Doc.values depth docs = .ok vs → ∀ v ∈ vs, Orderly depth v
  | [], _, vs, h => by
    simp only [Doc.values, Except.ok.injEq] at h
    simp [← h]
  | doc :: docs, depth, vs, h => by
    simp only [Doc.values] at h
    split at h
    · rename_i v hv
      obtain ⟨rest, hrest, rfl⟩ : ∃ rest, Doc.values depth docs = .ok rest ∧ v :: rest = vs := by
        cases hr : Doc.values depth docs with
        | error e => simp [hr, Except.map] at h
        | ok rest => exact ⟨rest, rfl, by simpa [hr, Except.map] using h⟩
      exact List.forall_mem_cons.mpr
        ⟨value_orderly doc depth v hv, values_orderly docs depth rest hrest⟩
    · simp at h

theorem memberValues_orderly : ∀ (ms : List (Except Flaw String × Doc)) (depth : Nat)
    (vs : List (String × Json)), Doc.memberValues depth ms = .ok vs →
    ∀ m ∈ vs, Orderly depth m.2
  | [], _, vs, h => by
    simp only [Doc.memberValues, Except.ok.injEq] at h
    simp [← h]
  | (.error f, _) :: _, _, _, h => by simp [Doc.memberValues] at h
  | (.ok k, doc) :: ms, depth, vs, h => by
    simp only [Doc.memberValues] at h
    split at h
    · rename_i v hv
      obtain ⟨rest, hrest, rfl⟩ :
          ∃ rest, Doc.memberValues depth ms = .ok rest ∧ (k, v) :: rest = vs := by
        cases hr : Doc.memberValues depth ms with
        | error e => simp [hr, Except.map] at h
        | ok rest => exact ⟨rest, rfl, by simpa [hr, Except.map] using h⟩
      exact List.forall_mem_cons.mpr
        ⟨value_orderly doc depth v hv, memberValues_orderly ms depth rest hrest⟩
    · simp at h
end

theorem decode_ok {α : Type} {d : Decoder α} {s : List Char} {a : α} (h : decode d s = .ok a) :
    d .text maxDepth (scan s).1 = .ok a := by
  unfold decode at h
  dsimp only at h
  split at h
  · simp at h
  · rename_i b hb
    split at h
    · simp at h
    · split at h
      · rw [hb, Except.ok.inj h]
      · simp at h

namespace Decoder

variable {origin : Origin} {depth : Nat} {doc : Doc}

theorem mismatch_ne_ok {α : Type} {expected : String} {a : α} :
    mismatch expected doc ≠ .ok a := by
  unfold mismatch
  intro h
  cases h

theorem text_ok {s : String} (h : text origin depth doc = .ok s) : doc = .string s := by
  unfold text at h
  split at h
  · rw [Except.ok.inj h]
  · exact absurd h mismatch_ne_ok

theorem double_ok {x : Float} (h : double origin depth doc = .ok x) :
    ∃ n, doc = .number n ∧ x = n.toFloat := by
  unfold double at h
  split at h
  · rename_i n
    exact ⟨n, rfl, (Except.ok.inj h).symm⟩
  · exact absurd h mismatch_ne_ok

theorem natural_ok {max n : Nat} {expected : String}
    (h : natural max expected origin depth doc = .ok n) :
    doc = .number (.int n) ∧ n ≤ max := by
  unfold natural at h
  split at h
  · rename_i i
    split at h
    · rename_i hi
      have hn : i.toNat = n := Except.ok.inj h
      exact ⟨by rw [← hn, Int.toNat_of_nonneg hi.1], by omega⟩
    · simp at h
  · exact absurd h mismatch_ne_ok

theorem members_ok {ms : Members} (h : members origin depth doc = .ok ms) :
    doc.value depth = .ok (.object ms) := by
  unfold members at h
  split at h
  · rename_i ds closing
    split at h
    · rename_i vs hvs
      rw [hvs, Except.ok.inj h]
    · rename_i v hother hv
      -- An object is never read as anything else.
      cases depth with
      | zero => simp [Doc.value] at hv
      | succ depth =>
        simp only [Doc.value] at hv
        split at hv
        · exact absurd (closing_check hv).symm (hother _)
        · simp at hv
    · simp at h
  · exact absurd h mismatch_ne_ok

theorem lookup_ok {α : Type} {names : List (String × α)} {name : String} {a : α}
    (h : lookup names name = .ok a) : (name, a) ∈ names := by
  unfold lookup at h
  split at h
  · rename_i k b hb
    have hk : k = name := by simpa using List.find?_some hb
    rw [← hk, ← Except.ok.inj h]
    exact List.mem_of_find?_eq_some hb
  · simp at h

theorem oneName_ok {α : Type} {names : List (String × α)} {a : α}
    (h : oneName names .text depth doc = .ok a) :
    ∃ name, (name, a) ∈ names ∧
      (doc = .string name ∨ doc = .object [(.ok name, .null)] .closed) := by
  cases doc with
  | string s => exact ⟨s, lookup_ok h, .inl rfl⟩
  | object ms closing =>
    cases depth with
    | zero => simp [oneName] at h
    | succ depth =>
      rcases ms with _ | ⟨⟨_ | k, value⟩, rest⟩
      · simp only [oneName] at h
        split at h <;> simp at h
      · simp [oneName] at h
      · simp only [oneName, bind, Except.bind] at h
        split at h
        · simp at h
        · rename_i b hb
          split at h
          · split at h
            · rw [← Except.ok.inj h]
              exact ⟨k, lookup_ok hb, .inr rfl⟩
            · simp at h
            · simp at h
          · exact absurd h mismatch_ne_ok
  | _ => cases depth <;> simp [oneName] at h

theorem readItems_ok {α : Type} {d : Doc → Except ReadError α} {docs : List Doc} {as : List α}
    (h : readItems d docs = .ok as) : List.Forall₂ (fun doc a => d doc = .ok a) docs as := by
  induction docs generalizing as with
  | nil =>
    simp only [readItems, Except.ok.injEq] at h
    subst h
    exact .nil
  | cons doc docs ih =>
    simp only [readItems] at h
    split at h
    · rename_i a ha
      cases hr : readItems d docs with
      | error e => simp [hr, Except.map] at h
      | ok rest =>
        obtain rfl : a :: rest = as := by simpa [hr, Except.map] using h
        exact .cons ha (ih hr)
    · simp at h

theorem list_ok {α : Type} {d : Decoder α} {as : List α}
    (h : list d origin depth doc = .ok as) :
    ∃ docs closing, doc = .array docs closing ∧
      List.Forall₂ (fun doc a => d origin (depth - 1) doc = .ok a) docs as := by
  unfold list at h
  split at h
  · simp at h
  · rename_i docs closing _
    split at h
    · rename_i bs hbs
      rw [← closing_check h]
      exact ⟨docs, closing, rfl, readItems_ok hbs⟩
    · simp at h
  · exact absurd h mismatch_ne_ok

end Decoder

end Json

end Cardwalk
