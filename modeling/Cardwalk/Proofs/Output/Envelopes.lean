import Cardwalk.Envelope
import Cardwalk.Proofs.Json.Filled
import Cardwalk.Proofs.Json.Numbers
import Cardwalk.Proofs.Json.Values

/-!
# Envelopes read back

An envelope is read back from what it is printed as, with all the envelopes
inside it. Only a tool result of `null` is lost, which no field shows.
-/

set_option autoImplicit false

namespace Cardwalk.Envelope

open Json (Doc Every Orderly ReadsBack maxDepth)
open Json.Decoder (RecordKind nullable slot)
open Json.Decoder.RecordKind (Filled)

/-- What a tool gave, unless it is `null`. -/
def heard : Option Json → Option Json
  | some .null => none
  | result => result

/-- Without the tool results of `null`, here and in the envelopes inside. -/
def settled : Envelope → Envelope
  | ⟨value, text, content, result, call, formatted, none, incomplete, error⟩ =>
    ⟨value, text, content, heard result, call, formatted, none, incomplete, error⟩
  | ⟨value, text, content, result, call, formatted, some e, incomplete, error⟩ =>
    ⟨value, text, content, heard result, call, formatted, some (settled e), incomplete, error⟩
termination_by structural e => e

/-- The envelope that stands `n` final results deep. -/
def nested? : Nat → Envelope → Option Envelope
  | 0, e => some e
  | n + 1, e => e.finalResult.bind (nested? n)

theorem heard_heard (result : Option Json) : heard (heard result) = heard result := by
  rcases result with _ | _ | _ <;> rfl

theorem mem_of_mem_heard {result : Option Json} {v : Json} (h : v ∈ heard result) :
    v ∈ result := by
  rcases result with _ | _ | _
  · exact h
  · cases h
  all_goals exact h

theorem heard_eq_self {result : Option Json} (h : result ≠ some .null) :
    heard result = result := by
  rcases result with _ | _ | _
  · rfl
  · exact absurd rfl h
  all_goals rfl

theorem settled_eq (e : Envelope) : e.settled =
    { e with toolResult := heard e.toolResult, finalResult := e.finalResult.map settled } := by
  obtain ⟨_, _, _, _, _, _, final, _, _⟩ := e
  cases final <;> rfl

theorem settled_settled : ∀ e : Envelope, e.settled.settled = e.settled
  | ⟨_, _, _, _, _, _, none, _, _⟩ => by simp [settled, heard_heard]
  | ⟨_, _, _, _, _, _, some e, _, _⟩ => by simp [settled, heard_heard, settled_settled e]

theorem nested?_settled (n : Nat) (e : Envelope) :
    e.settled.nested? n = (e.nested? n).map settled := by
  induction n generalizing e with
  | zero => rfl
  | succ n ih =>
    rw [nested?, nested?, settled_eq]
    cases e.finalResult with
    | none => rfl
    | some inner => exact ih inner

theorem field_settled (e : Envelope) (f : Field) : e.settled.field f = e.field f := by
  rw [settled_eq]
  cases f with
  | toolResult =>
    rw [field, field]
    rcases e.toolResult with _ | _ | _ <;> rfl
  | _ => rfl

theorem settled_eq_self : ∀ e : Envelope,
    (∀ n inner, e.nested? n = some inner → inner.toolResult ≠ some .null) → e.settled = e
  | ⟨_, _, _, result, _, _, none, _, _⟩, h => by
    rw [settled, heard_eq_self (h 0 _ rfl)]
  | ⟨_, _, _, result, _, _, some e, _, _⟩, h => by
    have hinner := settled_eq_self e fun n inner hn => h (n + 1) inner hn
    rw [settled, heard_eq_self (h 0 _ rfl), hinner]

def entries (e : Envelope) : Members :=
  present "value" .string e.value ++ (present "text" .string e.text ++
    (present "content" .string e.content ++ (present "tool_result" id e.toolResult ++
    (present "tool_call" ToolCall.toJson e.toolCall ++
    (present "formatted_text" .string e.formattedText ++
    (present "final_result" toJson e.finalResult ++
    (present "final_incomplete_response" .string e.incompleteResponse ++
    (present "error" .string e.error ++ []))))))))

theorem toJson_entries (e : Envelope) : e.toJson = .object e.entries := by
  obtain ⟨_, _, _, _, _, _, final, _, _⟩ := e
  cases final <;> simp [toJson, entries, present]

section Present

variable {α : Type} {key : String} {f : α → Json} {o : Option α}

theorem sublist_present {rest : List String} {ms : Members}
    (h : List.Sublist (Members.keys ms) rest) :
    List.Sublist (Members.keys (present key f o ++ ms)) (key :: rest) := by
  cases o with
  | none => exact h.cons key
  | some a => exact h.cons_cons key

theorem forall_present {p : Json → Prop} :
    (∀ m ∈ present key f o, p m.2) ↔ ∀ a ∈ o, p (f a) := by
  cases o <;> simp [present]

end Present

theorem nodup_keys (inner : Json.Decoder Envelope) : (recordKind inner).keys.Nodup :=
  (by decide : (recordKind default).keys.Nodup)

theorem nodup_entries (e : Envelope) : (Members.keys e.entries).Nodup := by
  have hkeys : List.Sublist (Members.keys e.entries) (recordKind default).keys :=
    sublist_present <| sublist_present <| sublist_present <| sublist_present <|
    sublist_present <| sublist_present <| sublist_present <| sublist_present <|
    sublist_present <| .slnil
  exact hkeys.nodup (nodup_keys default)

theorem forall_entries {p : Json → Prop} (htext : ∀ s, p (.string s)) {e : Envelope} :
    (∀ m ∈ e.entries, p m.2) ↔ (∀ v ∈ e.toolResult, p v) ∧ (∀ c ∈ e.toolCall, p c.toJson) ∧
      ∀ inner ∈ e.finalResult, p inner.toJson := by
  simp only [entries, List.forall_mem_append, forall_present, id, htext]
  simp

theorem orderly_toJson {e : Envelope} {depth : Nat} : Orderly (depth + 1) e.toJson ↔
    (∀ v ∈ e.toolResult, Orderly depth v) ∧ (∀ c ∈ e.toolCall, Orderly depth c.toJson) ∧
      ∀ inner ∈ e.finalResult, Orderly depth inner.toJson := by
  have htext : ∀ s, Orderly depth (.string s) := by simp [Orderly, Json.Distinct, Json.height]
  rw [toJson_entries, Json.orderly_object, forall_entries htext]
  exact and_iff_right e.nodup_entries

theorem readsBack_toJson {e : Envelope} : Every ReadsBack e.toJson ↔
    (∀ v ∈ e.toolResult, Every ReadsBack v) ∧ (∀ c ∈ e.toolCall, Every ReadsBack c.toJson) ∧
      ∀ inner ∈ e.finalResult, Every ReadsBack inner.toJson := by
  rw [toJson_entries, Json.every_object, forall_entries (by simp [ReadsBack])]
  exact and_iff_right trivial

theorem not_orderly_zero (e : Envelope) : ¬ Orderly 0 e.toJson := by
  rw [toJson_entries, Orderly]
  simp [Json.height]

theorem fit_settled {depth : Nat} (e : Envelope)
    (h : Orderly depth e.toJson ∧ Every ReadsBack e.toJson) :
    Orderly depth e.settled.toJson ∧ Every ReadsBack e.settled.toJson := by
  induction depth generalizing e with
  | zero => exact absurd h.1 e.not_orderly_zero
  | succ depth ih =>
    obtain ⟨hresult, hcall, hfinal⟩ := orderly_toJson.mp h.1
    obtain ⟨hresult', hcall', hfinal'⟩ := readsBack_toJson.mp h.2
    have hinner : ∀ inner ∈ e.finalResult.map settled,
        Orderly depth inner.toJson ∧ Every ReadsBack inner.toJson := by
      simp only [Option.mem_map, forall_exists_index, and_imp, forall_apply_eq_imp_iff₂]
      exact fun inner hin => ih inner ⟨hfinal inner hin, hfinal' inner hin⟩
    rw [settled_eq]
    exact ⟨orderly_toJson.mpr ⟨fun v hv => hresult v (mem_of_mem_heard hv), hcall,
        fun inner hin => (hinner inner hin).1⟩,
      readsBack_toJson.mpr ⟨fun v hv => hresult' v (mem_of_mem_heard hv), hcall',
        fun inner hin => (hinner inner hin).2⟩⟩

section Reading

variable {ρ α : Type} {origin : Json.Origin} {depth : Nat}

theorem filled_present {key : String} {d : Json.Decoder (Option α)} {put : Option α → ρ → ρ}
    {f : α → Json} {o o' : Option α} {slots : List (Json.Decoder.Slot ρ)} {ms : Members} {r r' : ρ}
    (hread : ∀ a ∈ o, d origin depth (Doc.ofJson (f a)) = .ok o') (hnone : o = none → o' = none)
    (hput : put none r = r) (rest : Filled origin depth slots ms (put o' r) r') :
    Filled origin depth (slot key .default d put :: slots) (present key f o ++ ms) r r' := by
  cases o with
  | none =>
    rw [hnone rfl, hput] at rest
    exact .absent nofun rest
  | some a => exact .member (Json.Decoder.slot_read (hread a rfl)) rest

theorem filled_text {key : String} {put : Option String → ρ → ρ} {o : Option String}
    {slots : List (Json.Decoder.Slot ρ)} {ms : Members} {r r' : ρ} (hput : put none r = r)
    (rest : Filled origin depth slots ms (put o r) r') :
    Filled origin depth (slot key .default (nullable Json.Decoder.text) put :: slots)
      (present key .string o ++ ms) r r' :=
  filled_present (fun s hs => by rw [show o = some s from hs]; rfl) id hput rest

theorem any_read {v : Json} (h : Orderly depth v) :
    nullable Json.any origin depth (Doc.ofJson v) = .ok (heard (some v)) := by
  have hvalue := h.value
  cases v with
  | null => rfl
  | _ => exact congrArg (Except.map some) hvalue

theorem nullable_object {d : Json.Decoder α} {ms : Members} {a : α}
    (h : d origin depth (Doc.ofJson (.object ms)) = .ok a) :
    nullable d origin depth (Doc.ofJson (.object ms)) = .ok (some a) :=
  congrArg (Except.map some) h

theorem call_read {c : ToolCall} (h : Orderly depth c.toJson) :
    ToolCall.decoder origin depth (Doc.ofJson c.toJson) = .ok c := by
  cases depth with
  | zero => simp [ToolCall.toJson, Orderly, Json.height] at h
  | succ depth =>
    have hargs : Orderly depth c.args := (Json.orderly_object.mp h).2 _ (.tail _ (.head _))
    exact RecordKind.decoder_filled (by decide) <|
      .member (Json.Decoder.slot_read rfl) <|
      .member (Json.Decoder.slot_read hargs.value) <| .done _

end Reading

/-- An envelope is read back by as many readers as it has levels. -/
theorem decoderUpTo_toJson {n depth : Nat} (hn : depth ≤ n) (e : Envelope)
    (h : Orderly depth e.toJson) :
    decoderUpTo n .text depth (Doc.ofJson e.toJson) = .ok e.settled := by
  -- An envelope takes a level of brackets and a reader, so the depth bounds both.
  induction depth generalizing n e with
  | zero => exact absurd h e.not_orderly_zero
  | succ depth ih =>
    obtain ⟨n, rfl⟩ : ∃ m, n = m + 1 := ⟨n - 1, by omega⟩
    obtain ⟨hresult, hcall, hfinal⟩ := orderly_toJson.mp h
    have hinner : ∀ inner ∈ e.finalResult, nullable (decoderUpTo n) .text depth
        (Doc.ofJson inner.toJson) = .ok (e.finalResult.map settled) := by
      intro inner hin
      have hread := ih (Nat.le_of_succ_le_succ hn) inner (hfinal inner hin)
      rw [toJson_entries] at hread ⊢
      rw [nullable_object hread, show e.finalResult = some inner from hin]
      rfl
    have hcalled : ∀ c ∈ e.toolCall, nullable ToolCall.decoder .text depth
        (Doc.ofJson c.toJson) = .ok e.toolCall := by
      intro c hc
      rw [show e.toolCall = some c from hc]
      exact nullable_object (call_read (hcall c hc))
    have hgiven : ∀ v ∈ e.toolResult, nullable Json.any .text depth (Doc.ofJson v) =
        .ok (heard e.toolResult) := by
      intro v hv
      rw [show e.toolResult = some v from hv]
      exact any_read (hresult v hv)
    rw [toJson_entries, settled_eq]
    refine RecordKind.decoder_filled (nodup_keys _) ?_
    exact filled_text rfl <| filled_text rfl <| filled_text rfl <|
      filled_present hgiven (fun h => by rw [h]; rfl) rfl <|
      filled_present hcalled id rfl <| filled_text rfl <|
      filled_present hinner (fun h => by rw [h]; rfl) rfl <|
      filled_text rfl <| filled_text rfl <| .done _

theorem decode_pretty {e : Envelope} (h : Orderly maxDepth e.toJson)
    (hn : Every ReadsBack e.toJson) : Json.decode decoder e.pretty.toList = .ok e.settled := by
  have hreadable := Json.readable_of_readsBack hn
  rw [pretty, Json.pretty, String.toList_ofList, Json.decode_prettyChars hreadable]
  exact decoderUpTo_toJson (Nat.le_succ _) e h

/-- An envelope is read back from its print without its tool results of
`null`; no field of it or of an envelope inside is told otherwise, and what
was read is read back as it is. -/
theorem pretty_settles {e : Envelope} (h : Orderly maxDepth e.toJson)
    (hn : Every ReadsBack e.toJson) :
    Json.decode decoder e.pretty.toList = .ok e.settled ∧
      (∀ n f, (e.settled.nested? n).map (field · f) = (e.nested? n).map (field · f)) ∧
      Json.decode decoder e.settled.pretty.toList = .ok e.settled := by
  refine ⟨decode_pretty h hn, fun n f => ?_, ?_⟩
  · have hfield : (field · f) ∘ settled = (field · f) :=
      funext fun inner => inner.field_settled f
    rw [nested?_settled, Option.map_map, hfield]
  · obtain ⟨hagain, hnagain⟩ := e.fit_settled ⟨h, hn⟩
    rw [decode_pretty hagain hnagain, settled_settled]

def nulled : Envelope :=
  { toolResult := some (.ofFloat 2.5)
    finalResult := some
      { text := some "said \"no\"\n"
        toolResult := some .null
        toolCall := some ⟨"f", .array [.null, .ofInt (-3)]⟩
        finalResult := some (ofValue "") } }

theorem pretty_settles_nulled :
    Json.decode decoder nulled.pretty.toList = .ok nulled.settled ∧
      (nulled.nested? 1).bind (·.toolResult) = some .null ∧
      (nulled.settled.nested? 1).bind (·.toolResult) = none ∧
      Json.decode decoder nulled.settled.pretty.toList = .ok nulled.settled := by
  have horderly : Orderly maxDepth nulled.toJson := by
    simp [-Prod.forall, nulled, ofValue, toJson, present, ToolCall.toJson, Orderly, Json.Distinct,
      Json.height, Json.heightMembers, Json.heightItems, Json.ofInt, Json.ofFloat, Members.keys,
      maxDepth]
  have hnumbers : (Json.Number.float 2.5).ReadsBack ∧ (Json.Number.int (-3)).ReadsBack := by
    decide +kernel
  have hreads : Every ReadsBack nulled.toJson := by
    simp [-Prod.forall, nulled, ofValue, toJson, present, ToolCall.toJson, ReadsBack, Json.ofInt,
      Json.ofFloat, hnumbers]
  obtain ⟨hread, -, hagain⟩ := pretty_settles horderly hreads
  exact ⟨hread, rfl, rfl, hagain⟩

end Cardwalk.Envelope
