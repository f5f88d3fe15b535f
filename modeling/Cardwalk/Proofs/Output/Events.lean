import Cardwalk.Command.Output
import Cardwalk.Proofs.Json.Filled
import Cardwalk.Proofs.ToolCall.Directive

/-!
# Events read back

Every event is read back from the line that tells it, whatever texts it holds.
What is told at the end is no event.
-/

set_option autoImplicit false

namespace Cardwalk

open Json (Every Distinct FitsWord height maxDepth maxWord)
open Json.Decoder (lookup slot_read natural_read)
open Json.Decoder.RecordKind (Filled)
open ToolCall (Whole readable_of_whole)

namespace Event

def Fits : Event → Prop
  | .runStart cards _ => cards ≤ maxWord
  | .cardStart _ _ _ index => index ≤ maxWord
  | .cardComplete _ ms => ms ≤ maxWord
  | .runComplete _ ms cards => ms ≤ maxWord ∧ cards ≤ maxWord
  | .cardError _ _ | .runError _ _ _ | .info _ => True

def tag : Event → String
  | .runStart _ _ => "RunStart"
  | .cardStart _ _ _ _ => "CardStart"
  | .cardComplete _ _ => "CardComplete"
  | .cardError _ _ => "CardError"
  | .runComplete _ _ _ => "RunComplete"
  | .runError _ _ _ => "RunError"
  | .info _ => "Info"

def fields : Event → Members
  | .runStart cards start => [("cards", .ofNat cards), ("start_card", .string start)]
  | .cardStart card kind title index =>
    [("card_id", .string card), ("card_type", kind.toJson), ("title", .string title),
      ("index", .ofNat index)]
  | .cardComplete card ms => [("card_id", .string card), ("duration_ms", .ofNat ms)]
  | .cardError card error => [("card_id", .string card), ("error", .string error)]
  | .runComplete status ms cards =>
    [("status", status.toJson), ("duration_ms", .ofNat ms), ("cards_executed", .ofNat cards)]
  | .runError stage none message => [("stage", stage.toJson), ("message", .string message)]
  | .runError stage (some card) message =>
    [("stage", stage.toJson), ("card_id", .string card), ("message", .string message)]
  | .info message => [("message", .string message)]

def draft : Event → Draft
  | .runStart cards start => { number₁ := cards, text₁ := start }
  | .cardStart card kind title index =>
    { text₁ := card, kind := kind, text₂ := title, number₁ := index }
  | .cardComplete card ms => { text₁ := card, number₁ := ms }
  | .cardError card error => { text₁ := card, text₂ := error }
  | .runComplete status ms cards => { status := status, number₁ := ms, number₂ := cards }
  | .runError stage card message => { stage := stage, card := card, text₁ := message }
  | .info message => { text₁ := message }

theorem toJson_fields (e : Event) : e.toJson = .object (("type", .string e.tag) :: e.fields) := by
  cases e with
  | runError stage card message => cases card <;> rfl
  | _ => rfl

theorem tag_not_mem_fields (e : Event) : "type" ∉ e.fields.keys := by
  cases e with
  | runError stage card message => cases card <;> simp [fields, Members.keys]
  | _ => simp [fields, Members.keys]

theorem fields_flat (e : Event) (depth : Nat) :
    ∀ m ∈ e.fields, Every Distinct m.2 ∧ height m.2 ≤ depth := by
  cases e with
  | runError stage card message =>
    cases card <;> simp [fields, Distinct, height, RunStage.toJson]
  | _ => simp [fields, Distinct, height, Json.ofNat, CardKind.toJson, RunStatus.toJson]

theorem decoder_filled (e : Event) {kind : Json.Decoder.RecordKind Draft} {make : Draft → Event}
    {depth : Nat} (hname : lookup (kinds.map fun k => (k.1, k.2.record, k.2.make)) e.tag =
      .ok (kind, make)) (hd : kind.keys.Nodup)
    (h : Filled .aside depth kind.slots e.fields kind.blank e.draft) :
    decoder .text (depth + 1) (Json.Doc.ofJson e.toJson) = .ok (make e.draft) := by
  rw [toJson_fields]
  exact Json.Decoder.tagged_filled hname hd e.tag_not_mem_fields (e.fields_flat depth) h

theorem decoder_toJson {e : Event} (h : e.Fits) (depth : Nat) :
    decoder .text (depth + 1) (Json.Doc.ofJson e.toJson) = .ok e := by
  cases e with
  | runStart cards start =>
    exact decoder_filled (.runStart cards start) rfl (by decide) <|
      .member (slot_read (natural_read h _)) <| .member (slot_read rfl) <| .done _
  | cardStart card kind title index =>
    exact decoder_filled (.cardStart card kind title index) rfl (by decide) <|
      .member (slot_read rfl) <| .member (slot_read (kind.decoder_toJson _ _)) <|
      .member (slot_read rfl) <| .member (slot_read (natural_read h _)) <| .done _
  | cardComplete card ms =>
    exact decoder_filled (.cardComplete card ms) rfl (by decide) <|
      .member (slot_read rfl) <| .member (slot_read (natural_read h _)) <| .done _
  | cardError card error =>
    exact decoder_filled (.cardError card error) rfl (by decide) <|
      .member (slot_read rfl) <| .member (slot_read rfl) <| .done _
  | runComplete status ms cards =>
    exact decoder_filled (.runComplete status ms cards) rfl (by decide) <|
      .member (slot_read (status.decoder_toJson _ _)) <|
      .member (slot_read (natural_read h.1 _)) <|
      .member (slot_read (natural_read h.2 _)) <| .done _
  | runError stage card message =>
    cases card with
    | none =>
      exact decoder_filled (.runError stage none message) rfl (by decide) <|
        .member (slot_read (stage.decoder_toJson _ _)) <| .absent (by decide) <|
        .member (slot_read rfl) <| .done _
    | some card =>
      exact decoder_filled (.runError stage (some card) message) rfl (by decide) <|
        .member (slot_read (stage.decoder_toJson _ _)) <| .member (slot_read rfl) <|
        .member (slot_read rfl) <| .done _
  | info message =>
    exact decoder_filled (.info message) rfl (by decide) <|
      .member (slot_read rfl) <| .done _

theorem whole_ofNat {n : Nat} (h : n ≤ maxWord) : Every Whole (.ofNat n) := by
  have hn : FitsWord n := ⟨by omega, by exact_mod_cast h⟩
  simpa [Json.ofNat, Whole] using hn

theorem toJson_whole {e : Event} (h : e.Fits) : Every Whole e.toJson := by
  rw [toJson_fields]
  cases e with
  | runStart cards start => simp [fields, Whole, whole_ofNat h]
  | cardStart card kind title index => simp [fields, Whole, CardKind.toJson, whole_ofNat h]
  | cardComplete card ms => simp [fields, Whole, whole_ofNat h]
  | cardError card error => simp [fields, Whole]
  | runComplete status ms cards =>
    simp [fields, Whole, RunStatus.toJson, whole_ofNat h.1, whole_ofNat h.2]
  | runError stage card message => cases card <;> simp [fields, Whole, RunStage.toJson]
  | info message => simp [fields, Whole]

theorem decode_compactChars {e : Event} (h : e.Fits) :
    Json.decode decoder e.toJson.compactChars = .ok e := by
  rw [Json.decode_compactChars (readable_of_whole (toJson_whole h))]
  exact decoder_toJson h 126

end Event

namespace Printer

end Printer

end Cardwalk
