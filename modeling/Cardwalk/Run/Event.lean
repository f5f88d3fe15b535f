import Cardwalk.Card
import Cardwalk.Run.Status
/-!
# Events of a run

What a run tells while it goes on.
-/

set_option autoImplicit false

namespace Cardwalk

inductive Event where
  | runStart (cards : Nat) (start : String)
  | cardStart (card : String) (kind : CardKind) (title : String) (index : Nat)
  | cardComplete (card : String) (ms : Nat)
  | cardError (card error : String)
  | runComplete (status : RunStatus) (ms cards : Nat)
  | runError (stage : RunStage) (card : Option String) (message : String)
  | info (message : String)
deriving DecidableEq, Repr, Inhabited

namespace Event

def toJson : Event → Json
  | .runStart cards start =>
    .object [("type", .string "RunStart"), ("cards", .ofNat cards),
      ("start_card", .string start)]
  | .cardStart card kind title index =>
    .object [("type", .string "CardStart"), ("card_id", .string card),
      ("card_type", kind.toJson), ("title", .string title), ("index", .ofNat index)]
  | .cardComplete card ms =>
    .object [("type", .string "CardComplete"), ("card_id", .string card),
      ("duration_ms", .ofNat ms)]
  | .cardError card error =>
    .object [("type", .string "CardError"), ("card_id", .string card),
      ("error", .string error)]
  | .runComplete status ms cards =>
    .object [("type", .string "RunComplete"), ("status", status.toJson),
      ("duration_ms", .ofNat ms), ("cards_executed", .ofNat cards)]
  | .runError stage card message =>
    .object ([("type", .string "RunError"), ("stage", stage.toJson)]
      ++ (match card with
        | some id => [("card_id", .string id)]
        | none => [])
      ++ [("message", .string message)])
  | .info message => .object [("type", .string "Info"), ("message", .string message)]

structure Draft where
  text₁ : String := ""
  text₂ : String := ""
  number₁ : Nat := 0
  number₂ : Nat := 0
  card : Option String := none
  kind : CardKind := .start
  status : RunStatus := .idle
  stage : RunStage := .missingStart
deriving Inhabited

structure Kind where
  record : Json.Decoder.RecordKind Draft
  make : Draft → Event

private def kindOf (name : String) (slots : List (Json.Decoder.Slot Draft))
    (make : Draft → Event) : String × Kind :=
  (name, ⟨⟨"struct variant OutputEvent::" ++ name, {}, slots, false⟩, make⟩)

private def firstText (key : String) : Json.Decoder.Slot Draft :=
  Json.Decoder.slot key .required Json.Decoder.text fun v d => { d with text₁ := v }

private def secondText (key : String) : Json.Decoder.Slot Draft :=
  Json.Decoder.slot key .required Json.Decoder.text fun v d => { d with text₂ := v }

private def firstNumber (key : String) (r : Json.Decoder Nat) : Json.Decoder.Slot Draft :=
  Json.Decoder.slot key .required r fun v d => { d with number₁ := v }

private def secondNumber (key : String) (r : Json.Decoder Nat) : Json.Decoder.Slot Draft :=
  Json.Decoder.slot key .required r fun v d => { d with number₂ := v }

def kinds : List (String × Kind) :=
  [kindOf "RunStart"
    [firstNumber "cards" Json.Decoder.size, firstText "start_card"]
    fun d => .runStart d.number₁ d.text₁,
   kindOf "CardStart"
    [firstText "card_id",
     Json.Decoder.slot "card_type" .required CardKind.decoder
      fun v d => { d with kind := v },
     secondText "title", firstNumber "index" Json.Decoder.size]
    fun d => .cardStart d.text₁ d.kind d.text₂ d.number₁,
   kindOf "CardComplete"
    [firstText "card_id", firstNumber "duration_ms" Json.Decoder.word]
    fun d => .cardComplete d.text₁ d.number₁,
   kindOf "CardError" [firstText "card_id", secondText "error"]
    fun d => .cardError d.text₁ d.text₂,
   kindOf "RunComplete"
    [Json.Decoder.slot "status" .required RunStatus.decoder
      fun v d => { d with status := v },
     firstNumber "duration_ms" Json.Decoder.word,
     secondNumber "cards_executed" Json.Decoder.size]
    fun d => .runComplete d.status d.number₁ d.number₂,
   kindOf "RunError"
    [Json.Decoder.slot "stage" .required RunStage.decoder fun v d => { d with stage := v },
     Json.Decoder.slot "card_id" .default (Json.Decoder.nullable Json.Decoder.text)
      fun v d => { d with card := v },
     firstText "message"]
    fun d => .runError d.stage d.card d.text₁,
   kindOf "Info" [firstText "message"] fun d => .info d.text₁]

def decoder : Json.Decoder Event :=
  Json.Decoder.tagged "internally tagged enum OutputEvent" "type"
    (kinds.map fun k => (k.1, k.2.record, k.2.make))

end Event

end Cardwalk
