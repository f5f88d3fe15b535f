import Cardwalk.Card
import Cardwalk.Clause.Set
import Cardwalk.Completion.Basic
import Cardwalk.Retrieval.Store
import Cardwalk.Run.Status
import Cardwalk.Tool.Builtin
/-!
# Failures of cards and runs

A card fails because something it needs failed.  A run fails where a card
fails, where the graph leads nowhere, or where it is cancelled.
-/

set_option autoImplicit false

namespace Cardwalk

inductive ExecutionError where
  | completion (e : CompletionError)
  | retrieval (e : RetrievalError)
  | tool (e : ToolError)
  | clause (e : ClauseError)
  /-- Nothing is known about cards of this kind. -/
  | unregistered (kind : CardKind)
deriving DecidableEq, Repr

def ExecutionError.message : ExecutionError → String
  | .completion e => "completion failed: " ++ e.message
  | .retrieval e => "retrieval failed: " ++ e.message
  | .tool e => e.text
  | .clause e => "prompt template error: " ++ e.message
  | .unregistered kind => "no executor registered for card type '" ++ kind.name ++ "'"

inductive RunError where
  /-- The graph cannot be run at all. -/
  | configuration (message : String)
  | dangling (connection source target : String)
  | stranded (card : String) (kind : CardKind) (label : String)
  | executor (card : String) (kind : CardKind) (label : String) (cause : ExecutionError)
  | cancelled (card : String)
deriving DecidableEq, Repr

namespace RunError

def noCards : RunError := .configuration "workflow has no cards"

def noStart : RunError := .configuration "workflow has no start card"

def message : RunError → String
  | .configuration message => message
  | .dangling connection source target =>
    "connection '" ++ connection ++ "' from card '" ++ source
      ++ "' points to missing card '" ++ target ++ "'"
  | .stranded _ _ label =>
    "workflow stopped at card " ++ label ++ ": no outgoing connection and not an end card"
  | .executor _ _ label cause => "card " ++ label ++ " failed: " ++ cause.message
  | .cancelled card => "run cancelled before card '" ++ card ++ "'"

def stage : RunError → RunStage
  | .configuration _ => .missingStart
  | .dangling _ _ _ => .danglingEdge
  | .stranded _ _ _ => .strandedNode
  | .executor _ _ _ _ => .executorError
  | .cancelled _ => .cancelled

def card? : RunError → Option String
  | .configuration _ => none
  | .dangling _ source _ => some source
  | .stranded card _ _ => some card
  | .executor card _ _ _ => some card
  | .cancelled card => some card

def status : RunError → RunStatus
  | .stranded _ _ _ => .terminated
  | _ => .failed

end RunError

structure RunFailure where
  stage : RunStage
  cardId : Option String
  message : String
deriving DecidableEq, Repr, Inhabited

namespace RunFailure

def toJson (f : RunFailure) : Json :=
  .object ([("stage", f.stage.toJson)]
    ++ (match f.cardId with
      | some id => [("cardId", .string id)]
      | none => [])
    ++ [("message", .string f.message)])

def decoder : Json.Decoder RunFailure :=
  Json.Decoder.RecordKind.decoder
    { title := "struct RunFailure"
      blank := ⟨.missingStart, none, ""⟩
      sealed := false
      slots :=
        [Json.Decoder.slot "stage" .required RunStage.decoder
          fun v f => { f with stage := v },
         Json.Decoder.slot "cardId" .default (Json.Decoder.nullable Json.Decoder.text)
          fun v f => { f with cardId := v },
         Json.Decoder.slot "message" .required Json.Decoder.text
          fun v f => { f with message := v }] }

end RunFailure

def RunError.failure (e : RunError) : RunFailure := ⟨e.stage, e.card?, e.message⟩

end Cardwalk
