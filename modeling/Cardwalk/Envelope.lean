import Cardwalk.ToolCall
/-!
# Envelopes

An envelope is the output of one card and the input of the next.  Each
card fills the members that belong to its kind and reads those it
understands.
-/

set_option autoImplicit false

namespace Cardwalk

def Json.display : Json → String
  | .string s => s
  | v => v.compact

structure Envelope where
  value : Option String := none
  text : Option String := none
  content : Option String := none
  toolResult : Option Json := none
  toolCall : Option ToolCall := none
  formattedText : Option String := none
  finalResult : Option Envelope := none
  incompleteResponse : Option String := none
  error : Option String := none
deriving Repr, Inhabited

inductive Field where
  | value
  | text
  | content
  | toolResult
deriving DecidableEq, Repr

namespace Envelope

def empty : Envelope := {}

def ofValue (s : String) : Envelope := { value := some s }

def ofText (s : String) : Envelope := { text := some s }

def ofContent (s : String) : Envelope := { content := some s }

def ofFormatted (s : String) : Envelope := { formattedText := some s }

def wrap (e : Envelope) : Envelope := { finalResult := some e }

/-- A member as a text.  A tool result of `null` counts as absent. -/
def field (e : Envelope) : Field → Option String
  | .value => e.value
  | .text => e.text
  | .content => e.content
  | .toolResult =>
    match e.toolResult with
    | some .null => none
    | some v => some v.display
    | none => none

def present {α : Type} (key : String) (f : α → Json) : Option α → List (String × Json)
  | none => []
  | some a => [(key, f a)]

def toJson : Envelope → Json
  | ⟨value, text, content, toolResult, toolCall, formatted, final, incomplete, error⟩ =>
    .object (present "value" .string value ++ present "text" .string text
      ++ present "content" .string content ++ present "tool_result" id toolResult
      ++ present "tool_call" ToolCall.toJson toolCall
      ++ present "formatted_text" .string formatted
      ++ (match final with
        | none => []
        | some e => [("final_result", toJson e)])
      ++ present "final_incomplete_response" .string incomplete
      ++ present "error" .string error)

def pretty (e : Envelope) : String := e.toJson.pretty

def recordKind (inner : Json.Decoder Envelope) : Json.Decoder.RecordKind Envelope :=
  let text (key : String) (put : Option String → Envelope → Envelope) :=
    Json.Decoder.slot key .default (Json.Decoder.nullable Json.Decoder.text) put
  { title := "struct OutputEnvelope"
    blank := empty
    sealed := false
    slots :=
      [text "value" fun v e => { e with value := v },
       text "text" fun v e => { e with text := v },
       text "content" fun v e => { e with content := v },
       Json.Decoder.slot "tool_result" .default (Json.Decoder.nullable Json.any)
        fun v e => { e with toolResult := v },
       Json.Decoder.slot "tool_call" .default (Json.Decoder.nullable ToolCall.decoder)
        fun v e => { e with toolCall := v },
       text "formatted_text" fun v e => { e with formattedText := v },
       Json.Decoder.slot "final_result" .default (Json.Decoder.nullable inner)
        fun v e => { e with finalResult := v },
       text "final_incomplete_response" fun v e => { e with incompleteResponse := v },
       text "error" fun v e => { e with error := v }] }

/-- Reads envelopes nested up to the given number of times. -/
def decoderUpTo : Nat → Json.Decoder Envelope
  | 0 => fun _ _ _ => .error (.flaw .tooDeep)
  | n + 1 => (recordKind (decoderUpTo n)).decoder

def decoder : Json.Decoder Envelope := decoderUpTo (Json.maxDepth + 1)

end Envelope

end Cardwalk
