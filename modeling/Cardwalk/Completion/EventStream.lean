import Cardwalk.Completion.Basic
import Cardwalk.Json.Decode
import Cardwalk.Text.Blank
import Cardwalk.Text.Replace
import Cardwalk.Text.Utf8
/-!
# Streamed answers

An answer arrives in pieces of any size.  Its lines that begin with
`data:` carry events; each event may add to the text, and one of them ends
the answer.  A body without any such line is read as one whole answer.
-/

set_option autoImplicit false

namespace Cardwalk

/-- What has arrived.  The bytes of the unfinished line and of the whole
body stand in reverse. -/
structure EventStream where
  pending : List UInt8 := []
  body : List UInt8 := []
  text : String := ""
  dataLines : Nat := 0
  done : Bool := false
deriving Repr, Inhabited

namespace EventStream

def marker : List Char := ['d', 'a', 't', 'a', ':']

def lastPayload : List Char := ['[', 'D', 'O', 'N', 'E', ']']

/-- One step into a value: a member, or an item by its number. -/
def descend (key : String) (index : Nat) : Json → Option Json
  | .object ms => Members.get? key ms
  | .array items => items[index]?
  | _ => none

def member (key : String) (v : Json) : Option Json := v.get? key

def delta (event : Json) : Option String :=
  (((member "choices" event).bind (descend "0" 0)).bind (member "delta")).bind
    (member "content") |>.bind Json.string?

def chomp (line : List Char) : List Char :=
  (line.reverse.dropWhile fun c => c = '\r' || c = '\n').reverse

def payload? (line : List Char) : Option (List Char) :=
  let line := chomp line
  if Text.startsWith marker line then some (Text.trim (line.drop marker.length)) else none

def takePayload (s : EventStream) (payload : List Char) : EventStream :=
  let s := { s with dataLines := s.dataLines + 1 }
  if payload = lastPayload then { s with done := true }
  else
    match Json.parse payload with
    | .ok event =>
      match delta event with
      | some t => { s with text := s.text ++ t }
      | none => s
    | .error _ => s

def takeLine (s : EventStream) (bytes : List UInt8) : EventStream :=
  match payload? (Text.decodeLossy bytes) with
  | some payload => s.takePayload payload
  | none => s

def lineEnd : UInt8 := 10

/-- Takes in the bytes of a piece; the rest of the piece in which the
answer ends is not looked at. -/
def takeBytes (s : EventStream) : List UInt8 → EventStream
  | [] => s
  | b :: bytes =>
    if b = lineEnd then
      let s := takeLine { s with pending := [] } (b :: s.pending).reverse
      if s.done then s else takeBytes s bytes
    else takeBytes { s with pending := b :: s.pending } bytes

def push (s : EventStream) (piece : List UInt8) : EventStream :=
  takeBytes { s with body := piece.reverseAux s.body } piece

def pushUntilDone (s : EventStream) : List (List UInt8) → EventStream
  | [] => s
  | piece :: rest =>
    let s := s.push piece
    if s.done then s else pushUntilDone s rest

structure Message where
  content : Option String

def messageKind : Json.Decoder.RecordKind Message :=
  { title := "struct ResponseMessage"
    blank := ⟨none⟩
    sealed := false
    slots := [Json.Decoder.slot "content" .nothing (Json.Decoder.nullable Json.Decoder.text)
      fun v _ => ⟨v⟩] }

def choiceKind : Json.Decoder.RecordKind Message :=
  { title := "struct Choice"
    blank := ⟨none⟩
    sealed := false
    slots := [Json.Decoder.slot "message" .required messageKind.decoder fun v _ => v] }

def responseKind : Json.Decoder.RecordKind (List Message) :=
  { title := "struct ChatCompletionResponse"
    blank := []
    sealed := false
    slots := [Json.Decoder.slot "choices" .required (Json.Decoder.list choiceKind.decoder)
      fun v _ => v] }

def wholeAnswer (body : List Char) : Except CompletionError String :=
  if Text.allBlank body then .error .emptyBody
  else
    match Json.decode responseKind.decoder body with
    | .error e => .error (.parse ("failed to parse response: " ++ e.message))
    | .ok choices => .ok ((choices.head?.bind (·.content)).getD "")

/-- Takes in a last line without an end, and gives the answer. -/
def finish (s : EventStream) : Except CompletionError String :=
  let s :=
    if s.done || s.pending.isEmpty then s
    else takeLine { s with pending := [] } s.pending.reverse
  if 0 < s.dataLines then .ok s.text
  else wholeAnswer (Text.decodeLossy s.body.reverse)

end EventStream

end Cardwalk
