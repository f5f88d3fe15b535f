import Cardwalk.Json.Print
import Cardwalk.Retrieval.Store
import Cardwalk.Text.Utf8
/-!
# Saved stores

A document store as a file: a byte that stands in no text, and then the
store in JSON.
-/

set_option autoImplicit false

namespace Cardwalk

namespace DocumentRow

def toJson (d : DocumentRow) : Json :=
  .object [("id", .ofNat d.id), ("name", .string d.name), ("source", .string d.source),
    ("created", .string d.created)]

def recordKind : Json.Decoder.RecordKind DocumentRow :=
  { title := "a document"
    blank := ⟨0, "", "", ""⟩
    sealed := true
    slots :=
      [Json.Decoder.slot "id" .required Json.Decoder.word fun v d => { d with id := v },
       Json.Decoder.slot "name" .required Json.Decoder.text fun v d => { d with name := v },
       Json.Decoder.slot "source" .required Json.Decoder.text
        fun v d => { d with source := v },
       Json.Decoder.slot "created" .required Json.Decoder.text
        fun v d => { d with created := v }] }

end DocumentRow

namespace ChunkRow

def toJson (c : ChunkRow) : Json :=
  .object [("document", .ofNat c.document), ("position", .ofNat c.position),
    ("text", .string c.text)]

def recordKind : Json.Decoder.RecordKind ChunkRow :=
  { title := "a chunk"
    blank := ⟨0, 0, ""⟩
    sealed := true
    slots :=
      [Json.Decoder.slot "document" .required Json.Decoder.word
        fun v c => { c with document := v },
       Json.Decoder.slot "position" .required Json.Decoder.word
        fun v c => { c with position := v },
       Json.Decoder.slot "text" .required Json.Decoder.text fun v c => { c with text := v }] }

end ChunkRow

namespace Store

def toJson (s : Store) : Json :=
  .object [("documents", .array (s.documents.map DocumentRow.toJson)),
    ("chunks", .array (s.chunks.map ChunkRow.toJson)), ("last", .ofNat s.lastId)]

def recordKind : Json.Decoder.RecordKind Store :=
  { title := "a document store"
    blank := {}
    sealed := true
    slots :=
      [Json.Decoder.slot "documents" .required
        (Json.Decoder.list DocumentRow.recordKind.decoder)
        fun v s => { s with documents := v },
       Json.Decoder.slot "chunks" .required (Json.Decoder.list ChunkRow.recordKind.decoder)
        fun v s => { s with chunks := v },
       Json.Decoder.slot "last" .required Json.Decoder.word
        fun v s => { s with lastId := v }] }

def mark : UInt8 := 0xFE

def save (s : Store) : List UInt8 := mark :: s.toJson.compact.toUTF8.toList

def load? : List UInt8 → Option Store
  | [] => none
  | b :: bytes =>
    if b = mark then
      match (Text.decode? bytes).map (Json.decode recordKind.decoder) with
      | some (.ok s) => some s
      | _ => none
    else none

end Store

end Cardwalk
