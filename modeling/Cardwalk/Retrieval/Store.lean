import Cardwalk.Retrieval.Chunk
import Cardwalk.Json.Decode
/-!
# The document store

A store has a table of documents and a table of their chunks, which are
joined by the number of the document.  A number is never used again, and a
document replaces the one from the same source.
-/

set_option autoImplicit false

namespace Cardwalk

structure Retrieved where
  text : String
  score : Float
  source : Option String := none
deriving Repr, Inhabited

namespace Retrieved

def toJson (r : Retrieved) : Json :=
  .object ([("text", .string r.text), ("score", .ofFloat r.score)]
    ++ match r.source with
      | some s => [("source", .string s)]
      | none => [])

def decoder : Json.Decoder Retrieved :=
  Json.Decoder.RecordKind.decoder
    { title := "struct RetrievedChunk"
      blank := ⟨"", 0, none⟩
      sealed := false
      slots :=
        [Json.Decoder.slot "text" .required Json.Decoder.text
          fun v r => { r with text := v },
         Json.Decoder.slot "score" .required Json.Decoder.double
          fun v r => { r with score := v },
         Json.Decoder.slot "source" .default (Json.Decoder.nullable Json.Decoder.text)
          fun v r => { r with source := v }] }

end Retrieved

structure DocumentRow where
  id : Nat
  name : String
  source : String
  /-- The time it was taken in, as it is shown. -/
  created : String
deriving DecidableEq, Repr, Inhabited

structure ChunkRow where
  document : Nat
  position : Nat
  text : String
deriving DecidableEq, Repr, Inhabited

structure Document extends DocumentRow where
  chunks : List ChunkRow
deriving DecidableEq, Repr, Inhabited

/-- The two tables, and the highest number that a document was ever given.
Nothing in the tables keeps a chunk from outliving its document. -/
structure Store where
  documents : List DocumentRow := []
  chunks : List ChunkRow := []
  lastId : Nat := 0
deriving Repr, Inhabited

inductive IngestError where
  | noText (name : String)
  /-- There is a document from the same source already. -/
  | sameSource
deriving DecidableEq, Repr

def IngestError.message : IngestError → String
  | .noText name => "document '" ++ name ++ "' has no text"
  | .sameSource => "UNIQUE constraint failed: documents.source"

def ChunkRow.number (document : Nat) : Nat → List String → List ChunkRow
  | _, [] => []
  | position, text :: rest => ⟨document, position, text⟩ :: number document (position + 1) rest

namespace Store

def empty : Store := {}

def idOf? (s : Store) (source : String) : Option Nat :=
  (s.documents.find? fun d => d.source = source).map (·.id)

def deleteChunks (id : Int) (s : Store) : Store :=
  { s with chunks := s.chunks.filter fun c => (c.document : Int) ≠ id }

def deleteRow (id : Int) (s : Store) : Nat × Store :=
  ((s.documents.filter fun d => (d.id : Int) = id).length,
    { s with documents := s.documents.filter fun d => (d.id : Int) ≠ id })

def insertRow (name source created : String) (s : Store) :
    Except IngestError (DocumentRow × Store) :=
  if s.documents.any fun d => d.source = source then .error .sameSource
  else
    let row : DocumentRow := ⟨s.lastId + 1, name, source, created⟩
    .ok (row, { s with documents := s.documents ++ [row], lastId := row.id })

def insertChunk (row : ChunkRow) (s : Store) : Store :=
  { s with chunks := s.chunks ++ [row] }

def insertChunks : List ChunkRow → Store → Store
  | [], s => s
  | row :: rest, s => insertChunks rest (s.insertChunk row)

def remove (s : Store) (id : Int) : Bool × Store :=
  let (count, s) := (s.deleteChunks id).deleteRow id
  (0 < count, s)

def contains (s : Store) (id : Int) : Bool := (s.remove id).1

def delete (s : Store) (id : Int) : Store := (s.remove id).2

def pieces (text : String) : List String := (Chunk.ofText text.toList).map String.ofList

def cleared (s : Store) (source : String) : Store :=
  match s.idOf? source with
  | some id => s.delete id
  | none => s

/-- Takes in a document; it replaces the one from the same source. -/
def ingest (s : Store) (name source text created : String) :
    Except IngestError (Document × Store) :=
  if (pieces text).isEmpty then .error (.noText name)
  else
    match (s.cleared source).insertRow name source created with
    | .error e => .error e
    | .ok (row, s) =>
      let rows := ChunkRow.number row.id 0 (pieces text)
      .ok (⟨row, rows⟩, s.insertChunks rows)

def withChunks (s : Store) (d : DocumentRow) : Document :=
  ⟨d, s.chunks.filter fun c => c.document = d.id⟩

def isNewer (a b : Document) : Bool :=
  b.created < a.created || a.created = b.created && b.id ≤ a.id

def list (s : Store) : List Document := (s.documents.map s.withChunks).mergeSort isNewer

def isEarlier (a b : ChunkRow × String) : Bool :=
  a.1.document < b.1.document || a.1.document = b.1.document && a.1.position ≤ b.1.position

def named (s : Store) : List (ChunkRow × String) :=
  (s.chunks.flatMap fun c =>
    (s.documents.filter fun d => d.id = c.document).map fun d => (c, d.name)).mergeSort isEarlier

def rate (query : String) (c : ChunkRow × String) : Retrieved :=
  ⟨c.1.text, (Score.share query.toList c.1.text.toList).value, some c.2⟩

/-- The chunks with a score, the best first; of equally good ones the
earlier. -/
def ranked (s : Store) (query : String) : List Retrieved :=
  ((s.named.map (rate query)).filter fun r => 0 < r.score).mergeSort fun a b => b.score ≤ a.score

def search (s : Store) (query : String) (count : Nat) : List Retrieved :=
  (s.ranked query).take count

end Store

inductive RetrievalError where
  | uninitialized
  | storage (message : String)
deriving DecidableEq, Repr

def RetrievalError.message : RetrievalError → String
  | .uninitialized => "retrieval index is not initialized"
  | .storage message => "retrieval storage error: " ++ message

end Cardwalk
