import Cardwalk.Clause.Set
import Cardwalk.Config.Completion
import Cardwalk.Config.Expand
import Cardwalk.Config.Toml

/-!
# Configuration

A configuration is merged from layers; a later layer replaces what it
sets.  A number or a model that equals the built-in one does not count as
set.
-/

set_option autoImplicit false

namespace Cardwalk

structure RetrievalConfig where
  /-- Where the documents are kept, with variables in it. -/
  database : Option String := none
deriving DecidableEq, Repr, Inhabited

namespace RetrievalConfig

def recordKind : Json.Decoder.RecordKind RetrievalConfig :=
  { title := "struct RetrievalConfig"
    blank := {}
    sealed := true
    slots := [Json.Decoder.slot "database" .nothing (Json.Decoder.nullable Json.Decoder.text)
      fun v c => { c with database := v }] }

def decoder : Json.Decoder RetrievalConfig := recordKind.decoder

def toJson (c : RetrievalConfig) : Json :=
  .object [("database", Json.ofOption .string c.database)]

def databasePath (env : String → Option String) (home : Option String)
    (c : RetrievalConfig) : Option String :=
  c.database.map (Expand.expand env home)

def merge (base later : RetrievalConfig) : RetrievalConfig :=
  ⟨later.database.or base.database⟩

end RetrievalConfig

structure Defaults where
  /-- The pause before each card, in milliseconds. -/
  pacingMs : Nat := 200
deriving DecidableEq, Repr, Inhabited

structure Config where
  defaults : Defaults := {}
  completion : CompletionConfig := {}
  retrieval : RetrievalConfig := {}
  agent : ClauseTexts := {}
deriving Repr, Inhabited

namespace Defaults

def recordKind : Json.Decoder.RecordKind Defaults :=
  { title := "struct Defaults"
    blank := {}
    sealed := true
    slots := [Json.Decoder.slot "pacing_delay_ms" .default Json.Decoder.word
      fun v _ => ⟨v⟩] }

def merge (base later : Defaults) : Defaults :=
  let standard : Defaults := {}
  ⟨CompletionConfig.later standard.pacingMs base.pacingMs later.pacingMs⟩

end Defaults

namespace Config

def recordKind : Json.Decoder.RecordKind Config :=
  { title := "struct Config"
    blank := {}
    sealed := true
    slots :=
      [Json.Decoder.slot "defaults" .default Defaults.recordKind.decoder
        fun v c => { c with defaults := v },
       Json.Decoder.slot "completion" .default CompletionConfig.decoder
        fun v c => { c with completion := v },
       Json.Decoder.slot "retrieval" .default RetrievalConfig.decoder
        fun v c => { c with retrieval := v },
       Json.Decoder.slot "agent" .default ClauseTexts.decoder
        fun v c => { c with agent := v }] }

def ofSections (sections : Members) : Option Config :=
  match Json.decodeSettings recordKind.decoder (.object sections) with
  | .ok c => some c
  | .error _ => none

def ofText (s : List Char) : Option Config := (Toml.read s).bind ofSections

def merge (base later : Config) : Config :=
  { defaults := base.defaults.merge later.defaults
    completion := base.completion.merge later.completion
    retrieval := base.retrieval.merge later.retrieval
    agent := base.agent.merge later.agent }

end Config

end Cardwalk
