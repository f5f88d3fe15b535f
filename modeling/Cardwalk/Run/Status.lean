import Cardwalk.Json.Decode
/-!
# States of runs and cards

How a run stands as a whole, how each card stands, and where a run failed.
-/

set_option autoImplicit false

namespace Cardwalk

inductive RunStatus where
  | idle
  | running
  /-- An end card was reached. -/
  | completed
  /-- The run came to a card with nowhere to go. -/
  | terminated
  | failed
deriving DecidableEq, Repr, Inhabited

namespace RunStatus

def all : List RunStatus := [.idle, .running, .completed, .terminated, .failed]

def name : RunStatus → String
  | .idle => "idle"
  | .running => "running"
  | .completed => "completed"
  | .terminated => "terminated"
  | .failed => "failed"

def word : RunStatus → String
  | .idle => "Idle"
  | .running => "Running"
  | .completed => "Completed"
  | .terminated => "Terminated"
  | .failed => "Failed"

def toJson (s : RunStatus) : Json := .string s.name

def decoder : Json.Decoder RunStatus :=
  Json.Decoder.oneName (all.map fun s => (s.name, s))

theorem decoder_toJson (s : RunStatus) (origin : Json.Origin) (depth : Nat) :
    decoder origin depth (Json.Doc.ofJson s.toJson) = .ok s := by
  cases s <;> cases origin <;> rfl

end RunStatus

inductive RunStage where
  | missingStart
  | danglingEdge
  | strandedNode
  | executorError
  | cancelled
deriving DecidableEq, Repr, Inhabited

namespace RunStage

def all : List RunStage :=
  [.missingStart, .danglingEdge, .strandedNode, .executorError, .cancelled]

def name : RunStage → String
  | .missingStart => "missing-start"
  | .danglingEdge => "dangling-edge"
  | .strandedNode => "stranded-node"
  | .executorError => "executor-error"
  | .cancelled => "cancelled"

def toJson (s : RunStage) : Json := .string s.name

def decoder : Json.Decoder RunStage :=
  Json.Decoder.oneName (all.map fun s => (s.name, s))

theorem decoder_toJson (s : RunStage) (origin : Json.Origin) (depth : Nat) :
    decoder origin depth (Json.Doc.ofJson s.toJson) = .ok s := by
  cases s <;> cases origin <;> rfl

end RunStage

inductive CardStatus where
  | pending
  | running
  | success
  | error
deriving DecidableEq, Repr, Inhabited

def CardStatus.name : CardStatus → String
  | .pending => "pending"
  | .running => "running"
  | .success => "success"
  | .error => "error"

end Cardwalk
