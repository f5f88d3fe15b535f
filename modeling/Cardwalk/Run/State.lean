import Cardwalk.Envelope
import Cardwalk.Graph.Basic
import Cardwalk.Run.Status
/-!
# The book of a run

The status of the run, the status of every card, and the cards that were
executed with their outputs.
-/

set_option autoImplicit false

namespace Cardwalk

abbrev StatusMap := List (String × CardStatus)

namespace StatusMap

def get? (id : String) : StatusMap → Option CardStatus
  | [] => none
  | (k, v) :: rest => if k = id then some v else get? id rest

def set (id : String) (s : CardStatus) : StatusMap → StatusMap
  | [] => [(id, s)]
  | (k, v) :: rest => if k = id then (k, s) :: rest else (k, v) :: set id s rest

theorem get?_set (id id' : String) (s : CardStatus) (m : StatusMap) :
    (set id s m).get? id' = if id = id' then some s else m.get? id' := by
  induction m with
  | nil => simp [set, get?]
  | cons e rest ih =>
    obtain ⟨k, w⟩ := e
    by_cases h : k = id
    · subst h
      by_cases h' : k = id' <;> simp [set, get?, h']
    · by_cases h' : k = id'
      · subst h'
        have : ¬ id = k := fun e => h e.symm
        simp [set, get?, h, this]
      · simp [set, get?, h, h', ih]

end StatusMap

structure Step where
  card : String
  kind : CardKind
  ms : Nat
  output : Envelope
deriving Repr, Inhabited

structure RunState where
  status : RunStatus
  statuses : StatusMap
  steps : List Step
deriving Repr, Inhabited

namespace RunState

def ofGraph (g : Graph) : RunState :=
  ⟨.idle, g.cards.foldl (fun m c => StatusMap.set c.id .pending m) [], []⟩

def begin (s : RunState) : RunState := { s with status := .running }

def finish (s : RunState) (status : RunStatus) : RunState := { s with status }

def markRunning (s : RunState) (id : String) : RunState :=
  { s with statuses := StatusMap.set id .running s.statuses }

def markError (s : RunState) (id : String) : RunState :=
  { s with statuses := StatusMap.set id .error s.statuses }

def markSuccess (s : RunState) (step : Step) : RunState :=
  { s with
    statuses := StatusMap.set step.card .success s.statuses
    steps := s.steps ++ [step] }

end RunState

end Cardwalk
