import Cardwalk.Run.Executor

/-!
# Written down calls

Whatever acts on a state may be made to write down what it does, in a list
beside the state. Writing changes nothing else. Services that write down
their calls tell how often, in which order and with what they were called.
-/

set_option autoImplicit false

namespace Cardwalk

/-- Acts on the state and adds to the record beside it. -/
def noting {σ α τ : Type} (act : σ → α × σ) (note : σ → α × σ → List τ) (w : σ × List τ) :
    α × (σ × List τ) :=
  ((act w.1).1, (act w.1).2, w.2 ++ note w.1 (act w.1))

inductive Call where
  | complete (prompt model : String) (answer : Except CompletionError Completion)
  | retrieve (query : String) (count : Nat) (answer : Except RetrievalError (List Retrieved))
  | callTool (call : ToolCall) (answer : Except ToolError Json)

namespace Call

def prompt : Call → Option String
  | .complete prompt _ _ => some prompt
  | _ => none

def asked : Call → Option (String × Except CompletionError Completion)
  | .complete _ model answer => some (model, answer)
  | _ => none

def used : Call → Option (ToolCall × Except ToolError Json)
  | .callTool call answer => some (call, answer)
  | _ => none

end Call

variable {σ : Type}

def Context.logged (ctx : Context σ) : Context (σ × List Call) where
  complete prompt model :=
    noting (ctx.complete prompt model) fun _ a => [.complete prompt model a.1]
  retrieve query count :=
    noting (ctx.retrieve query count) fun _ a => [.retrieve query count a.1]
  callTool name args :=
    noting (ctx.callTool name args) fun _ a => [.callTool ⟨name, args⟩ a.1]
  clauses := ctx.clauses
  model := ctx.model

theorem Context.logged_complete {ctx : Context σ} {prompt model : String} {s s' : σ}
    {answer : Except CompletionError Completion}
    (h : ctx.complete prompt model s = (answer, s')) (log : List Call) :
    ctx.logged.complete prompt model (s, log) =
      (answer, s', log ++ [.complete prompt model answer]) := by
  simp [logged, noting, h]

theorem Context.logged_callTool {ctx : Context σ} {name : String} {args : Json} {s s' : σ}
    {answer : Except ToolError Json} (h : ctx.callTool name args s = (answer, s'))
    (log : List Call) :
    ctx.logged.callTool name args (s, log) =
      (answer, s', log ++ [.callTool ⟨name, args⟩ answer]) := by
  simp [logged, noting, h]

end Cardwalk
