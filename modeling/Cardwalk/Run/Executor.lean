import Cardwalk.Format
import Cardwalk.Placeholder
import Cardwalk.Run.Error

/-!
# What cards do

Cards ask a model, a document store and tools.  These may remember
anything: each of them acts on a state, which also holds whatever else
happens outside.  There is one executor for each kind of card.  That of an
agent asks a model again and again: where the answer calls a tool, the result
of the tool is added to the prompt; any other answer is the final one, and
after five answers the agent gives up.
-/

set_option autoImplicit false

namespace Cardwalk

structure Services (σ : Type) where
  /-- Asks a model, given the prompt and the name of the model. -/
  complete : String → String → σ → Except CompletionError Completion × σ
  /-- Retrieves chunks, given the query and the number wanted. -/
  retrieve : String → Nat → σ → Except RetrievalError (List Retrieved) × σ
  /-- Calls a tool, given its name and its arguments. -/
  callTool : String → Json → σ → Except ToolError Json × σ

structure Context (σ : Type) extends Services σ where
  clauses : ClauseSet := .builtin
  model : String := defaultModel

abbrev Action (σ α : Type) := σ → Except ExecutionError α × σ

abbrev Executor (σ : Type) := Card → Option Envelope → Context σ → Action σ Envelope

namespace Agent

def maxIterations : Nat := 5

def model : String := defaultModel

def exhaustedMessage : String := "Agent达到最大迭代次数，未能给出最终答案。"

inductive State where
  | thinking
  | toolCalling
  /-- The model gave a final answer. -/
  | done
  /-- All answers were used up. -/
  | exhausted
deriving DecidableEq, Repr

def State.name : State → String
  | .thinking => "thinking"
  | .toolCalling => "tool_calling"
  | .done => "done"
  | .exhausted => "exhausted"

structure Run where
  output : Envelope
  state : State
  iterations : Nat
  steps : List Envelope

def parseTools (s : String) : List String :=
  (((Text.splitAt ',' s.toList).map Text.trim).filter fun t => !t.isEmpty).map String.ofList

def toolStep (name : String) (result : Json) : Envelope :=
  { text := some ("Agent执行了工具" ++ name), toolResult := some result }

def unavailableStep (name : String) : Envelope :=
  .ofText ("Agent试图调用不可用工具: " ++ name)

def exhaustedOutput (last : String) : Envelope :=
  { text := some exhaustedMessage, incompleteResponse := some last }

variable {σ : Type}

def answerCall (ctx : Context σ) (tools : List String) (call : ToolCall) :
    Action σ (String × Envelope) := fun s =>
  if tools.contains call.name then
    match ctx.callTool call.name call.args s with
    | (.error e, s) => (.error (.tool e), s)
    | (.ok result, s) =>
      match ctx.clauses.toolResult call.name result.display with
      | .error e => (.error (.clause e), s)
      | .ok clause => (.ok (clause, toolStep call.name result), s)
  else
    match ctx.clauses.unavailableTool call.name with
    | .error e => (.error (.clause e), s)
    | .ok clause => (.ok (clause, unavailableStep call.name), s)

/-- The turns of an agent, given how many are left.  The suffix stands
behind the prompt of every turn. -/
def turns (ctx : Context σ) (tools : List String) (suffix : String) :
    Nat → Nat → String → List Envelope → String → Action σ Run
  | 0, done, _, steps, last => fun s =>
    (.ok ⟨exhaustedOutput last, .exhausted, done, steps⟩, s)
  | left + 1, done, prompt, steps, _ => fun s =>
    match ctx.complete (prompt ++ suffix) model s with
    | (.error e, s) => (.error (.completion e), s)
    | (.ok answer, s) =>
      match ToolCall.extract answer.text with
      | none => (.ok ⟨.ofText answer.text, .done, done + 1, steps⟩, s)
      | some call =>
        match answerCall ctx tools call s with
        | (.error e, s) => (.error e, s)
        | (.ok (clause, step), s) =>
          turns ctx tools suffix left (done + 1) (prompt ++ clause) (steps ++ [step])
            answer.text s

def suffix (ctx : Context σ) (tools : List String) : Except ClauseError String :=
  match if tools.isEmpty then ctx.clauses.noTools else ctx.clauses.tools tools with
  | .error e => .error e
  | .ok toolClause =>
    match ctx.clauses.answer with
    | .error e => .error e
    | .ok answerClause => .ok (toolClause ++ answerClause)

def prompt (card : Card) (previous : Option Envelope) : String :=
  Placeholder.resolve previous Placeholder.agentBindings
    ((card.text "initial_prompt").getD "")

def tools (card : Card) : List String := parseTools ((card.text "tools").getD "")

def run (card : Card) (previous : Option Envelope) (ctx : Context σ) : Action σ Run := fun s =>
  match suffix ctx (tools card) with
  | .error e => (.error (.clause e), s)
  | .ok suffix =>
    turns ctx (tools card) suffix maxIterations 0 (prompt card previous) [] "" s

end Agent

namespace Executor

variable {σ : Type}

def startFallback : String := "workflow_started_data"

def queryFallback : String := "请提供相关信息"

def defaultCount : Nat := 5

def done (e : Envelope) : Action σ Envelope := fun s => (.ok e, s)

def startValue (card : Card) : String :=
  match card.text "output" with
  | some s => if s.isEmpty then startFallback else s
  | none => startFallback

def start : Executor σ := fun card _ _ => done (.ofValue (startValue card))

def textInput : Executor σ := fun card _ _ => done (.ofValue ((card.text "value").getD ""))

def query (card : Card) (previous : Option Envelope) : String :=
  let q := Placeholder.resolve previous Placeholder.queryBindings
    ((card.text "query").getD "")
  if Text.allBlank q.toList then queryFallback else q

def count (card : Card) : Nat :=
  match card.properties.integer "top_k" with
  | some k => if 1 ≤ k then k else defaultCount
  | none => defaultCount

def ragContent : Executor σ := fun card previous ctx s =>
  match ctx.retrieve (query card previous) (count card) s with
  | (.error e, s) => (.error (.retrieval e), s)
  | (.ok chunks, s) =>
    (.ok (.ofContent ("\n\n".intercalate ((chunks.take (count card)).map (·.text)))), s)

def modelOf (card : Card) (standard : String) : String :=
  match card.text "model" with
  | some m => if (trimmed m).isEmpty then standard else trimmed m
  | none => standard

def llmCall : Executor σ := fun card previous ctx s =>
  let prompt := Placeholder.resolvePrompt ((card.text "prompt").getD "") previous
  match ctx.complete prompt (modelOf card ctx.model) s with
  | (.error e, s) => (.error (.completion e), s)
  | (.ok answer, s) =>
    (.ok { Envelope.ofText answer.text with toolCall := ToolCall.extract answer.text }, s)

def agent : Executor σ := fun card previous ctx s =>
  match Agent.run card previous ctx s with
  | (.error e, s) => (.error e, s)
  | (.ok run, s) => (.ok run.output, s)

def formatOutput : Executor σ := fun card previous _ =>
  let filled := Placeholder.fill ((card.text "template").getD "") previous
  let format := Format.ofName ((card.text "format").getD "")
  done (.ofFormatted (format.render filled))

def finish : Executor σ := fun _ previous _ => done (.wrap (previous.getD .empty))

def builtin : CardKind → Executor σ
  | .start => start
  | .textInput => textInput
  | .ragContent => ragContent
  | .llmCall => llmCall
  | .agent => agent
  | .formatOutput => formatOutput
  | .finish => finish

end Executor

abbrev Registry (σ : Type) := CardKind → Option (Executor σ)

def Registry.builtin {σ : Type} : Registry σ := fun k => some (Executor.builtin k)

end Cardwalk
