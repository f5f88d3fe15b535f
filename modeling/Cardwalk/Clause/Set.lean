import Cardwalk.Clause.Render
import Cardwalk.Json.Decode
import Cardwalk.Suggestion
/-!
# The clauses of an agent's prompt

Five clauses make up what an agent is told besides its task.  Each has a
built-in text, and a configuration may replace any of them.
-/

set_option autoImplicit false

namespace Cardwalk

inductive ClauseKind where
  | tools
  | noTools
  | answer
  | toolResult
  | unavailableTool
deriving DecidableEq, Repr

namespace ClauseKind

def all : List ClauseKind := [.tools, .noTools, .answer, .toolResult, .unavailableTool]

def name : ClauseKind → String
  | .tools => "tools_clause"
  | .noTools => "no_tools_clause"
  | .answer => "answer_clause"
  | .toolResult => "tool_result_clause"
  | .unavailableTool => "unavailable_tool_clause"

def builtin : ClauseKind → String
  | .tools =>
    "\n\n你可用的工具：\x7b\x7b tools | join(', ') \x7d\x7d\n\n如果你需要调用工具，请使用格式：调用工具 tool_name(\x7b\"param1\": \"value1\", \"param2\": \"value2\"\x7d)。"
  | .noTools => "\n\n你没有任何可用的工具。"
  | .answer => "\n\n否则直接给出答案。"
  | .toolResult =>
    "\n\n工具 \x7b\x7b tool \x7d\x7d 的结果：\x7b\x7b result \x7d\x7d\n\n根据这个结果，你的下一步是什么？"
  | .unavailableTool =>
    "\n\n警告：工具 \x7b\x7b tool \x7d\x7d 不可用。请重新思考。"

end ClauseKind

structure ClauseTexts where
  tools : Option String := none
  noTools : Option String := none
  answer : Option String := none
  toolResult : Option String := none
  unavailableTool : Option String := none
deriving DecidableEq, Repr, Inhabited

namespace ClauseTexts

def get (t : ClauseTexts) : ClauseKind → Option String
  | .tools => t.tools
  | .noTools => t.noTools
  | .answer => t.answer
  | .toolResult => t.toolResult
  | .unavailableTool => t.unavailableTool

def put (v : Option String) (t : ClauseTexts) : ClauseKind → ClauseTexts
  | .tools => { t with tools := v }
  | .noTools => { t with noTools := v }
  | .answer => { t with answer := v }
  | .toolResult => { t with toolResult := v }
  | .unavailableTool => { t with unavailableTool := v }

def recordKind : Json.Decoder.RecordKind ClauseTexts :=
  { title := "struct AgentPromptConfig"
    blank := {}
    sealed := true
    slots := ClauseKind.all.map fun k =>
      Json.Decoder.slot k.name .nothing (Json.Decoder.nullable Json.Decoder.text)
        fun v t => put v t k }

def decoder : Json.Decoder ClauseTexts := recordKind.decoder

def toJson (t : ClauseTexts) : Json :=
  .object (ClauseKind.all.map fun k => (k.name, Json.ofOption .string (t.get k)))

def merge (base later : ClauseTexts) : ClauseTexts :=
  { tools := later.tools.or base.tools
    noTools := later.noTools.or base.noTools
    answer := later.answer.or base.answer
    toolResult := later.toolResult.or base.toolResult
    unavailableTool := later.unavailableTool.or base.unavailableTool }

end ClauseTexts

inductive ClauseError where
  | undefined (clause name : String) (suggestion : Option String)
  | malformed (clause : String) (line : Nat) (detail : Option String)
  | failed (clause : String) (cause : Clause.Failure)
deriving DecidableEq, Repr

namespace ClauseError

def knownVariables : List String := ["tools", "tool", "result"]

def kindName : Clause.Failure → String
  | .undefined => "UndefinedError"
  | .unknownFilter _ _ => "UnknownFilter"
  | .unknownTest _ _ => "UnknownTest"
  | .invalidOperation => "InvalidOperation"

def placeIn (clause : String) (line : Nat) : String :=
  " (in " ++ clause ++ ":" ++ String.ofList (Decimal.natDigits line) ++ ")"

def failureText (clause : String) : Clause.Failure → String
  | .undefined => "undefined value"
  | .unknownFilter name line =>
    "unknown filter: filter " ++ name ++ " is unknown" ++ placeIn clause line
  | .unknownTest name line =>
    "unknown test: test " ++ name ++ " is unknown" ++ placeIn clause line
  | .invalidOperation => "invalid operation"

def suggestionText : Option String → String
  | none => ""
  | some s => ", did you mean '" ++ s ++ "'?"

def message : ClauseError → String
  | .undefined clause name suggestion =>
    "undefined variable '" ++ name ++ "' in '" ++ clause ++ "'" ++ suggestionText suggestion
  | .malformed clause line detail =>
    "syntax error in '" ++ clause ++ "' at line " ++ String.ofList (Decimal.natDigits line)
      ++ match detail with
        | some d => ": " ++ d
        | none => ""
  | .failed clause cause => "template error: " ++ failureText clause cause

/-- The name that a failure message quotes between backquotes. -/
def quotedName (message : String) : String :=
  match message.toList.dropWhile (· ≠ '`') with
  | [] => "unknown"
  | _ :: rest =>
    if rest.contains '`' then String.ofList (rest.takeWhile (· ≠ '`')) else "unknown"

/-- An undefined variable, with a name of a known variable near to it. -/
def undefinedVariable (clause name : String) (known : List String) : ClauseError :=
  .undefined clause name (Suggestion.correction name known)

end ClauseError

structure ClauseSet where
  nodes : ClauseKind → List Clause.Node

namespace ClauseSet

def readAll (texts : ClauseTexts) : List ClauseKind →
    Except ClauseError (List (ClauseKind × List Clause.Node))
  | [] => .ok []
  | k :: rest =>
    match Clause.read ((texts.get k).getD k.builtin) with
    | .error line => .error (.malformed k.name line none)
    | .ok nodes => (readAll texts rest).map ((k, nodes) :: ·)

def ofTexts (texts : ClauseTexts) : Except ClauseError ClauseSet :=
  (readAll texts ClauseKind.all).map fun read =>
    { nodes := fun k => ((read.find? fun r => r.1 = k).map (·.2)).getD [] }

def builtin : ClauseSet :=
  match ofTexts {} with
  | .ok s => s
  | .error _ => ⟨fun _ => []⟩

/-- Renders a clause.  The failure message of an undefined variable quotes
no name, so the name is not known. -/
def render (s : ClauseSet) (k : ClauseKind) (scope : Clause.Scope) :
    Except ClauseError String :=
  match Clause.render (s.nodes k) scope with
  | .ok t => .ok t
  | .error .undefined =>
    .error (ClauseError.undefinedVariable k.name (ClauseError.quotedName "undefined value")
      ClauseError.knownVariables)
  | .error cause => .error (.failed k.name cause)

def tools (s : ClauseSet) (names : List String) : Except ClauseError String :=
  s.render .tools [("tools", .list (names.map .text))]

def noTools (s : ClauseSet) : Except ClauseError String := s.render .noTools []

def answer (s : ClauseSet) : Except ClauseError String := s.render .answer []

def toolResult (s : ClauseSet) (tool result : String) : Except ClauseError String :=
  s.render .toolResult [("tool", .text tool), ("result", .text result)]

def unavailableTool (s : ClauseSet) (tool : String) : Except ClauseError String :=
  s.render .unavailableTool [("tool", .text tool)]

end ClauseSet

end Cardwalk
