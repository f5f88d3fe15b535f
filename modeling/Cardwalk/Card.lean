import Cardwalk.Json.Decode
import Cardwalk.Text.Blank

/-!
# Cards

A card is of one of seven kinds.  The kind fixes the name in graph files,
the title on the canvas, the ports, and the properties a new card starts
with.  Properties are looked at as texts or as natural numbers, whatever they
were written as.  A card also has an identifier, and a place on the canvas
that no executor of the program looks at.
-/

set_option autoImplicit false

namespace Cardwalk

def defaultModel : String := "THUDM/GLM-4-32B-0414"

inductive CardKind where
  | start
  | textInput
  | ragContent
  | llmCall
  | agent
  | formatOutput
  | finish
deriving DecidableEq, Repr, Inhabited

namespace CardKind

def all : List CardKind :=
  [.start, .textInput, .ragContent, .llmCall, .agent, .formatOutput, .finish]

def name : CardKind → String
  | .start => "start"
  | .textInput => "text_input"
  | .ragContent => "rag_content"
  | .llmCall => "llm_call"
  | .agent => "agent"
  | .formatOutput => "format_output"
  | .finish => "end"

def title : CardKind → String
  | .start => "开始"
  | .textInput => "文本输入"
  | .ragContent => "RAG 内容"
  | .llmCall => "LLM 调用"
  | .agent => "Agent"
  | .formatOutput => "格式化输出"
  | .finish => "结束"

def inputs : CardKind → Nat
  | .start => 0
  | _ => 1

def outputs : CardKind → Nat
  | .finish => 0
  | _ => 1

def defaults : CardKind → Members
  | .start => [("output", .string "workflow_start")]
  | .textInput => [("value", .string "默认文本")]
  | .ragContent => [("query", .string "产品介绍"), ("top_k", .ofNat 5)]
  | .llmCall => [("model", .string defaultModel), ("prompt", .string "提示...")]
  | .agent =>
    [("role", .string "通用助手"), ("initial_prompt", .string "请告诉我如何解决问题。"),
     ("tools", .string "web_search,calculator")]
  | .formatOutput =>
    [("format", .string "text"),
     ("template", .string "结果：\x7b\x7binput\x7d\x7d")]
  | .finish => [("result", .string "workflow_end")]

def names : List (String × CardKind) := all.map fun k => (k.name, k)

def decoder : Json.Decoder CardKind := Json.Decoder.oneName names

def toJson (k : CardKind) : Json := .string k.name

theorem mem_all (k : CardKind) : k ∈ all := by cases k <;> decide

theorem decoder_toJson (k : CardKind) (origin : Json.Origin) (depth : Nat) :
    decoder origin depth (Json.Doc.ofJson k.toJson) = .ok k := by
  cases k <;> cases origin <;> rfl

end CardKind

def readNatural (max : Nat) (s : List Char) : Option Nat :=
  let ds := match s with
    | '+' :: rest => rest
    | s => s
  if ds.isEmpty || !ds.all Char.isDigit then none
  else
    let n := ds.foldl (fun n c => n * 10 + (c.toNat - 48)) 0
    if n ≤ max then some n else none

namespace Members

def text (key : String) (ms : Members) : Option String :=
  match ms.get? key with
  | some (.string s) => some s
  | some (.number n) => some (String.ofList n.chars)
  | some (.bool true) => some "true"
  | some (.bool false) => some "false"
  | _ => none

/-- A number that is not negative, or a text that holds one.  A
floating-point number loses its fraction and stops at the largest word. -/
def integer (key : String) (ms : Members) : Option Nat :=
  match ms.get? key with
  | some (.number (.int i)) => if 0 ≤ i then some i.toNat else none
  | some (.number (.float x)) =>
    if (0 : Float) ≤ x then some x.toUInt64.toNat else none
  | some (.string s) => readNatural Json.maxWord (Text.trim s.toList)
  | _ => none

def fill (ms defaults : Members) : Members :=
  defaults.foldl (fun acc d => acc.putNew d.1 d.2) ms

theorem keys_putNew (ms : Members) (key : String) (v : Json) :
    (ms.putNew key v).keys = if key ∈ ms.keys then ms.keys else ms.keys ++ [key] := by
  unfold putNew contains
  by_cases h : key ∈ ms.keys
  · have hs : (ms.get? key).isSome = true := by
      cases hg : ms.get? key with
      | none => exact absurd h (get?_eq_none_iff.1 hg)
      | some _ => rfl
    simp [hs, h]
  · rw [if_neg h]
    simp [get?_eq_none_iff.2 h, keys]

end Members

structure Card where
  id : String
  kind : CardKind
  x : Float
  y : Float
  properties : Members
deriving Repr, Inhabited

namespace Card

def new (id : String) (kind : CardKind) : Card := ⟨id, kind, 0, 0, kind.defaults⟩

def set (key : String) (value : Json) (c : Card) : Card :=
  { c with properties := Members.put key value c.properties }

def fillDefaults (c : Card) : Card :=
  { c with properties := c.properties.fill c.kind.defaults }

def text (key : String) (c : Card) : Option String := c.properties.text key

def label (c : Card) : String := c.kind.title ++ " (" ++ c.id ++ ")"

def toJson (c : Card) : Json :=
  .object [("id", .string c.id), ("type", c.kind.toJson), ("x", .ofFloat c.x),
    ("y", .ofFloat c.y), ("properties", .object c.properties)]

def recordKind : Json.Decoder.RecordKind Card :=
  { title := "struct Card"
    blank := ⟨"", .start, 0, 0, []⟩
    sealed := false
    slots :=
      [Json.Decoder.slot "id" .required Json.Decoder.text fun v c => { c with id := v },
       Json.Decoder.slot "type" .required CardKind.decoder fun v c => { c with kind := v },
       Json.Decoder.slot "x" .default Json.Decoder.double fun v c => { c with x := v },
       Json.Decoder.slot "y" .default Json.Decoder.double fun v c => { c with y := v },
       Json.Decoder.slot "properties" .default Json.Decoder.members fun v c => { c with properties := v }] }

def decoder : Json.Decoder Card := recordKind.decoder

end Card

end Cardwalk
