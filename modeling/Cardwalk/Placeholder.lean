import Cardwalk.Envelope
/-!
# Placeholders in the templates of cards

A placeholder is a name between double braces.  Bindings put a member of
the previous envelope in its place, one binding after the other; what is
left between double braces on one line is taken out at the end.
-/

set_option autoImplicit false

namespace Cardwalk

structure Binding where
  name : String
  field : Field
deriving DecidableEq, Repr

namespace Placeholder

def token (name : List Char) : List Char := ['{', '{'] ++ name ++ ['}', '}']

def substitute (name value template : List Char) : List Char :=
  Text.replace (token name) value template

def mentions (name template : List Char) : Bool := Text.occurs (token name) template

/-- The number of characters up to the end of the first double brace that
closes on this line. -/
def closingAt : List Char → Option Nat
  | [] => none
  | '}' :: '}' :: _ => some 2
  | c :: s => if c = '\n' then none else (closingAt s).map (· + 1)

/-- Takes out what stands between double braces; the number counts the
characters still to be taken out. -/
def stripFrom : Nat → List Char → List Char
  | _, [] => []
  | k + 1, _ :: s => stripFrom k s
  | 0, c :: s =>
    match c, s with
    | '{', '{' :: t =>
      match closingAt t with
      | some n => stripFrom (n + 1) s
      | none => c :: stripFrom 0 s
    | _, _ => c :: stripFrom 0 s

def strip (s : List Char) : List Char := stripFrom 0 s

def applyBinding (previous : Option Envelope) (template : List Char) (b : Binding) :
    List Char :=
  match previous.bind fun e => e.field b.field with
  | some value => substitute b.name.toList value.toList template
  | none => template

def applies (previous : Option Envelope) (template : List Char) (b : Binding) : Bool :=
  match previous.bind fun e => e.field b.field with
  | some _ => mentions b.name.toList template
  | none => false

def applyAll (previous : Option Envelope) (bindings : List Binding) (template : List Char) :
    List Char :=
  bindings.foldl (applyBinding previous) template

/-- Applies the bindings in their order and takes out what is left. -/
def resolve (previous : Option Envelope) (bindings : List Binding) (template : String) :
    String :=
  String.ofList (strip (applyAll previous bindings template.toList))

def queryBindings : List Binding := [⟨"input", .value⟩, ⟨"input", .text⟩]

def agentBindings : List Binding :=
  [⟨"input", .value⟩, ⟨"rag_content", .content⟩, ⟨"input", .text⟩]

/-- The prompt of a model card.  The text of the previous envelope is put
in only if neither its value nor its content was. -/
def resolvePrompt (template : String) (previous : Option Envelope) : String :=
  let value : Binding := ⟨"input", .value⟩
  let content : Binding := ⟨"rag_content", .content⟩
  let t₀ := template.toList
  let t₁ := applyBinding previous t₀ value
  let t₂ := applyBinding previous t₁ content
  let t₃ := applyBinding previous t₂ ⟨"tool_result", .toolResult⟩
  let t₄ :=
    if applies previous t₀ value || applies previous t₁ content then t₃
    else applyBinding previous t₃ ⟨"input", .text⟩
  String.ofList (strip t₄)

/-- The input of a formatting card: the first of text, value and content
that is present, else the whole envelope. -/
def formatInput (e : Envelope) : String :=
  match e.field .text, e.field .value, e.field .content with
  | some s, _, _ => s
  | none, some s, _ => s
  | none, none, some s => s
  | none, none, none => e.pretty

def fill (template : String) (previous : Option Envelope) : String :=
  let filled :=
    match previous with
    | none => template.toList
    | some e => substitute ['i', 'n', 'p', 'u', 't'] (formatInput e).toList template.toList
  String.ofList (strip filled)

end Placeholder

end Cardwalk
