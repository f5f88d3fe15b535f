import Cardwalk.Clause.Basic
import Cardwalk.Json.Print
import Cardwalk.Text.Escape
import Cardwalk.Text.Lowercase
/-!
# Rendering clauses

A clause is rendered with the variables it is given.  A variable that is
not given may be asked for its definition and may be replaced by a
default; any other use of it is an error.
-/

set_option autoImplicit false

namespace Cardwalk.Clause

inductive Value where
  | missing
  | nothing
  | truth (b : Bool)
  | int (i : Int)
  | float (x : Float)
  | text (s : String)
  | list (items : List Value)
  | map (members : List (String × Value))
deriving BEq, Inhabited

inductive Failure where
  /-- A variable, attribute or item that is not there is used. -/
  | undefined
  | unknownFilter (name : String) (line : Nat)
  | unknownTest (name : String) (line : Nat)
  | invalidOperation
deriving DecidableEq, Repr

abbrev Scope := List (String × Value)

def Scope.get (scope : Scope) (name : String) : Value :=
  match scope.find? fun b => b.1 = name with
  | some (_, v) => v
  | none => .missing

mutual
def Value.inner : Value → String
  | .missing => "undefined"
  | .nothing => "none"
  | .truth true => "true"
  | .truth false => "false"
  | .int i => String.ofList (Decimal.intDigits i)
  | .float x => String.ofList (Json.Number.float x).chars
  | .text s => Text.quotedForm s
  | .list items => "[" ++ Value.innerItems items ++ "]"
  | .map members => "\x7b" ++ Value.innerMembers members ++ "\x7d"

def Value.innerItems : List Value → String
  | [] => ""
  | [v] => v.inner
  | v :: next :: rest => v.inner ++ ", " ++ Value.innerItems (next :: rest)

def Value.innerMembers : List (String × Value) → String
  | [] => ""
  | [(k, v)] => Text.quotedForm k ++ ": " ++ v.inner
  | (k, v) :: next :: rest =>
    Text.quotedForm k ++ ": " ++ v.inner ++ ", " ++ Value.innerMembers (next :: rest)
end

def Value.shown : Value → String
  | .text s => s
  | v => v.inner

def Value.truthy : Value → Except Failure Bool
  | .missing => .error .undefined
  | .nothing => .ok false
  | .truth b => .ok b
  | .int i => .ok (i != 0)
  | .float x => .ok (x != 0)
  | .text s => .ok (s != "")
  | .list items => .ok (!items.isEmpty)
  | .map members => .ok (!members.isEmpty)

def Value.items? : Value → Option (List Value)
  | .nothing => some []
  | .text s => some (s.toList.map fun c => .text (String.ofList [c]))
  | .list items => some items
  | .map members => some (members.map fun m => .text m.1)
  | _ => none

def attributeOf (v : Value) (key : String) : Except Failure Value :=
  match v with
  | .missing => .error .undefined
  | .map members => .ok (Scope.get members key)
  | _ => .ok .missing

def itemOf (v i : Value) : Except Failure Value :=
  match v, i with
  | .missing, _ => .error .undefined
  | .list items, .int i =>
    let i := if i < 0 then i + items.length else i
    if i < 0 then .ok .missing else .ok (items[i.toNat]?.getD .missing)
  | .text s, .int i =>
    let i := if i < 0 then i + s.length else i
    if i < 0 then .ok .missing
    else
      match s.toList[i.toNat]? with
      | some c => .ok (.text (String.ofList [c]))
      | none => .ok .missing
  | .map members, .text key => .ok (Scope.get members key)
  | _, _ => .ok .missing

def number? : Value → Option Float
  | .int i => some (Float.ofInt i)
  | .float x => some x
  | _ => none

def equal (a b : Value) : Bool :=
  match a, b with
  | .int i, .float x => Float.ofInt i == x
  | .float x, .int i => x == Float.ofInt i
  | a, b => a == b

def less (a b : Value) : Except Failure Bool :=
  match a, b with
  | .int i, .int j => .ok (i < j)
  | .text s, .text t => .ok (s < t)
  | a, b =>
    match number? a, number? b with
    | some x, some y => .ok (x < y)
    | _, _ => .error .invalidOperation

def contains (a b : Value) : Except Failure Bool :=
  match b with
  | .missing => .error .undefined
  | .list items => .ok (items.any (equal a))
  | .map members =>
    match a with
    | .text s => .ok (members.any fun m => m.1 = s)
    | _ => .ok false
  | .text t =>
    match a with
    | .text s => .ok (Text.occurs s.toList t.toList)
    | _ => .error .invalidOperation
  | _ => .error .invalidOperation

def arithmetic (op : String) (a b : Value) : Except Failure Value :=
  match op, a, b with
  | _, .missing, _ => .error .undefined
  | _, _, .missing => .error .undefined
  | "+", .text s, .text t => .ok (.text (s ++ t))
  | "+", .list s, .list t => .ok (.list (s ++ t))
  | "+", .int i, .int j => .ok (.int (i + j))
  | "-", .int i, .int j => .ok (.int (i - j))
  | "*", .int i, .int j => .ok (.int (i * j))
  | "//", .int i, .int j =>
    if j = 0 then .error .invalidOperation else .ok (.int (Int.ediv i j))
  | "%", .int i, .int j =>
    if j = 0 then .error .invalidOperation else .ok (.int (Int.emod i j))
  | "**", .int i, .int j =>
    if 0 ≤ j then .ok (.int (Int.pow i j.toNat)) else .error .invalidOperation
  | op, a, b =>
    match number? a, number? b with
    | some x, some y =>
      if op = "+" then .ok (.float (x + y))
      else if op = "-" then .ok (.float (x - y))
      else if op = "*" then .ok (.float (x * y))
      else if op = "/" then .ok (.float (x / y))
      else .error .invalidOperation
    | _, _ => .error .invalidOperation

def upperChar (c : Char) : Char :=
  if c.toNat < 0x80 then c.toUpper
  else
    match Text.capitals.find? fun (first, last, step, distance) =>
        let n : Int := c.toNat - distance
        first ≤ n && n ≤ last && (n - first) % step == 0 with
    | some (_, _, _, distance) => Char.ofNat (c.toNat - distance).toNat
    | none => c

def filterNames : List String :=
  ["default", "d", "join", "length", "count", "first", "last", "upper", "lower", "trim",
   "reverse", "string", "safe"]

def testNames : List String :=
  ["defined", "undefined", "none", "string", "number", "sequence", "true", "false", "eq",
   "equalto", "==", "in"]

def applyFilter (name : String) (v : Value) (args : List Value) : Except Failure Value :=
  match name, v, args with
  | "default", .missing, other :: _ => .ok other
  | "default", .missing, [] => .ok (.text "")
  | "default", v, other :: .truth true :: _ => do
    .ok (if ← v.truthy then v else other)
  | "default", v, _ => .ok v
  | "d", .missing, other :: _ => .ok other
  | "d", .missing, [] => .ok (.text "")
  | "d", v, _ => .ok v
  | "join", .missing, _ => .ok (.text "")
  | "join", v, args =>
    let between :=
      match args with
      | .text s :: _ => s
      | _ => ""
    match v.items? with
    | some items => .ok (.text (between.intercalate (items.map Value.shown)))
    | none => .error .invalidOperation
  | "length", v, _ | "count", v, _ =>
    match v with
    | .text s => .ok (.int s.length)
    | .list items => .ok (.int items.length)
    | .map members => .ok (.int members.length)
    | _ => .error .invalidOperation
  | "first", v, _ =>
    match v.items? with
    | some items => .ok (items.head?.getD .missing)
    | none => .error .invalidOperation
  | "last", v, _ =>
    match v.items? with
    | some items => .ok (items.getLast?.getD .missing)
    | none => .error .invalidOperation
  | "upper", .missing, _ | "lower", .missing, _ | "trim", .missing, _ => .error .undefined
  | "upper", v, _ => .ok (.text (String.ofList (v.shown.toList.map upperChar)))
  | "lower", v, _ => .ok (.text (String.ofList (Text.lower v.shown.toList)))
  | "trim", v, _ => .ok (.text (trimmed v.shown))
  | "reverse", .text s, _ => .ok (.text (String.ofList s.toList.reverse))
  | "reverse", .list items, _ => .ok (.list items.reverse)
  | "string", v, _ => .ok (.text v.shown)
  | "safe", v, _ => .ok v
  | _, _, _ => .error .invalidOperation

def applyTest (name : String) (v : Value) (args : List Value) : Except Failure Bool :=
  match name, v, args with
  | "defined", v, _ => .ok (v != .missing)
  | "undefined", v, _ => .ok (v == .missing)
  | "none", v, _ => .ok (v == .nothing)
  | "string", .text _, _ => .ok true
  | "string", _, _ => .ok false
  | "number", .int _, _ | "number", .float _, _ => .ok true
  | "number", _, _ => .ok false
  | "sequence", .list _, _ => .ok true
  | "sequence", _, _ => .ok false
  | "true", v, _ => .ok (v == .truth true)
  | "false", v, _ => .ok (v == .truth false)
  | "eq", v, w :: _ | "equalto", v, w :: _ | "==", v, w :: _ => .ok (equal v w)
  | "in", v, w :: _ => contains v w
  | _, _, _ => .error .invalidOperation

mutual
def Expr.eval (scope : Scope) : Expr → Except Failure Value
  | .name s => .ok (scope.get s)
  | .text s => .ok (.text s)
  | .int i => .ok (.int i)
  | .float x => .ok (.float x)
  | .truth b => .ok (.truth b)
  | .nothing => .ok .nothing
  | .list items => do .ok (.list (← Expr.evalAll scope items))
  | .attribute e key => do attributeOf (← e.eval scope) key
  | .item e index => do
    let v ← e.eval scope
    itemOf v (← index.eval scope)
  | .negate e => do
    match ← e.eval scope with
    | .int i => .ok (.int (-i))
    | .float x => .ok (.float (-x))
    | .missing => .error .undefined
    | _ => .error .invalidOperation
  | .not e => do .ok (.truth (!(← (← e.eval scope).truthy)))
  | .binary op a b => do
    let x ← a.eval scope
    if op = "and" then
      if ← x.truthy then b.eval scope else .ok x
    else if op = "or" then
      if ← x.truthy then .ok x else b.eval scope
    else
      let y ← b.eval scope
      if op = "==" then .ok (.truth (equal x y))
      else if op = "!=" then .ok (.truth (!equal x y))
      else if op = "<" then do .ok (.truth (← less x y))
      else if op = ">" then do .ok (.truth (← less y x))
      else if op = "<=" then do .ok (.truth (!(← less y x)))
      else if op = ">=" then do .ok (.truth (!(← less x y)))
      else if op = "in" then do .ok (.truth (← contains x y))
      else if op = "~" then
        if x == .missing || y == .missing then .error .undefined
        else .ok (.text (x.shown ++ y.shown))
      else arithmetic op x y
  | .choice yes condition no => do
    if ← (← condition.eval scope).truthy then yes.eval scope
    else
      match no with
      | some e => e.eval scope
      | none => .ok .missing
  | .filter e word line args => do
    let v ← e.eval scope
    let ws ← Expr.evalAll scope args
    if filterNames.contains word then applyFilter word v ws
    else .error (.unknownFilter word line)
  | .test e word line args negated => do
    let v ← e.eval scope
    let ws ← Expr.evalAll scope args
    if testNames.contains word then
      let b ← applyTest word v ws
      .ok (.truth (b != negated))
    else .error (.unknownTest word line)

def Expr.evalAll (scope : Scope) : List Expr → Except Failure (List Value)
  | [] => .ok []
  | e :: rest => do
    let v ← e.eval scope
    let vs ← Expr.evalAll scope rest
    .ok (v :: vs)
end

def loopValue (index count : Nat) : Value :=
  .map [("index", .int (index + 1)), ("index0", .int index), ("length", .int count),
    ("first", .truth (index = 0)), ("last", .truth (index + 1 = count)),
    ("revindex", .int (count - index : Nat)), ("revindex0", .int (count - index - 1 : Nat))]

def renderTurns (body : Value → Nat → Except Failure (List Char)) :
    List Value → Nat → Except Failure (List Char)
  | [], _ => .ok []
  | v :: rest, index => do
    let s ← body v index
    let t ← renderTurns body rest (index + 1)
    .ok (s ++ t)

mutual
def Node.render (scope : Scope) : Node → Except Failure (List Char)
  | .data s => .ok s
  | .shown e => do
    match ← e.eval scope with
    | .missing => .error .undefined
    | v => .ok v.shown.toList
  | .branch condition yes no => do
    if ← (← condition.eval scope).truthy then Node.renderAll scope yes
    else Node.renderAll scope no
  | .loop binder source body otherwise => do
    match ← source.eval scope with
    | .missing => .error .undefined
    | v =>
      match v.items? with
      | none => .error .invalidOperation
      | some [] => Node.renderAll scope otherwise
      | some items =>
        renderTurns (fun v index =>
          Node.renderAll ((binder, v) :: ("loop", loopValue index items.length) :: scope) body)
          items 0

def Node.renderAll (scope : Scope) : List Node → Except Failure (List Char)
  | [] => .ok []
  | n :: rest => do
    let s ← n.render scope
    let t ← Node.renderAll scope rest
    .ok (s ++ t)
end

def render (nodes : List Node) (scope : Scope) : Except Failure String :=
  (Node.renderAll scope nodes).map String.ofList

end Cardwalk.Clause
