import Cardwalk.Clause.Token
/-!
# Clauses

A clause is a list of texts, expressions, conditions and loops.  It is
read from its tokens with one token of look-ahead.
-/

set_option autoImplicit false

namespace Cardwalk.Clause

inductive Expr where
  | name (s : String)
  | text (s : String)
  | int (i : Int)
  | float (x : Float)
  | truth (b : Bool)
  | nothing
  | list (items : List Expr)
  | attribute (e : Expr) (key : String)
  | item (e index : Expr)
  | negate (e : Expr)
  | not (e : Expr)
  | binary (op : String) (a b : Expr)
  | choice (yes condition : Expr) (no : Option Expr)
  | filter (e : Expr) (name : String) (line : Nat) (args : List Expr)
  | test (e : Expr) (name : String) (line : Nat) (args : List Expr) (negated : Bool)
deriving Inhabited

inductive Node where
  | data (s : List Char)
  | shown (e : Expr)
  | branch (condition : Expr) (yes no : List Node)
  | loop (binder : String) (source : Expr) (body otherwise : List Node)
deriving Inhabited

/-- What is left to be read, and the line of the last token read. -/
structure Cursor where
  rest : List Located
  line : Nat
deriving Inhabited

abbrev Reader (α : Type) := Cursor → Except Nat (α × Cursor)

def Cursor.peek (c : Cursor) : Option Token := c.rest.head?.map (·.token)

def Cursor.advance (c : Cursor) : Cursor :=
  match c.rest with
  | [] => c
  | t :: rest => ⟨rest, t.line⟩

def expect (t : Token) (c : Cursor) : Except Nat Cursor :=
  match c.rest with
  | [] => .error c.line
  | u :: rest => if u.token == t then .ok ⟨rest, u.line⟩ else .error u.line

def unexpected {α : Type} (c : Cursor) : Except Nat α := .error c.advance.line

def constants : List (String × Expr) :=
  [("true", .truth true), ("True", .truth true), ("false", .truth false),
   ("False", .truth false), ("none", .nothing), ("None", .nothing)]

/-- Operators by how tightly they bind, the loosest first. -/
def binaryLevels : List (List Token) :=
  [[.name "or"], [.name "and"], [],
   [.op "==", .op "!=", .op "<", .op "<=", .op ">", .op ">=", .name "in"],
   [.op "+", .op "-"], [.op "~"], [.op "*", .op "/", .op "//", .op "%"], [.op "**"]]

def notLevel : Nat := 2

def opText : Token → String
  | .name s => s
  | .op s => s
  | _ => ""

mutual
def readExpr : Nat → Reader Expr
  | 0, c => unexpected c
  | steps + 1, c => do
    let (e, c) ← readLevel steps 0 c
    if c.peek == some (.name "if") then
      let (condition, c) ← readLevel steps 0 c.advance
      if c.peek == some (.name "else") then
        let (no, c) ← readExpr steps c.advance
        .ok (.choice e condition (some no), c)
      else .ok (.choice e condition none, c)
    else .ok (e, c)

/-- An expression whose operators bind at least as tightly as the level. -/
def readLevel : Nat → Nat → Reader Expr
  | 0, _, c => unexpected c
  | steps + 1, level, c =>
    if level = notLevel then
      if c.peek == some (.name "not") then do
        let (e, c) ← readLevel steps level c.advance
        .ok (.not e, c)
      else readLevel steps (level + 1) c
    else
      match binaryLevels[level]? with
      | none => readUnary steps c
      | some ops => do
        let (e, c) ← readLevel steps (level + 1) c
        readOperators steps level ops e c

def readOperators : Nat → Nat → List Token → Expr → Reader Expr
  | 0, _, _, e, c => .ok (e, c)
  | steps + 1, level, ops, e, c =>
    match c.peek with
    | some t =>
      if ops.contains t then do
        let (f, c) ← readLevel steps (level + 1) c.advance
        readOperators steps level ops (.binary (opText t) e f) c
      else if level = 3 && t == .name "not" && (c.advance.peek == some (.name "in")) then do
        let (f, c) ← readLevel steps (level + 1) c.advance.advance
        readOperators steps level ops (.not (.binary "in" e f)) c
      else .ok (e, c)
    | none => .ok (e, c)

def readUnary : Nat → Reader Expr
  | 0, c => unexpected c
  | steps + 1, c => do
    let (e, c) ←
      if c.peek == some (.op "-") then do
        let (e, c) ← readUnary steps c.advance
        pure (Expr.negate e, c)
      else do
        let (e, c) ← readPrimary steps c
        readPostfix steps e c
    readFilters steps e c

def readPrimary : Nat → Reader Expr
  | 0, c => unexpected c
  | steps + 1, c =>
    match c.peek with
    | some (.name s) =>
      match constants.find? fun k => k.1 = s with
      | some (_, e) => .ok (e, c.advance)
      | none => .ok (.name s, c.advance)
    | some (.text s) => .ok (.text s, c.advance)
    | some (.int n) => .ok (.int n, c.advance)
    | some (.float x) => .ok (.float x, c.advance)
    | some (.op "(") => do
      let (e, c) ← readExpr steps c.advance
      let c ← expect (.op ")") c
      .ok (e, c)
    | some (.op "[") => do
      let (es, c) ← readSequence steps (.op "]") [] c.advance
      .ok (.list es, c)
    | _ => unexpected c

def readSequence : Nat → Token → List Expr → Reader (List Expr)
  | 0, _, _, c => unexpected c
  | steps + 1, close, read, c =>
    if c.peek == some close then .ok (read.reverse, c.advance)
    else do
      let (e, c) ← readExpr steps c
      if c.peek == some (.op ",") then readSequence steps close (e :: read) c.advance
      else do
        let c ← expect close c
        .ok ((e :: read).reverse, c)

def readPostfix : Nat → Expr → Reader Expr
  | 0, e, c => .ok (e, c)
  | steps + 1, e, c =>
    match c.peek with
    | some (.op ".") =>
      match c.advance.peek with
      | some (.name key) => readPostfix steps (.attribute e key) c.advance.advance
      | some (.int n) => readPostfix steps (.item e (.int n)) c.advance.advance
      | _ => unexpected c.advance
    | some (.op "[") => do
      let (i, c) ← readExpr steps c.advance
      let c ← expect (.op "]") c
      readPostfix steps (.item e i) c
    | _ => .ok (e, c)

def readFilters : Nat → Expr → Reader Expr
  | 0, e, c => .ok (e, c)
  | steps + 1, e, c =>
    match c.peek with
    | some (.op "|") =>
      match c.advance.peek with
      | some (.name f) => do
        let c := c.advance.advance
        let line := c.line
        if c.peek == some (.op "(") then
          let (args, c) ← readSequence steps (.op ")") [] c.advance
          readFilters steps (.filter e f line args) c
        else readFilters steps (.filter e f line []) c
      | _ => unexpected c.advance
    | some (.name "is") => do
      let c := c.advance
      let negated := c.peek == some (.name "not")
      let c := if negated then c.advance else c
      match c.peek with
      | some (.name t) =>
        let c := c.advance
        let line := c.line
        if c.peek == some (.op "(") then
          let (args, c) ← readSequence steps (.op ")") [] c.advance
          readFilters steps (.test e t line args negated) c
        else readFilters steps (.test e t line [] negated) c
      | _ => unexpected c
    | _ => .ok (e, c)
end

mutual
/-- Nodes up to the end or to a statement with one of the given names. -/
def readNodes : Nat → List String → List Node → Reader (List Node)
  | 0, _, _, c => unexpected c
  | steps + 1, ends, read, c =>
    match c.rest with
    | [] => if ends.isEmpty then .ok (read.reverse, c) else .error c.line
    | ⟨.data s, _⟩ :: _ => readNodes steps ends (.data s :: read) c.advance
    | ⟨.openExpr, _⟩ :: _ => do
      let (e, c) ← readExpr steps c.advance
      let c ← expect .closeExpr c
      readNodes steps ends (.shown e :: read) c
    | ⟨.openStmt, _⟩ :: _ =>
      match c.advance.peek with
      | some (.name s) =>
        if ends.contains s then .ok (read.reverse, c)
        else do
          let (n, c) ← readStatement steps s c.advance.advance
          readNodes steps ends (n :: read) c
      | _ => unexpected c.advance
    | ⟨_, line⟩ :: _ => .error line

def readStatement : Nat → String → Reader Node
  | 0, _, c => unexpected c
  | steps + 1, word, c =>
    if word = "if" then readBranch steps c
    else if word = "for" then
      match c.peek with
      | some (.name v) => do
        let c ← expect (.name "in") c.advance
        let (source, c) ← readExpr steps c
        let c ← expect .closeStmt c
        let (body, c) ← readNodes steps ["endfor", "else"] [] c
        if c.advance.peek == some (.name "else") then
          let c ← expect .closeStmt c.advance.advance
          let (otherwise, c) ← readNodes steps ["endfor"] [] c
          let c ← expect .closeStmt c.advance.advance
          .ok (.loop v source body otherwise, c)
        else
          let c ← expect .closeStmt c.advance.advance
          .ok (.loop v source body [], c)
      | _ => unexpected c
    else .error c.line

def readBranch : Nat → Reader Node
  | 0, c => unexpected c
  | steps + 1, c => do
    let (condition, c) ← readExpr steps c
    let c ← expect .closeStmt c
    let (yes, c) ← readNodes steps ["endif", "else", "elif"] [] c
    let word := c.advance.peek
    let c := c.advance.advance
    if word == some (.name "elif") then
      let (n, c) ← readBranch steps c
      .ok (.branch condition yes [n], c)
    else if word == some (.name "else") then
      let c ← expect .closeStmt c
      let (no, c) ← readNodes steps ["endif"] [] c
      let c ← expect .closeStmt c.advance.advance
      .ok (.branch condition yes no, c)
    else
      let c ← expect .closeStmt c
      .ok (.branch condition yes [], c)
end

def read (s : String) : Except Nat (List Node) :=
  let ts := tokenize s.toList
  (readNodes (20 * ts.length + 20) [] [] ⟨ts, 1⟩).map (·.1)

end Cardwalk.Clause
