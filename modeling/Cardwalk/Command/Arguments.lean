import Cardwalk.Command.Task
/-!
# Command lines

A command line names a command.  Options stand before or behind it; those
that belong to every command may stand in both places, and then the later
place counts.
-/

set_option autoImplicit false

namespace Cardwalk

structure Invocation where
  task : Task
  project : Option String := none
  debug : Bool := false
  quiet : Bool := false
  logFile : Option String := none
  log : Bool := false
  output : String := "console"
deriving Repr

inductive UsageError where
  | help
  | misused
deriving DecidableEq, Repr

namespace Arguments

/-- The options and the other words of a line.  A switch has no value. -/
structure Line where
  options : List (String × Option String) := []
  words : List String := []
  /-- What follows the first word, where only that word is read. -/
  rest : List String := []

/-- Does an option take a value?  An unknown option is neither. -/
abbrev Options := List (String × Bool)

def common : Options :=
  [("dir", true), ("debug", false), ("quiet", false), ("log-file", true), ("log", false),
   ("output", true)]

def takesValue (known : Options) (name : String) : Option Bool :=
  (known.find? fun o => o.1 = name).map (·.2)

def isValue (word : String) : Bool :=
  match word.toList with
  | '-' :: _ :: _ => false
  | _ => true

def addOption (name : String) (value : Option String) (l : Line) : Except UsageError Line :=
  if l.options.any fun o => o.1 = name then .error .misused
  else .ok { l with options := l.options ++ [(name, value)] }

/-- Reads words, up to the first one that is no option if only options are
wanted. -/
def scan (known : Options) (onlyOptions : Bool) : List String → Line → Except UsageError Line
  | [], l => .ok l
  | arg :: rest, l =>
    match arg.toList with
    | ['-', '-'] =>
      if onlyOptions then .error .misused else .ok { l with words := l.words ++ rest }
    | '-' :: '-' :: body =>
      let name := String.ofList (body.takeWhile (· ≠ '='))
      if name = "help" && body.length = 4 then .error .help
      else
        match takesValue known name, body.dropWhile (· ≠ '=') with
        | none, _ => .error .misused
        | some false, _ :: _ => .error .misused
        | some false, [] =>
          match addOption name none l with
          | .ok l => scan known onlyOptions rest l
          | .error e => .error e
        | some true, _ :: value =>
          match addOption name (some (String.ofList value)) l with
          | .ok l => scan known onlyOptions rest l
          | .error e => .error e
        | some true, [] =>
          match rest with
          | [] => .error .misused
          | value :: rest =>
            if isValue value then
              match addOption name (some value) l with
              | .ok l => scan known onlyOptions rest l
              | .error e => .error e
            else .error .misused
    | '-' :: 'h' :: _ => .error .help
    | '-' :: _ :: _ => .error .misused
    | _ =>
      if onlyOptions then .ok { l with words := [arg], rest }
      else scan known onlyOptions rest { l with words := l.words ++ [arg] }

def value (name : String) (l : Line) : Option String :=
  (l.options.find? fun o => o.1 = name).bind (·.2)

def has (name : String) (l : Line) : Bool := l.options.any fun o => o.1 = name

def pathsOk (l : Line) : Bool :=
  l.options.all fun o =>
    o.2 ≠ some "" || !(["dir", "log-file", "database"].contains o.1)

/-- Only one way to name a log file may be used in one place. -/
def logsOk (l : Line) : Bool := !(has "log" l && has "log-file" l)

def wholeNumber (s : String) : Option Int :=
  let read (ds : List Char) : Option Int :=
    if ds.isEmpty || !ds.all Char.isDigit then none
    else some (ds.foldl (fun n c => n * 10 + (c.toNat - 48 : Nat)) 0)
  let n :=
    match s.toList with
    | '-' :: ds => (read ds).map fun n => -n
    | '+' :: ds => read ds
    | ds => read ds
  n.filter fun i => Decimal.fitsSigned i

def optionsOf (command : String) : Option Options :=
  if command = "run" || command = "validate" || command = "cards" then some common
  else if command = "ingest" then some (("database", true) :: common)
  else if command = "documents" then some (("delete", true) :: ("database", true) :: common)
  else none

def taskOf (command : String) (l : Line) : Except UsageError Task :=
  if l.words.contains "" then .error .misused
  else if command = "run" then
    match l.words with
    | [graph] => .ok (.run graph)
    | _ => .error .misused
  else if command = "validate" then
    match l.words with
    | [graph] => .ok (.validate graph)
    | _ => .error .misused
  else if command = "ingest" then
    if l.words.isEmpty then .error .misused else .ok (.ingest l.words (value "database" l))
  else if !l.words.isEmpty then .error .misused
  else if command = "cards" then .ok .cards
  else
    match value "delete" l with
    | none => .ok (.documents none (value "database" l))
    | some s =>
      match wholeNumber s with
      | some id => .ok (.documents (some id) (value "database" l))
      | none => .error .misused

def read (args : List String) : Except UsageError Invocation :=
  match scan common true args {} with
  | .error e => .error e
  | .ok before =>
    match before.words with
    | [command] =>
      if command = "help" then .error .help
      else
        match optionsOf command with
        | none => .error .misused
        | some known =>
          match scan known false before.rest {} with
          | .error e => .error e
          | .ok behind =>
            if !(pathsOk before && pathsOk behind && logsOk before && logsOk behind) then
              .error .misused
            else
              (taskOf command behind).map fun task =>
                { task
                  project := (value "dir" behind).or (value "dir" before)
                  debug := has "debug" before || has "debug" behind
                  quiet := has "quiet" before || has "quiet" behind
                  logFile := (value "log-file" behind).or (value "log-file" before)
                  log := has "log" before || has "log" behind
                  output := ((value "output" behind).or (value "output" before)).getD
                    "console" }
    | _ => .error .misused

end Arguments

end Cardwalk
