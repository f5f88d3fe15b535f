import Cardwalk.Decimal.Layout
import Cardwalk.Run.Event
import Cardwalk.Text.Lowercase
/-!
# Output

What a command tells are events and results.  How they are printed depends
on the mode: for a reader, as lines of JSON, or only the result.
-/

set_option autoImplicit false

namespace Cardwalk

inductive OutputMode where
  | console
  | json
  | quiet
deriving DecidableEq, Repr

def OutputMode.ofName (s : String) : OutputMode :=
  let name := String.ofList (Text.lower s.toList)
  if name = "json" then .json else if name = "quiet" then .quiet else .console

def OutputMode.name : OutputMode → String
  | .console => "Console"
  | .json => "Json"
  | .quiet => "Quiet"

inductive Report where
  | event (e : Event)
  | result (success : Bool) (output : Option String)
deriving DecidableEq, Repr

structure Printed where
  output : String := ""
  messages : String := ""
deriving DecidableEq, Repr, Inhabited

namespace Printed

def append (a b : Printed) : Printed := ⟨a.output ++ b.output, a.messages ++ b.messages⟩

end Printed

inductive Printer where
  | console
  | json (pretty : Bool)
  | quiet
deriving DecidableEq, Repr

namespace Printer

def ofMode : OutputMode → Printer
  | .console => .console
  | .json => .json false
  | .quiet => .quiet

private def number (n : Nat) : String := String.ofList (Decimal.natDigits n)

/-- Milliseconds, from a second on in seconds with one place. -/
def duration (ms : Nat) : String :=
  if ms < 1000 then number ms ++ "ms"
  else String.ofList (Decimal.fixedFloat 1 (Float.ofNat ms / 1000)) ++ "s"

def consoleText : Event → String
  | .runStart cards start => "Running " ++ number cards ++ " cards from '" ++ start ++ "'\n"
  | .cardStart card _ title index =>
    "[" ++ number index ++ "] " ++ title ++ " (" ++ card ++ ")... "
  | .cardComplete _ ms => "✓ (" ++ duration ms ++ ")\n"
  | .cardError _ error => "✗\n  " ++ error ++ "\n"
  | .runComplete .completed ms cards =>
    "\n✓ Run completed (" ++ number cards ++ " cards in " ++ duration ms ++ ")\n"
  | .runComplete status ms cards =>
    "\n✗ Run " ++ status.word ++ " after " ++ number cards ++ " cards (" ++ duration ms
      ++ ")\n"
  | .runError stage _ message => "Error [" ++ stage.name ++ "]: " ++ message ++ "\n"
  | .info message => message ++ "\n"

def jsonText (pretty : Bool) (v : Json) : String :=
  (if pretty then v.pretty else v.compact) ++ "\n"

def resultJson (success : Bool) (output : Option String) : Json :=
  .object [("success", .bool success), ("output", Json.ofOption .string output)]

def print : Printer → Report → Printed
  | .console, .event e => { messages := consoleText e }
  | .json pretty, .event e => { output := jsonText pretty e.toJson }
  | .quiet, .event _ => {}
  | .json pretty, .result success output =>
    { output := jsonText pretty (resultJson success output) }
  | .console, .result _ output | .quiet, .result _ output =>
    match output with
    | some s => { output := s ++ "\n" }
    | none => {}

def printAll (p : Printer) (reports : List Report) : Printed :=
  reports.foldl (fun acc r => acc.append (p.print r)) {}

end Printer

end Cardwalk
