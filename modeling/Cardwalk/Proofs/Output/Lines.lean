import Cardwalk.Command.Task
import Cardwalk.Proofs.Output.Events
import Cardwalk.Proofs.Run.Truth

/-!
# Lines of a run

What the JSON mode prints for a run is cut at its line breaks into a line for
each event and one for the result. Each line of an event is read back as the
event; the line of the result is no event, and it says how the run has ended.
-/

set_option autoImplicit false

namespace Cardwalk

open Json (Every maxWord)
open ToolCall (Whole)

namespace Report

def toJson : Report → Json
  | .event e => e.toJson
  | .result success output => Printer.resultJson success output

def line (r : Report) : List Char := r.toJson.compactChars

def Fits : Report → Prop
  | .event e => e.Fits
  | .result _ _ => True

end Report

namespace Printer

end Printer

namespace Runner

variable {σ : Type} {r : Runner σ}

end Runner

/-- How a run has ended, in the exit code, the flag and the text of the
result. -/
inductive Ended : Except RunError Envelope → Nat → Bool → String → Prop
  | completed (e : Envelope) : Ended (.ok e) 0 true e.pretty
  | failed (e : RunError) : Ended (.error e) 1 false e.failure.toJson.pretty

namespace Task

variable {σ : Type}

def broken : Workspace where
  entries := [(["g"], .file (.bytes (("\x7b\"cards\":[\x7b\"id\":\"s\\n\\\"\x7d\"," ++
    "\"type\":\"start\"\x7d]\x7d").toList.map fun c => .ofNat c.toNat)))]

def silent : Outside Unit where
  ask _ _ _ s := (.error .emptyBody, s)

end Task

end Cardwalk
