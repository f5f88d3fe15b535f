import Cardwalk.Clause.Set
import Cardwalk.Config.Load
import Cardwalk.Json.Error
/-!
# Failures of commands

A failure is told as a chain, from the outside in: each text is caused by
the next.
-/

set_option autoImplicit false

namespace Cardwalk

inductive CommandError where
  | settings (e : SettingsError)
  | unreadableGraph (path : String) (cause : FileError)
  | malformedGraph (cause : Json.ReadError)
  | noDatabase
  | noFolder (path : String) (cause : FileError)
  | noStore (path : String)
  /-- The file is something else than a document store. -/
  | foreignStore
  | clause (cause : ClauseError)
  | noLogName (path : String)
  | noLogFolder (path : String) (cause : FileError)
  | noLogFile (path : String) (cause : FileError)
  | noSettingsFolder
  /-- The run did not end. -/
  | endless
deriving Repr

namespace CommandError

def chain : CommandError → List String
  | .settings e => ("loading " ++ e.path) :: e.chain
  | .unreadableGraph path cause =>
    ["failed to read graph file " ++ path ++ ": " ++ cause.message, cause.message]
  | .malformedGraph cause => ["failed to parse graph: " ++ cause.message, cause.message]
  | .noDatabase =>
    ["No document database configured; set [retrieval].database or pass --database"]
  | .noFolder path cause => ["Failed to create directory " ++ path, cause.message]
  | .noStore path =>
    ["Failed to open document store at " ++ path, "unable to open database file: " ++ path]
  | .foreignStore => ["file is not a database"]
  | .clause cause => ["Invalid [agent] prompt template", cause.message]
  | .noLogName path => ["Log file path has no file name: " ++ path]
  | .noLogFolder path cause => ["Failed to create log directory " ++ path, cause.message]
  | .noLogFile path cause => ["Failed to open log file " ++ path, cause.message]
  | .noSettingsFolder => ["Could not determine config directory"]
  | .endless => ["run did not end"]

def message (e : CommandError) : String := ": ".intercalate e.chain

def indented (margin text : String) : String :=
  String.ofList (Text.replaceChar '\n' ('\n' :: margin.toList) text.toList)

def numbered : Nat → List String → String
  | _, [] => ""
  | n, cause :: rest =>
    let number := String.ofList (Decimal.natDigits n)
    "\n" ++ String.ofList (List.replicate (5 - number.length) ' ') ++ number ++ ": "
      ++ indented "       " cause ++ numbered (n + 1) rest

def causes : List String → String
  | [] => ""
  | [cause] => "\n\nCaused by:\n    " ++ indented "    " cause
  | chain => "\n\nCaused by:" ++ numbered 0 chain

def shown (e : CommandError) : String :=
  "Error: " ++ (e.chain.headD "") ++ causes e.chain.tail ++ "\n"

end CommandError

end Cardwalk
