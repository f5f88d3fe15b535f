import Cardwalk.Placeholder
import Cardwalk.Text.Lowercase
/-!
# Output formats

A formatting card writes its text as it is, as indented JSON, or inside an
XML element.
-/

set_option autoImplicit false

namespace Cardwalk

inductive Format where
  | text
  | json
  | xml
deriving DecidableEq, Repr, Inhabited

namespace Format

def ofName (s : String) : Format :=
  let name := String.ofList (Text.lower (Text.trim s.toList))
  if name = "json" then .json else if name = "xml" then .xml else .text

def name : Format → String
  | .text => "Text"
  | .json => "Json"
  | .xml => "Xml"

def looksLikeJson (s : List Char) : Bool :=
  match Text.trim s with
  | '{' :: _ => true
  | '[' :: _ => true
  | _ => false

def jsonFailure : String :=
  "Invalid JSON format in template or input could not be parsed as JSON"

def jsonOf (s : String) : Json :=
  if looksLikeJson s.toList then
    match Json.parseString s with
    | .ok v => v
    | .error _ =>
      .object [("error", .string jsonFailure), ("template_content", .string s)]
  else .object [("result", .string s)]

def renderJson (s : String) : String := (jsonOf s).pretty

/-- The five characters that XML reserves, each with its entity.  The
ampersand comes first, so that no entity is escaped again. -/
def entities : List (Char × List Char) :=
  [('&', ['&', 'a', 'm', 'p', ';']), ('<', ['&', 'l', 't', ';']),
   ('>', ['&', 'g', 't', ';']), ('"', ['&', 'q', 'u', 'o', 't', ';']),
   ('\'', ['&', 'a', 'p', 'o', 's', ';'])]

def escapeXml (s : List Char) : List Char :=
  entities.foldl (fun s e => Text.replaceChar e.1 e.2 s) s

def renderXml (s : String) : String :=
  "<response><data>" ++ String.ofList (escapeXml s.toList) ++ "</data></response>"

def render : Format → String → String
  | .text, s => s
  | .json, s => renderJson s
  | .xml, s => renderXml s

theorem escapeXml_append (s t : List Char) :
    escapeXml (s ++ t) = escapeXml s ++ escapeXml t := by
  simp [escapeXml, entities, Text.replaceChar]

end Format

end Cardwalk
