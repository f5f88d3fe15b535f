import Cardwalk.Config.Basic
import Cardwalk.Workspace
/-!
# Loading the configuration

The settings of the user come first, those of the project after them.
Either file may be missing.
-/

set_option autoImplicit false

namespace Cardwalk

inductive SettingsError where
  | unreadable (path : String) (cause : FileError)
  | malformed (path : String)
deriving DecidableEq, Repr

namespace SettingsError

def path : SettingsError → String
  | .unreadable path _ => path
  | .malformed path => path

def chain : SettingsError → List String
  | .unreadable path cause => ["reading " ++ path, cause.message]
  | .malformed path => ["parsing " ++ path]

end SettingsError

namespace Config

def ofFile (w : Workspace) (path : String) : Except SettingsError Config :=
  match w.readText path with
  | .error e => .error (.unreadable path e)
  | .ok s =>
    match ofText s with
    | some c => .ok c
    | none => .error (.malformed path)

def userPath (w : Workspace) : Option String :=
  w.settingsFolder.map fun f => Path.join f "cardflow/config.toml"

def projectPath (folder : Option String) : String :=
  match folder with
  | some f => Path.join f ".cardflow/config.toml"
  | none => ".cardflow/config.toml"

def addFile (w : Workspace) (path : Option String) (base : Config) :
    Except SettingsError Config :=
  match path with
  | none => .ok base
  | some p => if w.fileExists p then (ofFile w p).map (merge base) else .ok base

def load (w : Workspace) (folder : Option String) : Except SettingsError Config :=
  match addFile w (userPath w) {} with
  | .error e => .error e
  | .ok user => addFile w (some (projectPath folder)) user

end Config

end Cardwalk
