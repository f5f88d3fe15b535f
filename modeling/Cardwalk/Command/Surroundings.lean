import Cardwalk.Command.Program
import Cardwalk.Retrieval.Saved
/-!
# Surroundings

What a command line may look at, so that a workspace can be made of it
beforehand, and what it has changed, so that the changes can be kept.
-/

set_option autoImplicit false

namespace Cardwalk.Surroundings

def settingVariables : List String := ["HOME", "XDG_CONFIG_HOME"]

def configVariables (c : Config) : List String :=
  c.completion.apiKeyEnv.toList
    ++ (Expand.names (c.retrieval.database.getD "").toList).map String.ofList

def settings (w : Workspace) (project : Option String) : List String :=
  (Config.userPath w).toList ++ [Config.projectPath project]

def taskFiles : Task → List String
  | .run graph => [graph]
  | .validate graph => [graph]
  | .cards => []
  | .ingest files database => files ++ database.toList
  | .documents _ database => database.toList

def files (w : Workspace) (c : Config) (m : Moment) (i : Invocation) : List String :=
  let log := match Program.logPath w m i with
    | .ok path => path.toList
    | .error _ => []
  taskFiles i.task ++ (c.retrieval.databasePath w.env w.home).toList ++ log

/-- Where a path leads if every name on it is a folder. -/
def follow : Place → List String → Place
  | p, [] => p
  | p, name :: rest =>
    if name = "" || name = "." then follow p rest
    else if name = ".." then follow p.dropLast rest
    else follow (p ++ [name]) rest

def placesOn (w : Workspace) (path : String) : List Place :=
  let place := follow (w.startOf path) (Workspace.namesOf path)
  (List.range (place.length + 1)).map fun n => place.take n

def contentOf (bytes : List UInt8) : Content :=
  match Store.load? bytes with
  | some s => .store s
  | none => .bytes bytes

def bytesOf : Content → List UInt8
  | .bytes b => b
  | .store s => s.save

/-- What is to be kept: everything that was not there, and the stores. -/
def changes (before after : Workspace) : List (Place × Entry) :=
  after.entries.filter fun e =>
    match e.2 with
    | .file (.store _) => true
    | _ => !before.entries.any fun old => old.1 = e.1

end Cardwalk.Surroundings
