import Cardwalk.Command.Surroundings
import Std.Time.DateTime.Timestamp
/-!
# The command line

Reads what a command line may look at, carries it out, and keeps what it
has changed.  There is no network here: a service that is configured does
not answer.  Waiting is counted and not done.
-/

set_option autoImplicit false

namespace Cardwalk

def entryOn (place : Place) : IO (Option Entry) := do
  let path := (← IO.currentDir) / Workspace.placeText place
  if ← path.isDir then return some .folder
  if ← path.pathExists then
    return some (.file (Surroundings.contentOf (← IO.FS.readBinFile path).toList))
  return none

def addPaths (w : Workspace) (paths : List String) : IO Workspace :=
  (paths.flatMap (Surroundings.placesOn w)).foldlM (fun w place => do
    if w.entries.any fun e => e.1 = place then return w
    match ← entryOn place with
    | some e => return w.put place e
    | none => return w) w

def addVariables (w : Workspace) (names : List String) : IO Workspace :=
  names.foldlM (fun w name => do
    match ← IO.getEnv name with
    | some v => return { w with environment := (name, v) :: w.environment }
    | none => return w) w

def gather (m : Moment) (i : Invocation) : IO Workspace := do
  let here := (Workspace.namesOf (← IO.currentDir).toString).filter fun n => n ≠ ""
  let w ← addVariables { here } Surroundings.settingVariables
  let w ← addPaths w (Surroundings.settings w i.project)
  match Config.load w i.project with
  | .error _ => addPaths w (Surroundings.files w {} m i)
  | .ok c =>
    let w ← addVariables w (Surroundings.configVariables c)
    addPaths w (Surroundings.files w c m i)

def keep (before after : Workspace) : IO Unit :=
  (Surroundings.changes before after).forM fun e => do
    let path := Workspace.placeText e.1
    match e.2 with
    | .folder => IO.FS.createDirAll path
    | .file c => IO.FS.writeBinFile path ⟨(Surroundings.bytesOf c).toArray⟩

/-- Without a network; the state is the time that has passed, in
milliseconds. -/
def alone : Outside Nat :=
  { ask := fun _ _ _ s => (.error (Endpoint.faultError .refused), s)
    sleep := fun d s => s + d.millisUp
    clock := id }

/-- More cards than any run is meant to pass. -/
def turns : Nat := 1000000000

end Cardwalk

open Cardwalk in
def main (args : List String) : IO UInt32 := do
  let nanos := (← Std.Time.Timestamp.now).toNanosecondsSinceUnixEpoch.toInt.toNat
  let m := Moment.ofSeconds (nanos / 1000000000) (nanos % 1000000000)
  let w ← match Arguments.read args with
    | .ok i => gather m i
    | .error _ => pure {}
  let (e, _) := Program.carryOut alone m turns w args 0
  keep w e.workspace
  IO.print e.printed.output
  IO.eprint e.printed.messages
  return UInt32.ofNat e.code
