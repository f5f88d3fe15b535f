import Cardwalk.Command.Arguments

/-!
# The program

A command line is carried out in a workspace: the log file is made, the
configuration is loaded, and the command does its work.
-/

set_option autoImplicit false

namespace Cardwalk.Log

/-- The messages that are logged: with debugging all of them, else those of
the usual weight, and with quiet output only errors. -/
def filter (debug quiet : Bool) : String :=
  if debug then "cardflow=debug" else if quiet then "cardflow=error" else "cardflow=info"

def split (path : String) : Except CommandError (String × String) :=
  match Path.fileName path with
  | none => .error (.noLogName path)
  | some name => .ok ((Path.folder path).getD ".", name)

def standardPath (w : Workspace) (name stamp : String) : Except CommandError String :=
  match w.settingsFolder with
  | none => .error .noSettingsFolder
  | some f =>
    .ok (Path.join (Path.join f "cardflow/logs") (name ++ "-" ++ stamp ++ ".log"))

def create (w : Workspace) (path : String) : Except CommandError Workspace :=
  match split path with
  | .error e => .error e
  | .ok (folder, name) =>
    match w.makeFolders folder with
    | .error e => .error (.noLogFolder folder e)
    | .ok w =>
      let file := Path.join folder name
      (w.touch file).mapError (CommandError.noLogFile file)

end Cardwalk.Log

namespace Cardwalk

/-- How the program ended: what it printed, its exit code and what it left
behind. -/
structure Ending where
  printed : Printed
  code : Nat
  workspace : Workspace

namespace Program

def usage : String :=
  "Usage: cardflow [OPTIONS] <run|validate|cards|ingest|documents> [ARGUMENTS]\n"

def logName (task : Task) : String :=
  match task with
  | .run graph => (Path.fileStem graph).getD "run"
  | _ => "cardflow"

def logPath (w : Workspace) (m : Moment) (i : Invocation) :
    Except CommandError (Option String) :=
  match i.logFile with
  | some path => .ok (some path)
  | none =>
    if i.log then (Log.standardPath w (logName i.task) m.stamp).map some else .ok none

def withLog (w : Workspace) (m : Moment) (i : Invocation) : Except CommandError Workspace :=
  match logPath w m i with
  | .error e => .error e
  | .ok none => .ok w
  | .ok (some path) => Log.create w path

def mode (i : Invocation) : OutputMode :=
  if i.quiet then .quiet else .ofName i.output

def finish (p : Printer) (r : Response) : Ending :=
  let printed := p.printAll r.reports
  match r.ending with
  | .ok code => ⟨printed, code, r.workspace⟩
  | .error e => ⟨printed.append { messages := e.shown }, 1, r.workspace⟩

def invoke {σ : Type} (o : Outside σ) (m : Moment) (turns : Nat) (w : Workspace)
    (i : Invocation) (s : σ) : Ending × σ :=
  match withLog w m i with
  | .error e => (finish .quiet (.failed w e), s)
  | .ok w =>
    let (r, s) := Task.execute o m turns w i.project i.task s
    (finish (.ofMode (mode i)) r, s)

def carryOut {σ : Type} (o : Outside σ) (m : Moment) (turns : Nat) (w : Workspace)
    (args : List String) (s : σ) : Ending × σ :=
  match Arguments.read args with
  | .error .help => (⟨{ output := usage }, 0, w⟩, s)
  | .error .misused => (⟨{ messages := usage }, 2, w⟩, s)
  | .ok i => invoke o m turns w i s

end Program

end Cardwalk
