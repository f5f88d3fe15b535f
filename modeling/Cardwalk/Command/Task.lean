import Cardwalk.Command.Error
import Cardwalk.Command.Moment
import Cardwalk.Command.Output
import Cardwalk.Completion.Service
import Cardwalk.Run.Walk
/-!
# Commands

A command acts on a workspace: it reads graphs and texts, keeps documents
in a store, and tells what it does.
-/

set_option autoImplicit false

namespace Cardwalk

/-- What lies outside of a command: the network, the clock, chance and
signals, over a state. -/
structure Outside (σ : Type) where
  /-- Asks a service, given the prompt and the name of the model. -/
  ask : Endpoint → String → String → σ → Except CompletionError Completion × σ
  draw : σ → Float := fun _ => 0
  sleep : Duration → σ → σ := fun _ s => s
  clock : σ → Nat := fun _ => 0
  isCancelled : σ → Bool := fun _ => false

namespace Outside

variable {σ : Type}

def complete (o : Outside σ) (source : CompletionSource) (prompt model : String) (s : σ) :
    Except CompletionError Completion × σ :=
  match source with
  | .unconfigured reason => (.error (.config reason), s)
  | .http e p =>
    match Retry.run p o.draw (o.ask e prompt model) o.sleep s with
    | (.finished r, s) => (r, s)
    | (.noDelay, s) => (.error (.config "retry delay out of range"), s)

def retrieve (store : Option Store) (query : String) (count : Nat) (s : σ) :
    Except RetrievalError (List Retrieved) × σ :=
  match store with
  | none => (.error .uninitialized, s)
  | some store => (.ok (store.search query count), s)

def services (o : Outside σ) (source : CompletionSource) (store : Option Store) :
    Services σ :=
  { complete := o.complete source
    retrieve := retrieve store
    callTool := fun name args s => (Tool.builtin name args, s) }

end Outside

inductive Task where
  | run (graph : String)
  | validate (graph : String)
  | cards
  | ingest (files : List String) (database : Option String)
  | documents (delete : Option Int) (database : Option String)
deriving DecidableEq, Repr

structure Response where
  reports : List Report
  ending : Except CommandError Nat
  workspace : Workspace

namespace Response

def failed (w : Workspace) (e : CommandError) : Response := ⟨[], .error e, w⟩

def told (w : Workspace) (lines : List String) (code : Nat) : Response :=
  ⟨lines.map fun l => .event (.info l), .ok code, w⟩

end Response

namespace Task

private def number (n : Nat) : String := String.ofList (Decimal.natDigits n)

private def padding (width : Nat) (s : String) : String :=
  String.ofList (List.replicate (width - s.length) ' ')

/-- An open store; nothing is kept without a place. -/
structure OpenStore where
  store : Store
  place : Option Place

def openStore (w : Workspace) (path : String) : Except CommandError OpenStore × Workspace :=
  let made : Except CommandError Workspace :=
    match Path.folder path with
    | none => .ok w
    | some f => (w.makeFolders f).mapError (CommandError.noFolder f)
  match made with
  | .error e => (.error e, w)
  | .ok w =>
    if path = "" || path = ":memory:" then (.ok ⟨.empty, none⟩, w)
    else
      match w.openTarget path with
      | .error _ => (.error (.noStore path), w)
      | .ok place =>
        match w.entryAt place with
        | some (.file (.store store)) => (.ok ⟨store, some place⟩, w)
        | some (.file (.bytes (_ :: _))) => (.error .foreignStore, w)
        | _ => (.ok ⟨.empty, some place⟩, w.put place (.file (.store .empty)))

def keepStore (o : OpenStore) (store : Store) (w : Workspace) : Workspace :=
  match o.place with
  | some place => w.put place (.file (.store store))
  | none => w

/-- The path of the store: the one that is asked for, else the configured
one. -/
def storePath (w : Workspace) (c : Config) (database : Option String) :
    Except CommandError String :=
  match database.or (c.retrieval.databasePath w.env w.home) with
  | some path => .ok path
  | none => .error .noDatabase

def withStore (w : Workspace) (c : Config) (database : Option String)
    (act : OpenStore → Workspace → Response) : Response :=
  match storePath w c database with
  | .error e => .failed w e
  | .ok path =>
    match openStore w path with
    | (.error e, w) => .failed w e
    | (.ok o, w) => act o w

def loadGraph (w : Workspace) (path : String) : Except CommandError Graph :=
  match w.readText path with
  | .error e => .error (.unreadableGraph path e)
  | .ok s => (Graph.ofText (String.ofList s)).mapError CommandError.malformedGraph

def runStore (w : Workspace) (c : Config) : Except CommandError (Option Store) × Workspace :=
  match c.retrieval.databasePath w.env w.home with
  | none => (.ok none, w)
  | some path =>
    match openStore w path with
    | (.error e, w) => (.error e, w)
    | (.ok o, w) => (.ok (some o.store), w)

def runReports {σ : Type} (path : String) (o : Runner.Outcome σ) : List Report × Nat :=
  let events := (Event.info ("Loaded " ++ path) :: o.progress.events).map Report.event
  match o.result with
  | .ok e => (events ++ [.result true (some e.pretty)], 0)
  | .error e => (events ++ [.result false (some e.failure.toJson.pretty)], 1)

def runGraph {σ : Type} (o : Outside σ) (turns : Nat) (w : Workspace) (c : Config)
    (path : String) (s : σ) : Response × σ :=
  match loadGraph w path with
  | .error e => (.failed w e, s)
  | .ok g =>
    match runStore w c with
    | (.error e, w) => (.failed w e, s)
    | (.ok store, w) =>
      match ClauseSet.ofTexts c.agent with
      | .error e => (.failed w (.clause e), s)
      | .ok clauses =>
        let source := CompletionSource.ofConfig w.env c.completion
        let runner : Runner σ :=
          { context := { o.services source store with clauses, model := c.completion.model }
            pacing := .ofMillis c.defaults.pacingMs
            isCancelled := o.isCancelled
            sleep := o.sleep
            clock := o.clock }
        match runner.run g turns s with
        | none => (.failed w .endless, s)
        | some outcome =>
          let (reports, code) := runReports path outcome
          (⟨reports, .ok code, w⟩, outcome.progress.world)

def validateGraph (w : Workspace) (path : String) : Response :=
  match loadGraph w path with
  | .error e => .failed w e
  | .ok g =>
    let report := g.validate
    let warnings := report.warnings.map fun x => "  warning: " ++ x.message
    if report.isValid then
      .told w (warnings ++ ["✓ " ++ path ++ " is valid (" ++ number g.cards.length
        ++ " cards, " ++ number g.connections.length ++ " connections)"]) 0
    else
      .told w (warnings ++ ("✗ " ++ path ++ " has " ++ number report.errors.length
        ++ " error(s):") :: report.errors.map fun x => "  - " ++ x.message) 1

def cardLine (k : CardKind) : String :=
  let defaults := k.defaults.map fun p => p.1 ++ "=" ++ p.2.compact
  k.name ++ padding 14 k.name ++ " " ++ k.title ++ " (in: " ++ number k.inputs ++ ", out: "
    ++ number k.outputs ++ ")  " ++ ", ".intercalate defaults

def listCards (w : Workspace) : Response := .told w (CardKind.all.map cardLine) 0

/-- Takes a text file into the store: the line that is told, whether it
went well, and the store. -/
def ingestFile (w : Workspace) (m : Moment) (path : String) (store : Store) :
    String × Bool × Store :=
  match w.readText path with
  | .error e => ("✗ " ++ path ++ ": Failed to read " ++ path ++ ": " ++ e.message, false, store)
  | .ok text =>
    let name := (Path.fileName path).getD path
    match store.ingest name (w.canonical path) (String.ofList text) m.time with
    | .error e => ("✗ " ++ path ++ ": " ++ e.message, false, store)
    | .ok (doc, store) =>
      ("✓ " ++ doc.name ++ " (" ++ number doc.chunks.length ++ " chunks)", true, store)

def ingestFiles (w : Workspace) (m : Moment) :
    List String → Store → List String × Bool × Store
  | [], store => ([], true, store)
  | path :: rest, store =>
    let (line, ok, store) := ingestFile w m path store
    let (lines, restOk, store) := ingestFiles w m rest store
    (line :: lines, ok && restOk, store)

def ingestDocuments (w : Workspace) (c : Config) (m : Moment) (files : List String)
    (database : Option String) : Response :=
  withStore w c database fun o w =>
    let (lines, ok, store) := ingestFiles w m files o.store
    .told (keepStore o store w) lines (if ok then 0 else 1)

def documentLines (d : Document) : List String :=
  let id := number d.id
  [padding 4 id ++ id ++ "  " ++ d.name ++ "  (" ++ number d.chunks.length ++ " chunks, "
    ++ d.created ++ ")", "      " ++ d.source]

def listDocuments (w : Workspace) (c : Config) (database : Option String) : Response :=
  withStore w c database fun o w =>
    if o.store.documents.isEmpty then .told w ["(no documents ingested)"] 0
    else .told w (o.store.list.flatMap documentLines) 0

def deleteDocument (w : Workspace) (c : Config) (id : Int) (database : Option String) :
    Response :=
  withStore w c database fun o w =>
    let shown := String.ofList (Decimal.intDigits id)
    if o.store.contains id then
      .told (keepStore o (o.store.delete id) w) ["✓ Deleted document " ++ shown] 0
    else .told w ["✗ No document with id " ++ shown] 1

def perform {σ : Type} (o : Outside σ) (m : Moment) (turns : Nat) (w : Workspace)
    (c : Config) (task : Task) (s : σ) : Response × σ :=
  match task with
  | .run path => runGraph o turns w c path s
  | .validate path => (validateGraph w path, s)
  | .cards => (listCards w, s)
  | .ingest files database => (ingestDocuments w c m files database, s)
  | .documents none database => (listDocuments w c database, s)
  | .documents (some id) database => (deleteDocument w c id database, s)

def execute {σ : Type} (o : Outside σ) (m : Moment) (turns : Nat) (w : Workspace)
    (project : Option String) (task : Task) (s : σ) : Response × σ :=
  match Config.load w project with
  | .error e => (.failed w (.settings e), s)
  | .ok c => perform o m turns w c task s

end Task

end Cardwalk
