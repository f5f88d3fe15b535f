import Cardwalk.Retrieval.Store
import Cardwalk.Text.Replace
import Cardwalk.Text.Utf8

/-!
# Workspaces

What a command finds around it: files and folders, the folder in which it
stands, and the variables of the environment.  A path is a text of names with
slashes between them.  Empty names and dots say nothing, except for a dot at
the head of a path.
-/

set_option autoImplicit false

namespace Cardwalk.Path

def isAbsolute (p : String) : Bool :=
  match p.toList with
  | '/' :: _ => true
  | _ => false

def join (folder p : String) : String :=
  if isAbsolute p || folder.isEmpty then p
  else if folder.toList.getLast? = some '/' then folder ++ p
  else folder ++ "/" ++ p

def namesBackward (p : String) : List (List Char) :=
  match p.toList with
  | '/' :: rest => (Text.splitAt '/' rest).reverse
  | s => (Text.splitAt '/' s).reverse

def dropIdle (absolute : Bool) : List (List Char) → List (List Char)
  | [] => []
  | [['.']] => if absolute then [] else [['.']]
  | n :: rest => if n = [] || n = ['.'] then dropIdle absolute rest else n :: rest

/-- The last name, unless it leads upward or nowhere. -/
def fileName (p : String) : Option String :=
  match dropIdle (isAbsolute p) (namesBackward p) with
  | [] => none
  | n :: _ => if n = ['.'] || n = ['.', '.'] then none else some (String.ofList n)

def fileStem (p : String) : Option String :=
  (fileName p).map fun name =>
    match name.toList.reverse.dropWhile (· ≠ '.') with
    | [] => name
    | [_] => name
    | _ :: stem => String.ofList stem.reverse

def parent (p : String) : Option String :=
  let absolute := isAbsolute p
  match dropIdle absolute (namesBackward p) with
  | [] => none
  | _ :: rest =>
    let kept := Text.joinWith ['/'] (dropIdle absolute rest).reverse
    some (String.ofList (if absolute then '/' :: kept else kept))

/-- The folder of a file; nothing if that is where one stands. -/
def folder (p : String) : Option String := (parent p).filter fun f => f ≠ ""

end Cardwalk.Path

namespace Cardwalk

inductive Content where
  | bytes (b : List UInt8)
  /-- A document store. -/
  | store (s : Store)

inductive Entry where
  | file (c : Content)
  | folder

inductive FileError where
  | notFound
  | notFolder
  | isFolder
  | taken
  | notText
  | badName
deriving DecidableEq, Repr

def FileError.message : FileError → String
  | .notFound => "No such file or directory (os error 2)"
  | .notFolder => "Not a directory (os error 20)"
  | .isFolder => "Is a directory (os error 21)"
  | .taken => "File exists (os error 17)"
  | .notText => "stream did not contain valid UTF-8"
  | .badName => "file name contained an unexpected NUL byte"

abbrev Place := List String

structure Workspace where
  entries : List (Place × Entry) := []
  here : Place := []
  environment : List (String × String) := []

namespace Workspace

def placeText (p : Place) : String := "/" ++ "/".intercalate p

def env (w : Workspace) (name : String) : Option String :=
  (w.environment.find? fun v => v.1 = name).map (·.2)

def home (w : Workspace) : Option String := (w.env "HOME").filter fun h => h ≠ ""

def settingsFolder (w : Workspace) : Option String :=
  ((w.env "XDG_CONFIG_HOME").filter Path.isAbsolute).or
    (w.home.map fun h => Path.join h ".config")

/-- What stands at a place.  The folders on the way to a file are there. -/
def entryAt (w : Workspace) (p : Place) : Option Entry :=
  match w.entries.find? fun e => e.1 = p with
  | some (_, e) => some e
  | none =>
    if p.isEmpty || p.isPrefixOf w.here || w.entries.any fun e => p.isPrefixOf e.1 then
      some .folder
    else none

def namesOf (p : String) : List String :=
  (Text.splitAt '/' p.toList).map String.ofList

def startOf (w : Workspace) (p : String) : Place := if Path.isAbsolute p then [] else w.here

def walk (w : Workspace) : Place → List String → Except FileError Place
  | p, [] => .ok p
  | p, name :: rest =>
    match w.entryAt p with
    | none => .error .notFound
    | some (.file _) => .error .notFolder
    | some .folder =>
      if name = "" || name = "." then walk w p rest
      else if name = ".." then walk w p.dropLast rest
      else walk w (p ++ [name]) rest

def target (w : Workspace) (p : String) : Except FileError Place :=
  if p = "" then .error .notFound
  else if p.toList.contains '\x00' then .error .badName
  else w.walk (w.startOf p) (namesOf p)

def find (w : Workspace) (p : String) : Except FileError (Place × Entry) :=
  match w.target p with
  | .error e => .error e
  | .ok place =>
    match w.entryAt place with
    | some e => .ok (place, e)
    | none => .error .notFound

def fileExists (w : Workspace) (p : String) : Bool :=
  match w.find p with
  | .ok _ => true
  | .error _ => false

def readText (w : Workspace) (p : String) : Except FileError (List Char) :=
  match w.find p with
  | .error e => .error e
  | .ok (_, .folder) => .error .isFolder
  | .ok (_, .file (.store _)) => .error .notText
  | .ok (_, .file (.bytes b)) =>
    match Text.decode? b with
    | some s => .ok s
    | none => .error .notText

/-- The place of a file as a path from the root; the path itself if there
is no such place. -/
def canonical (w : Workspace) (p : String) : String :=
  match w.find p with
  | .ok (place, _) => placeText place
  | .error _ => p

def put (p : Place) (e : Entry) (w : Workspace) : Workspace :=
  { w with entries := (w.entries.filter fun old => old.1 ≠ p) ++ [(p, e)] }

def makeFoldersFrom (w : Workspace) : Place → List String → Except FileError Workspace
  | _, [] => .ok w
  | p, name :: rest =>
    if name = "" || name = "." then makeFoldersFrom w p rest
    else if name = ".." then makeFoldersFrom w p.dropLast rest
    else
      let next := p ++ [name]
      match w.entryAt next with
      | some .folder => makeFoldersFrom w next rest
      | some (.file _) => .error (if rest.isEmpty then .taken else .notFolder)
      | none => makeFoldersFrom (w.put next .folder) next rest

def makeFolders (w : Workspace) (p : String) : Except FileError Workspace :=
  makeFoldersFrom w (w.startOf p) (namesOf p)

def openTarget (w : Workspace) (p : String) : Except FileError Place :=
  match w.target p with
  | .error e => .error e
  | .ok place =>
    match w.entryAt place with
    | some .folder => .error .isFolder
    | some (.file _) => .ok place
    | none =>
      match w.entryAt place.dropLast with
      | some .folder => .ok place
      | some (.file _) => .error .notFolder
      | none => .error .notFound

def touch (w : Workspace) (p : String) : Except FileError Workspace :=
  match w.openTarget p with
  | .error e => .error e
  | .ok place =>
    match w.entryAt place with
    | none => .ok (w.put place (.file (.bytes [])))
    | some _ => .ok w

theorem entryAt_put (w : Workspace) (p : Place) (e : Entry) :
    (w.put p e).entryAt p = some e := by
  have h : (w.put p e).entries.find? (fun old => old.1 = p) = some (p, e) := by
    simp only [put, List.find?_append]
    have : (w.entries.filter fun old => old.1 ≠ p).find? (fun old => old.1 = p) = none := by
      simp [List.find?_eq_none]
    rw [this]
    simp
  simp [entryAt, h]

end Workspace

end Cardwalk
