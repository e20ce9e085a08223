import Triage.Error
import Triage.Path
import Triage.SortedMap

/-!
# Files

The files a program can see, by path. A file can only be written where its folder
is; renaming moves a file onto another in one step.
-/

namespace Triage

structure Files where
  contents : SortedMap String ByteArray := .empty
  folders : List String := []

namespace Files

/-- The one path under which a file is kept; nothing for a path that names none. -/
def place? (path : String) : Option String :=
  let place := String.intercalate "/" (Path.names path)
  if place = "" then none else if path.startsWith "/" then some ("/" ++ place) else some place

def read (fs : Files) (path : String) : Except IoError ByteArray :=
  match place? path with
  | none => .error (if path = "" then .notFound else .isDirectory)
  | some place =>
    match fs.contents.get? place with
    | some bytes => .ok bytes
    | none => .error (if fs.folders.contains place then .isDirectory else .notFound)

def readText (fs : Files) (path : String) : Except IoError String := do
  match String.fromUTF8? (← fs.read path) with
  | some text => .ok text
  | none => .error .invalidData

def hasFolder (fs : Files) (place : String) : Bool :=
  match (Path.names place).dropLast with
  | [] => true
  | names => fs.folders.contains (String.intercalate "/" names)

def target (fs : Files) (path : String) : Except IoError String :=
  match place? path with
  | none => .error (if path = "" then .notFound else .isDirectory)
  | some place =>
    if Path.namesFolder path || fs.folders.contains place then .error .isDirectory
    else if fs.hasFolder place then .ok place
    else .error .notFound

/-- The files after one is written. -/
def write (fs : Files) (path : String) (bytes : ByteArray) : Except IoError Files := do
  let place ← fs.target path
  .ok { fs with contents := fs.contents.insert place bytes }

def without (m : SortedMap String ByteArray) (key : String) : SortedMap String ByteArray where
  entries := m.entries.filter (·.1 != key)
  sorted := m.sorted.filter _

/-- The files after one is moved onto the place of another. -/
def rename (fs : Files) (source path : String) : Except IoError Files := do
  let bytes ← fs.read source
  let place ← fs.target path
  let contents := match place? source with
    | some old => without fs.contents old
    | none => fs.contents
  .ok { fs with contents := contents.insert place bytes }

def ofList (files : List (String × ByteArray)) : Files :=
  files.foldl (fun fs (path, bytes) =>
    match place? path with
    | none => fs
    | some place =>
      let names := (Path.names place).dropLast
      let folders := (List.range names.length).map fun n =>
        String.intercalate "/" (names.take (n + 1))
      { contents := fs.contents.insert place bytes, folders := fs.folders ++ folders }) {}

end Files

end Triage
