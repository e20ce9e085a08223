import Triage.Text.Search

/-!
# Paths

A path names a file by the folders on the way to it, separated by slashes.
Repeated slashes and the name `.` say nothing.
-/

namespace Triage.Path

def names (path : String) : List String :=
  ((Text.splitOn '/' path.toList).map String.ofList).filter fun n => n != "" && n != "."

/-- Whether only a folder can be meant: the path ends in a slash or leads to a folder. -/
def namesFolder (path : String) : Bool :=
  match (Text.splitOn '/' path.toList).getLast? with
  | some last => last = [] || last = ['.'] || last = ['.', '.']
  | none => false

/-- The last name, unless the path leads back or names nothing. -/
def lastName? (path : String) : Option String := (names path).getLast?.filter (· != "..")

/-- A name before and after its last dot. A dot at the start is part of the name. -/
def splitName (name : String) : String × Option String :=
  let reversed := name.toList.reverse
  let after := reversed.takeWhile (· ≠ '.')
  match reversed.dropWhile (· ≠ '.') with
  | _ :: before =>
    if before.isEmpty then (name, none)
    else (String.ofList before.reverse, some (String.ofList after.reverse))
  | [] => (name, none)

def extension? (path : String) : Option String := (lastName? path).bind fun n => (splitName n).2

/-- The path without the slashes and dots after its last name. -/
def trimmed (path : String) : List Char :=
  let rec trim : List Char → List Char
    | '/' :: rest => trim rest
    | '.' :: '/' :: rest => trim rest
    | reversed => reversed
  (trim path.toList.reverse).reverse

/-- The path with another extension; one that has no last name stays as it is. -/
def withExtension (path extension : String) : String :=
  match lastName? path with
  | none => path
  | some name =>
    let path := trimmed path
    let folder := path.take (path.length - name.length)
    String.ofList folder ++ (splitName name).1 ++ "." ++ extension

end Triage.Path
