import Triage.Bug.Json
import Triage.Files
import Triage.Json.Reader
import Triage.Tracker

/-!
# A tracker in a file

Bugs in a JSON file: a list of them, or a record with the list as its only
field. The file is read for every call and never written, so every update fails.
-/

namespace Triage

namespace FileTracker

/-- The bugs of a value of either form. Since it is looked at twice, no part of it may be void. -/
def readBugs? (v : Json) : Option (List Bug) :=
  if v.sound then (Bug.recordOfJson? v).or (Bug.listOfJson? v) else none

def ofText? (text : String) : Option (List Bug) := (Json.read? text).bind readBugs?

def load (fs : Files) (path : String) : SourceResult (List Bug) := do
  let text ← (fs.readText path).mapError .io
  (ofText? text).elim (.error .json) .ok

def search (fs : Files) (path : String) (q : BugQuery) : SourceResult BugSet :=
  (load fs path).map fun bugs => ⟨bugs.filter q.accepts⟩

def getBug (fs : Files) (path : String) (id : UInt64) : SourceResult Bug := do
  let bugs ← load fs path
  (bugs.find? (·.id == id)).elim (.error (.notFound id)) .ok

def refusal (path : String) (id : UInt64) : String :=
  "bug " ++ String.ofList (Text.digits id.toNat) ++ " cannot be updated in file " ++ path

def updateBug (path : String) (id : UInt64) : SourceResult Unit :=
  .error (.io (.permissionDenied (refusal path id)))

def tracker [Monad m] (files : m Files) (path : String) : Tracker m where
  search q := do return search (← files) path q
  getBug id := do return getBug (← files) path id
  updateBug id _ := pure (updateBug path id)

end FileTracker

end Triage
