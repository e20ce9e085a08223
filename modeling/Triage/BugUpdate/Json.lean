import Triage.BugUpdate
import Triage.Json.Document

/-!
# Updates in JSON

Only what is set is written, so that an empty change is told apart from none.
-/

namespace Triage

open Document (required? defaulted? strings? optional?)
open Json (member memberIf)

namespace KeywordChange

def toJson (k : KeywordChange) : Json := .object <|
  memberIf (!k.add.isEmpty) "add" (.ofStrings k.add)
  ++ memberIf (!k.remove.isEmpty) "remove" (.ofStrings k.remove)

def ofJson? (v : Json) : Option KeywordChange := do
  let get ← v.fields? ["add", "remove"]
  some {
    add := ← defaulted? get "add" [] strings?
    remove := ← defaulted? get "remove" [] strings? }

end KeywordChange

namespace BugUpdate

def fieldNames : List String :=
  ["status", "resolution", "target_release", "keywords", "whiteboard", "comment"]

def memberOf (key : String) (f : α → Json) : Option α → List (String × Json)
  | some x => member key (f x)
  | none => []

def commentToJson (body : String) : Json := .object [("body", .string body)]

def commentOfJson? (v : Json) : Option String := do
  let get ← v.fields? ["body"]
  required? get "body" Json.text?

def toJson (u : BugUpdate) : Json := .object <|
  memberOf "status" .string u.status
  ++ memberOf "resolution" .string u.resolution
  ++ memberOf "target_release" .string u.targetRelease
  ++ memberOf "keywords" KeywordChange.toJson u.keywords
  ++ memberOf "whiteboard" .string u.whiteboard
  ++ memberOf "comment" commentToJson u.comment

def ofJson? (v : Json) : Option BugUpdate := do
  let get ← v.fields? fieldNames
  some {
    status := ← defaulted? get "status" none (optional? Json.text?)
    resolution := ← defaulted? get "resolution" none (optional? Json.text?)
    targetRelease := ← defaulted? get "target_release" none (optional? Json.text?)
    keywords := ← defaulted? get "keywords" none (optional? KeywordChange.ofJson?)
    whiteboard := ← defaulted? get "whiteboard" none (optional? Json.text?)
    comment := ← defaulted? get "comment" none (optional? commentOfJson?) }

end BugUpdate

end Triage
