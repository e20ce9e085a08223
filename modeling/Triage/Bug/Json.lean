import Triage.Bug
import Triage.Json.Document

/-!
# Bugs in JSON

A bug is written with all its fields but an absent score, and read back with
every field but the id optional.
-/

namespace Triage

open Document (required? defaulted? strings?)

namespace Flag

def toJson (f : Flag) : Json :=
  .object [("name", .string f.name), ("status", .string f.status)]

def ofJson? (v : Json) : Option Flag := do
  let get ← v.fields? ["name", "status"]
  some {
    name := ← required? get "name" Json.text?
    status := ← defaulted? get "status" "" Json.text? }

end Flag

namespace Bug

def fieldNames : List String :=
  ["id", "summary", "status", "severity", "priority", "assigned_to", "component",
    "sub_components", "target_release", "keywords", "flags", "whiteboard", "cf_pm_score"]

def toJson (b : Bug) : Json := .object <|
  [("id", .ofNat b.id.toNat),
    ("summary", .string b.summary),
    ("status", .string b.status),
    ("severity", .string b.severity),
    ("priority", .string b.priority),
    ("assigned_to", .string b.assignedTo),
    ("component", .ofStrings b.components),
    ("sub_components", .object (b.subcomponents.mapValues fun _ v => .ofStrings v).entries),
    ("target_release", .ofStrings b.targetReleases),
    ("keywords", .ofStrings b.keywords),
    ("flags", .array (b.flags.map Flag.toJson)),
    ("whiteboard", .string b.whiteboard)]
  ++ (match b.reportedScore with
    | some v => [("cf_pm_score", v)]
    | none => [])

def ofJson? (v : Json) : Option Bug := do
  let get ← v.fields? fieldNames
  some {
    id := ← required? get "id" Document.uint64?
    summary := ← defaulted? get "summary" "" Json.text?
    status := ← defaulted? get "status" "" Json.text?
    severity := ← defaulted? get "severity" "" Json.text?
    priority := ← defaulted? get "priority" "" Json.text?
    assignedTo := ← defaulted? get "assigned_to" "" Json.text?
    components := ← defaulted? get "component" [] strings?
    subcomponents := ← defaulted? get "sub_components" .empty (Document.map? strings?)
    targetReleases := ← defaulted? get "target_release" [] strings?
    keywords := ← defaulted? get "keywords" [] strings?
    flags := ← defaulted? get "flags" [] (Document.list? Flag.ofJson?)
    whiteboard := ← defaulted? get "whiteboard" "" Json.text?
    reportedScore := ← defaulted? get "cf_pm_score" none Json.any? }

def listOfJson? (v : Json) : Option (List Bug) := Document.list? ofJson? v

def recordOfJson? (v : Json) : Option (List Bug) := do
  let get ← v.fields? ["bugs"]
  defaulted? get "bugs" [] listOfJson?

end Bug

end Triage
