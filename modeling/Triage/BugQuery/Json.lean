import Triage.BugQuery
import Triage.Json.Document

/-!
# Queries in JSON

A query is written with all its fields and read with each of them optional.
-/

namespace Triage

open Document (required? defaulted? strings?)

namespace Term

def toJson (t : Term) : Json :=
  .object [("field", .string t.field), ("op", .string t.op), ("value", .string t.value),
    ("negate", .bool t.negate)]

def ofJson? (v : Json) : Option Term := do
  let get ← v.fields? ["field", "op", "value", "negate"]
  some {
    field := ← required? get "field" Json.text?
    op := ← required? get "op" Json.text?
    value := ← defaulted? get "value" "" Json.text?
    negate := ← defaulted? get "negate" false Json.flag? }

end Term

namespace BugQuery

def fieldNames : List String :=
  ["classification", "product", "status", "severity", "component", "target_release",
    "include_fields", "advanced"]

def toJson (q : BugQuery) : Json :=
  .object [
    ("classification", .ofStrings q.classifications),
    ("product", .ofStrings q.products),
    ("status", .ofStrings q.statuses),
    ("severity", .ofStrings q.severities),
    ("component", .ofStrings q.components),
    ("target_release", .ofStrings q.targetReleases),
    ("include_fields", .ofStrings q.includeFields),
    ("advanced", .array (q.advanced.map Term.toJson))]

def ofJson? (v : Json) : Option BugQuery := do
  let get ← v.fields? fieldNames
  some {
    classifications := ← defaulted? get "classification" [] strings?
    products := ← defaulted? get "product" [] strings?
    statuses := ← defaulted? get "status" [] strings?
    severities := ← defaulted? get "severity" [] strings?
    components := ← defaulted? get "component" [] strings?
    targetReleases := ← defaulted? get "target_release" [] strings?
    includeFields := ← defaulted? get "include_fields" [] strings?
    advanced := ← defaulted? get "advanced" [] (Document.list? Term.ofJson?) }

end BugQuery

end Triage
