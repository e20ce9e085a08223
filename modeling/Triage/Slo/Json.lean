import Triage.Slo
import Triage.OrgConfig.Json

/-!
# SLO reports in JSON

A report is an object of results by team. Member counts of zero and unscaled
obligations leave their fields out.
-/

namespace Triage.Slo

open Json (member memberIf)
open Document (required? defaulted?)

def MetricResult.toJson (r : MetricResult) : Json := .object <|
  member "name" (.string r.name.key)
  ++ member "current" (.ofInt r.current)
  ++ member "obligation" (.ofInt r.obligation)
  ++ memberIf r.perMember "perMember" (.bool true)
  ++ member "passed" (.bool r.passed)

def Result.toJson (r : Result) : Json := .object <|
  member "name" (.string r.name)
  ++ member "failing" (.bool r.failing)
  ++ memberIf (r.members != 0) "members" (.ofNat r.members.toNat)
  ++ member "results" (.array (r.results.map MetricResult.toJson))

def Report.toJson (r : Report) : Json := .ofMap Result.toJson r.byTeam

def MetricResult.ofJson? (v : Json) : Option MetricResult := do
  let get ← v.fields? ["name", "current", "obligation", "perMember", "passed"]
  some {
    name := ← required? get "name" fun v => v.text?.bind Metric.ofKey?
    current := ← required? get "current" Json.int64?
    obligation := ← required? get "obligation" Json.int64?
    perMember := ← defaulted? get "perMember" false Json.flag?
    passed := ← required? get "passed" Json.flag? }

def Result.ofJson? (v : Json) : Option Result := do
  let get ← v.fields? ["name", "failing", "members", "results"]
  some {
    name := ← required? get "name" Json.text?
    failing := ← required? get "failing" Json.flag?
    members := ← defaulted? get "members" 0 Document.uint32?
    results := ← defaulted? get "results" [] (Document.list? MetricResult.ofJson?) }

def Report.ofJson? (v : Json) : Option Report := (Document.map? Result.ofJson? v).map .mk

end Triage.Slo
