import Triage.OrgConfig
import Triage.Document

/-!
# Reading configurations

The parts of a configuration in a document of any format. Every field of a
stored configuration may be left out.
-/

namespace Triage

open Document (required? defaulted? strings? text? flag?)

variable {δ : Type} [Document δ]

def Scope.read? (d : δ) : Option Scope := (strings? d).map Scope.ofList

def Obligation.read? (d : δ) : Option Obligation := do
  let get ← Document.fields? ["count", "perMember"] d
  some {
    count := ← defaulted? get "count" (.zero false) Document.single?
    perMember := ← defaulted? get "perMember" false flag? }

def Obligation.readMap? (d : δ) : Option (SortedMap String Obligation) :=
  Document.map? Obligation.read? d

def Team.fieldNames : List String :=
  ["name", "slack_chan", "lead", "managers", "group", "components", "subcomponents",
    "memberCount", "slo"]

def Team.read? (d : δ) : Option Team := do
  let get ← Document.fields? fieldNames d
  some {
    name := ← defaulted? get "name" "" text?
    slackChannel := ← defaulted? get "slack_chan" "" text?
    lead := ← defaulted? get "lead" "" text?
    managers := ← defaulted? get "managers" [] strings?
    group := ← defaulted? get "group" "" text?
    components := ← defaulted? get "components" [] strings?
    subcomponents := ← defaulted? get "subcomponents" .empty (Document.map? Scope.read?)
    memberCount := ← defaulted? get "memberCount" 0 Document.uint32?
    slo := ← defaulted? get "slo" .empty Obligation.readMap? }

def Milestones.read? (d : δ) : Option Milestones := do
  let get ← Document.fields? ["start", "feature_complete", "code_freeze", "ga"] d
  some {
    start := ← defaulted? get "start" "" text?
    featureComplete := ← defaulted? get "feature_complete" "" text?
    codeFreeze := ← defaulted? get "code_freeze" "" text?
    ga := ← defaulted? get "ga" "" text? }

def Release.read? (d : δ) : Option Release := do
  let get ← Document.fields? ["name", "targets", "milestones"] d
  some {
    name := ← defaulted? get "name" "" text?
    targets := ← defaulted? get "targets" [] strings?
    milestones := ← defaulted? get "milestones" none (Document.optional? Milestones.read?) }

def OrgConfig.read? (d : δ) : Option OrgConfig := do
  let get ← Document.fields? ["OrgTitle", "Teams", "Releases", "slo"] d
  some {
    title := ← defaulted? get "OrgTitle" "" text?
    teams := ← defaulted? get "Teams" [] (Document.list? Team.read?)
    releases := ← defaulted? get "Releases" [] (Document.list? Release.read?)
    slo := ← defaulted? get "slo" .empty Obligation.readMap? }

/-- A configuration in the keyed form, whose teams have to be present. -/
def KeyedOrgConfig.read? (d : δ) : Option KeyedOrgConfig := do
  let get ← Document.fields? ["orgTitle", "teams", "releases", "slo"] d
  some {
    title := ← defaulted? get "orgTitle" "" text?
    teams := ← required? get "teams" (Document.map? Team.read?)
    releases := ← defaulted? get "releases" .empty (Document.map? Release.read?)
    slo := ← defaulted? get "slo" .empty Obligation.readMap? }

end Triage
