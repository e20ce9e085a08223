import Triage.OrgConfig.Reading
import Triage.Json.Document
import Triage.Json.Printer
import Triage.Json.Reader

/-!
# Configurations in JSON

The storage form of a configuration, which leaves out what is empty, and how a
JSON text is read: as the keyed form first, and as the stored form when that
fails in any way.
-/

namespace Triage

open Json (member memberIf)

def Scope.toJson (s : Scope) : Json := .ofStrings s.toList

def Obligation.toJson (o : Obligation) : Json :=
  .object (member "count" (.ofSingle o.count) ++ memberIf o.perMember "perMember" (.bool true))

def Team.toJson (t : Team) : Json := .object <|
  member "name" (.string t.name)
  ++ memberIf (t.slackChannel != "") "slack_chan" (.string t.slackChannel)
  ++ memberIf (t.lead != "") "lead" (.string t.lead)
  ++ memberIf (!t.managers.isEmpty) "managers" (.ofStrings t.managers)
  ++ memberIf (t.group != "") "group" (.string t.group)
  ++ member "components" (.ofStrings t.components)
  ++ memberIf (!t.subcomponents.isEmpty) "subcomponents" (.ofMap Scope.toJson t.subcomponents)
  ++ memberIf (t.memberCount != 0) "memberCount" (.ofNat t.memberCount.toNat)
  ++ memberIf (!t.slo.isEmpty) "slo" (.ofMap Obligation.toJson t.slo)

def Milestones.toJson (m : Milestones) : Json := .object <|
  memberIf (m.start != "") "start" (.string m.start)
  ++ memberIf (m.featureComplete != "") "feature_complete" (.string m.featureComplete)
  ++ memberIf (m.codeFreeze != "") "code_freeze" (.string m.codeFreeze)
  ++ memberIf (m.ga != "") "ga" (.string m.ga)

def Release.toJson (r : Release) : Json := .object <|
  member "name" (.string r.name)
  ++ member "targets" (.ofStrings r.targets)
  ++ (match r.milestones with
    | some m => member "milestones" m.toJson
    | none => [])

namespace OrgConfig

def toJson (c : OrgConfig) : Json := .object <|
  memberIf (c.title != "") "OrgTitle" (.string c.title)
  ++ member "Teams" (.array (c.teams.map Team.toJson))
  ++ memberIf (!c.releases.isEmpty) "Releases" (.array (c.releases.map Release.toJson))
  ++ memberIf (!c.slo.isEmpty) "slo" (.ofMap Obligation.toJson c.slo)

/-- A value of either form. Since it is looked at twice, no part of it may be void. -/
def ofJson? (v : Json) : Option OrgConfig :=
  if v.sound then
    ((KeyedOrgConfig.read? v).map KeyedOrgConfig.toOrgConfig).or (read? v)
  else none

def ofJsonText? (text : String) : Option OrgConfig := (Json.read? text).bind ofJson?

end OrgConfig

end Triage
