import Triage.Team
import Triage.Release

/-!
# Organisation configuration

The configuration of an organisation as it is stored: teams and releases in
order, and the obligations that hold for every team without its own. One
configuration can be laid over another (`OrgConfig.merge`).
-/

namespace Triage

structure OrgConfig where
  title : String := ""
  teams : List Team := []
  releases : List Release := []
  slo : SortedMap String Obligation := .empty
  deriving DecidableEq, Repr

namespace OrgConfig

/-- Changes the first item of which `p` holds, or adds `new` behind all when there is none. -/
def upsert (p : α → Bool) (change : α → α) (new : α) : List α → List α
  | [] => [new]
  | x :: rest => if p x then change x :: rest else x :: upsert p change new rest

/-- A team laid over a list: merged into the team of its name, or added at the end. -/
def mergeTeam (teams : List Team) (new : Team) : List Team :=
  upsert (·.name == new.name) (·.merge new) new teams

/-- A release laid over a list: in place of the release of its name, or added at the end. -/
def mergeRelease (releases : List Release) (new : Release) : List Release :=
  upsert (·.name == new.name) (fun _ => new) new releases

def merge (base overlay : OrgConfig) : OrgConfig where
  title := if overlay.title = "" then base.title else overlay.title
  teams := overlay.teams.foldl mergeTeam base.teams
  releases := overlay.releases.foldl mergeRelease base.releases
  slo := base.slo.extend overlay.slo

end OrgConfig

/-- The form in which a service gives a configuration: teams and releases by key. -/
structure KeyedOrgConfig where
  title : String := ""
  teams : SortedMap String Team
  releases : SortedMap String Release := .empty
  slo : SortedMap String Obligation := .empty

namespace KeyedOrgConfig

/-- The stored form: entries in key order, a nameless one taking its key as name. -/
def toOrgConfig (c : KeyedOrgConfig) : OrgConfig where
  title := c.title
  teams := (c.teams.mapValues fun key t => if t.name = "" then { t with name := key } else t).values
  releases :=
    (c.releases.mapValues fun key r => if r.name = "" then { r with name := key } else r).values
  slo := c.slo

end KeyedOrgConfig

end Triage
