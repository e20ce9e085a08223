import Triage.BugMap
import Triage.PassRates
import Triage.Slo.Metric

/-!
# Service level objectives

Each team's bug load against its obligations. A metric is passed when its
current value is at most the obligation, and a team is failing when it does not
pass every metric.
-/

namespace Triage

structure TeamBugMaps where
  total : BugMap := {}
  urgent : BugMap := {}
  blocker : BugMap := {}

def TeamBugMaps.build (d : Directory) (bugs : BugSet) (currentRelease : String) : TeamBugMaps where
  total := bugs.teamMap d
  urgent := (bugs.filterBySeverity ["urgent"]).teamMap d
  blocker := (bugs.filterBlocker currentRelease).teamMap d

namespace Slo

structure MetricResult where
  name : Metric
  current : Int
  obligation : Int
  perMember : Bool
  passed : Bool
  deriving DecidableEq, Repr

structure Result where
  name : String
  failing : Bool
  members : UInt32
  results : List MetricResult
  deriving DecidableEq, Repr

def Result.metric? (r : Result) (m : Metric) : Option MetricResult :=
  r.results.find? (·.name == m)

def Result.failedMetrics (r : Result) : List MetricResult := r.results.filter (!·.passed)

structure Report where
  byTeam : SortedMap String Result := .empty
  deriving DecidableEq, Repr

namespace Report

def get? (r : Report) (team : String) : Option Result := r.byTeam.get? team

def size (r : Report) : Nat := r.byTeam.size

def isEmpty (r : Report) : Bool := r.byTeam.isEmpty

def failingTeams (r : Report) : List String :=
  (r.byTeam.values.filter (·.failing)).map (·.name)

end Report

/-- The team's own obligation, else that of the organisation, else zero. -/
def resolve (d : Directory) (t : Team) (m : Metric) : Obligation :=
  ((t.slo.get? m.key).or (d.slo.get? m.key)).getD {}

/-- The greatest permitted value for a team of `members`. The product is one of
32-bit numbers, and its fraction is dropped. A team that reports no members
keeps the plain count. -/
def scale (o : Obligation) (members : UInt32) : Int :=
  if o.perMember && members != 0 then
    (o.count.mul (Binary.ofNat Binary.single members.toNat)).truncate
  else o.count.truncate

def addSaturating (a b : Int) : Int := Word.clampInt64 (a + b)

def scoreSum (bugs : List Bug) : Int := bugs.foldl (fun acc b => addSaturating acc b.score) 0

def current (m : Metric) (t : Team) (maps : TeamBugMaps) (ci : PassRates) : Int :=
  match m with
  | .urgent => maps.urgent.countAll t.name
  | .blocker => maps.blocker.countAll t.name
  | .pmScore => scoreSum (maps.total.bugs t.name)
  | .ciFailRate => ci.failRate t.components
  | .total => maps.total.countAll t.name

def evaluateMetric (d : Directory) (t : Team) (maps : TeamBugMaps) (ci : PassRates) (m : Metric) :
    MetricResult :=
  let o := resolve d t m
  let bound := scale o t.memberCount
  let value := current m t maps ci
  { name := m, current := value, obligation := bound, perMember := o.perMember,
    passed := value ≤ bound }

def evaluateTeam (d : Directory) (maps : TeamBugMaps) (ci : PassRates) (t : Team) : Result :=
  let results := Metric.ordered.map (evaluateMetric d t maps ci)
  { name := t.name, failing := results.any (!·.passed), members := t.memberCount, results }

def evaluate (d : Directory) (maps : TeamBugMaps) (ci : PassRates) : Report :=
  ⟨.ofList (d.teams.map fun t => (t.name, evaluateTeam d maps ci t))⟩

def onEngineeringStatuses : List String := ["NEW", "ASSIGNED", "ON_DEV", "POST"]

def report (d : Directory) (bugs : BugSet) (version : String) (ci : PassRates) : Report :=
  evaluate d
    (.build d (bugs.filterByStatus onEngineeringStatuses) (Directory.releaseOf version)) ci

end Slo

end Triage
