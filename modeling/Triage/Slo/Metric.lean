/-!
# Metrics

The five measures of a team's bug load, and the names under which they stand in
configurations and reports.
-/

namespace Triage

inductive Metric where
  | urgent
  | blocker
  | pmScore
  | ciFailRate
  | total
  deriving DecidableEq, Repr

namespace Metric

def ordered : List Metric := [urgent, blocker, pmScore, ciFailRate, total]

def key : Metric → String
  | urgent => "urgents"
  | blocker => "blockers"
  | pmScore => "pmscore"
  | ciFailRate => "ci-fail-rate"
  | total => "total"

def ofKey? (key : String) : Option Metric := ordered.find? (·.key == key)

theorem ofKey?_key (m : Metric) : ofKey? m.key = some m := by cases m <;> decide

end Metric

end Triage
