import Triage.Bug

/-!
# Queries

What to ask a tracker for: bugs whose fields are among the given values, an empty
list allowing every value. Trackers that answer queries over the network also
know advanced terms and may be asked for some fields only.
-/

namespace Triage

structure Term where
  field : String
  op : String
  value : String := ""
  negate : Bool := false
  deriving DecidableEq, Repr

structure BugQuery where
  classifications : List String := []
  products : List String := []
  statuses : List String := []
  severities : List String := []
  components : List String := []
  targetReleases : List String := []
  /-- The fields to fetch, all of them when empty. -/
  includeFields : List String := []
  advanced : List Term := []
  deriving DecidableEq, Repr

namespace BugQuery

def openStatuses : List String := ["NEW", "ASSIGNED", "POST", "ON_DEV", "MODIFIED"]

def bugFields : List String :=
  ["id", "summary", "status", "severity", "priority", "assigned_to", "target_release",
    "component", "sub_components", "keywords", "flags", "whiteboard", "cf_pm_score"]

/-- Every open bug of the product that is not about its documentation. -/
def openBugs : BugQuery where
  classifications := ["Red Hat"]
  products := ["OpenShift Container Platform"]
  statuses := openStatuses
  includeFields := bugFields
  advanced := [⟨"component", "equals", "Documentation", true⟩]

def repeated (key : String) (values : List String) : List (String × String) :=
  values.map (key, ·)

def termKey (part : Char) (n : Nat) : String := String.ofList (part :: Text.digits n)

/-- The parameters of the `n`-th term; an empty value is not sent. -/
def termParams (n : Nat) (t : Term) : List (String × String) :=
  [(termKey 'f' n, t.field), (termKey 'o' n, t.op)]
  ++ (if t.value = "" then [] else [(termKey 'v' n, t.value)])
  ++ (if t.negate then [(termKey 'n' n, "1")] else [])

def termsParams (n : Nat) : List Term → List (String × String)
  | [] => []
  | t :: rest => termParams n t ++ termsParams (n + 1) rest

def toParams (q : BugQuery) : List (String × String) :=
  repeated "classification" q.classifications
  ++ repeated "product" q.products
  ++ repeated "bug_status" q.statuses
  ++ repeated "bug_severity" q.severities
  ++ repeated "component" q.components
  ++ repeated "target_release" q.targetReleases
  ++ termsParams 1 q.advanced
  ++ (if q.includeFields = [] then []
      else [("include_fields", String.intercalate "," q.includeFields)])

def allows (values : List String) (value : String) : Bool :=
  values.isEmpty || values.contains value

/-- Whether a bug meets the conditions on its fields; advanced terms are left to the tracker. -/
def accepts (q : BugQuery) (b : Bug) : Bool :=
  allows q.statuses b.status && allows q.severities b.severity
    && allows q.components b.component && allows q.targetReleases b.targetRelease

end BugQuery

end Triage
