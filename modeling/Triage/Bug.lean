import Triage.Json.Basic
import Triage.SortedMap
import Triage.Text.Blank
import Triage.Text.Digits
import Triage.Text.Search

/-!
# Bugs

A bug record of the issue tracker and the questions that are asked about it.
Records never change here; a change is a new record (`Triage.BugUpdate`).
-/

namespace Triage

structure Flag where
  name : String
  status : String := ""
  deriving DecidableEq, Repr

structure Bug where
  id : UInt64
  summary : String := ""
  status : String := ""
  severity : String := ""
  priority : String := ""
  assignedTo : String := ""
  components : List String := []
  subcomponents : SortedMap String (List String) := .empty
  targetReleases : List String := []
  keywords : List String := []
  flags : List Flag := []
  whiteboard : String := ""
  /-- The score as the tracker reports it: a string from some, a number from others. -/
  reportedScore : Option Json := none

namespace Bug

def unsetTargetRelease : String := "---"

def unspecified : String := "unspecified"

def upcomingSprint : String := "UpcomingSprint"

def lifecycleStale : String := "LifecycleStale"

def blockerFlag : String := "blocker"

def baselineScore : Int := 1

def component (b : Bug) : String := b.components.headD ""

def subcomponent (b : Bug) : String :=
  ((b.subcomponents.get? b.component).bind List.head?).getD ""

/-- The first target release; an empty one counts as not set. -/
def targetRelease (b : Bug) : String :=
  match b.targetReleases with
  | target :: _ => if target = "" then unsetTargetRelease else target
  | [] => unsetTargetRelease

def hasKeyword (b : Bug) (keyword : String) : Bool := b.keywords.contains keyword

def hasFlag (b : Bug) (name : String) (status : Option String) : Bool :=
  b.flags.any fun f => f.name == name && (status.all fun s => f.status == s)

def severityUnset (b : Bug) : Bool := b.severity == "" || b.severity == unspecified

def priorityUnset (b : Bug) : Bool := b.priority == "" || b.priority == unspecified

/-- Release-critical: not of low severity, and aimed at the current release or at none yet. -/
def isBlocker (b : Bug) (currentRelease : String) : Bool :=
  b.severity != "low"
    && (b.targetRelease == unsetTargetRelease || b.targetRelease == currentRelease)

/-- Severity or priority is missing, or somebody asked whether it blocks the release. -/
def isUntriaged (b : Bug) : Bool :=
  b.severityUnset || b.priorityUnset || b.hasFlag blockerFlag (some "?")

def reviewedInSprint (b : Bug) : Bool := b.hasKeyword upcomingSprint

def isStale (b : Bug) : Bool := Text.occursIn lifecycleStale.toList b.whiteboard.toList

def isLowPriorityAndSeverity (b : Bug) : Bool := b.severity == "low" && b.priority == "low"

/-- The integer a reported score denotes: an integer literal of the 64-bit range,
or a string of one between white space. -/
def readScore? : Json → Option Int
  | .string s => Text.int64? (Text.trim s.toList)
  | .number (.integer n) => if Word.fitsInt64 n then some n else none
  | _ => none

/-- The score of a bug; one that is missing or cannot be read counts as the baseline. -/
def score (b : Bug) : Int := (b.reportedScore.bind readScore?).getD baselineScore

end Bug

end Triage
