import Triage.BugSet

/-!
# Bugs by team and by assignee

Bugs filed under a name, in the order of the set they come from, and the counts
that reports are made of. A map by team has an entry for every team of the
directory and one for unowned bugs, even when it is empty.
-/

namespace Triage

structure BugMap where
  buckets : SortedMap String (List Bug) := .empty

namespace BugMap

/-- The map with a bug filed last under a key. -/
def file (m : BugMap) (key : String) (b : Bug) : BugMap :=
  ⟨m.buckets.alter key fun old => old.getD [] ++ [b]⟩

def byTeam (d : Directory) (bugs : List Bug) : BugMap :=
  let seeded := d.teams.foldl (fun acc t => acc.insert t.name []) SortedMap.empty
  bugs.foldl (fun m b => m.file (d.ownerOf b) b) ⟨seeded.insert unknownTeam []⟩

def byAssignee (bugs : List Bug) : BugMap :=
  bugs.foldl (fun m b => m.file b.assignedTo b) {}

def keys (m : BugMap) : List String := m.buckets.keys

def contains (m : BugMap) (key : String) : Bool := m.buckets.contains key

def bugs (m : BugMap) (key : String) : List Bug := (m.buckets.get? key).getD []

def size (m : BugMap) : Nat := m.buckets.size

def isEmpty (m : BugMap) : Bool := m.buckets.isEmpty

def count (m : BugMap) (key : String) (p : Bug → Bool) : Nat := (m.bugs key).countP p

def countAll (m : BugMap) (key : String) : Nat := (m.bugs key).length

def countBySeverityIn (m : BugMap) (key : String) (severities : List String) : Nat :=
  m.count key fun b => severities.contains b.severity

def countByTargetReleaseIn (m : BugMap) (key : String) (targets : List String) : Nat :=
  m.count key fun b => targets.contains b.targetRelease

def countBlocker (m : BugMap) (key currentRelease : String) : Nat :=
  m.count key fun b => b.isBlocker currentRelease

def countReviewedInSprint (m : BugMap) (key : String) : Nat := m.count key Bug.reviewedInSprint

def countNotReviewedInSprint (m : BugMap) (key : String) : Nat :=
  m.count key fun b => !b.reviewedInSprint

def countUntriaged (m : BugMap) (key : String) : Nat := m.count key Bug.isUntriaged

def tally (f : Bug → String) (bugs : List Bug) : SortedMap String Nat :=
  bugs.foldl (fun acc b => acc.alter (f b) fun n => n.getD 0 + 1) .empty

def severityBreakdown (m : BugMap) (key : String) : SortedMap String Nat :=
  tally (·.severity) (m.bugs key)

def priorityBreakdown (m : BugMap) (key : String) : SortedMap String Nat :=
  tally (·.priority) (m.bugs key)

end BugMap

namespace BugSet

def teamMap (s : BugSet) (d : Directory) : BugMap := .byTeam d s.bugs

def assigneeMap (s : BugSet) : BugMap := .byAssignee s.bugs

end BugSet

end Triage
