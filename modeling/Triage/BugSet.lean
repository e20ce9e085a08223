import Triage.Directory.Ownership

/-!
# Sets of bugs

A snapshot of bugs in the order in which they were fetched. Every filter gives a
new set with the bugs that satisfy a condition, in the same order.
-/

namespace Triage

structure BugSet where
  bugs : List Bug := []

namespace BugSet

def ids (s : BugSet) : List UInt64 := s.bugs.map (·.id)

def isEmpty (s : BugSet) : Bool := s.bugs.isEmpty

def filter (s : BugSet) (keep : Bug → Bool) : BugSet := ⟨s.bugs.filter keep⟩

def filterBySeverity (s : BugSet) (severities : List String) : BugSet :=
  s.filter fun b => severities.contains b.severity

/-- Bugs with one of the target releases; the unset one selects bugs without a target. -/
def filterByTargetRelease (s : BugSet) (targets : List String) : BugSet :=
  s.filter fun b => targets.contains b.targetRelease

def filterByStatus (s : BugSet) (statuses : List String) : BugSet :=
  s.filter fun b => statuses.contains b.status

def filterByFlag (s : BugSet) (name : String) (status : Option String) : BugSet :=
  s.filter fun b => b.hasFlag name status

def filterBlocker (s : BugSet) (currentRelease : String) : BugSet :=
  s.filter fun b => b.isBlocker currentRelease

def filterByTeams (s : BugSet) (d : Directory) (teams : List String) : BugSet :=
  s.filter fun b => teams.contains (d.ownerOf b)

end BugSet

end Triage
