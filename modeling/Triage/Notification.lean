import Triage.BugLinker
import Triage.BugMap
import Triage.Directory.Ownership
import Triage.Notifier
import Triage.Summary

/-!
# Notifications

Everybody to whom bugs of teams with a channel are assigned may get a reminder,
and every team with a channel and bugs gets a report on them. The messages are
sent one after the other, and one that cannot be delivered is passed over. The
last one says which teams a report was for, and which not.
-/

namespace Triage

namespace Notification

def withChannel (d : Directory) : List String :=
  (d.teams.filter (·.slackChannel != "")).map (·.name)

/-- The reminder for somebody, unless there is nothing to be reminded of. -/
def reminder? (links : BugLinker) (release : String) (assignee : String) (bugs : List Bug) :
    Option Message :=
  if assignee = "" then none
  else
    let lines := (Summary.ofBugs assignee bugs release).personalLines links
    if lines.isEmpty then none
    else some ⟨.person assignee, String.intercalate "\n" lines⟩

def isReported (map : BugMap) (t : Team) : Bool :=
  !(map.bugs t.name).isEmpty && t.slackChannel != ""

def teamReport (map : BugMap) (links : BugLinker) (release : String) (t : Team) : Message where
  recipient := .channel t.slackChannel
  text := String.intercalate "\n" ((Summary.ofBugs t.name (map.bugs t.name) release).teamLines links)

def deliverySummary (reported skipped : List String) : String :=
  "Sent to team: " ++ String.intercalate ", " reported
    ++ "\n\nNot sent to team: " ++ String.intercalate ", " skipped

-- ---------------------------------------------------------------------------
-- Sending
-- ---------------------------------------------------------------------------

variable {m : Type → Type} [Monad m] (n : Notifier m)

/-- Attempts a message, and counts it if it is delivered. -/
def attempt (sent : Nat) (message : Message) : m Nat := do
  match ← n message with
  | .ok _ => return sent + 1
  | .error _ => return sent

def remind (links : BugLinker) (release : String) (sent : Nat) (assigned : String × List Bug) :
    m Nat :=
  match reminder? links release assigned.1 assigned.2 with
  | none => return sent
  | some message => attempt n sent message

def remindAll (d : Directory) (bugs : BugSet) (links : BugLinker) (people : Bool)
    (release : String) : m Nat :=
  if people then
    let owned := bugs.filterByTeams d (withChannel d)
    owned.assigneeMap.buckets.entries.foldlM (remind n links release) 0
  else return 0

structure Progress where
  sent : Nat
  reported : List String := []
  skipped : List String := []

/-- The turn of a team. It is listed as reported before its report is attempted. -/
def report (map : BugMap) (links : BugLinker) (release : String) (p : Progress) (t : Team) :
    m Progress := do
  if !isReported map t then return { p with skipped := p.skipped ++ [t.name] }
  let p := { p with reported := p.reported ++ [t.name] }
  return { p with sent := ← attempt n p.sent (teamReport map links release t) }

def notify (d : Directory) (bugs : BugSet) (links : BugLinker) (people : Bool) :
    m (Except ConfigError Nat) := do
  match d.currentRelease with
  | .error e => return .error e
  | .ok release =>
    let map := bugs.teamMap d
    let sent ← remindAll n d bugs links people release
    let p ← d.teams.foldlM (report n map links release) { sent }
    let summary := deliverySummary p.reported p.skipped.mergeSort
    return .ok (← attempt n p.sent ⟨.debug, summary⟩)

end Notification

end Triage
