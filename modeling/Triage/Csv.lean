import Triage.BugMap
import Triage.Directory

/-!
# Tables

Counts of bugs as lines of fields between commas. A field is quoted when it holds
a comma or a quote; a quote inside is then doubled.
-/

namespace Triage

namespace Csv

def doubleQuotes (text : List Char) : List Char :=
  text.flatMap fun c => if c = '"' then ['"', '"'] else [c]

def field (value : String) : String :=
  let text := value.toList
  if text.contains ',' || text.contains '"' then
    String.ofList ('"' :: doubleQuotes text ++ ['"'])
  else value

def number (n : Nat) : String := String.ofList (Text.digits n)

def line (fields : List String) : String := String.intercalate "," fields ++ "\n"

/-- The number of bugs under each key, in key order. Keys are written as they are. -/
def bugsPerTeam (map : BugMap) : String :=
  String.join (map.buckets.entries.map fun (team, bugs) => line [team, number bugs.length])

def sprintHeader : List String := ["Name", "AllBugs", "UpcomingSprintBugs", "Managers"]

def sprintLine (map : BugMap) (t : Team) : String :=
  line [field t.name, number (map.countAll t.name), number (map.countReviewedInSprint t.name),
    field (String.intercalate "," t.managers)]

/-- Each team's bugs and how many of them were reviewed for the sprint, in directory order. -/
def sprintStats (d : Directory) (map : BugMap) : String :=
  line sprintHeader ++ String.join (d.teams.map (sprintLine map))

end Csv

end Triage
