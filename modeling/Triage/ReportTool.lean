import Triage.CommandLine.Outcome
import Triage.Csv
import Triage.Directory.Lint
import Triage.Notification
import Triage.PassRates.Service
import Triage.ReportTool.Arguments
import Triage.Slack
import Triage.Slo.Json
import Triage.SourceSelection

/-!
# The report tool

Loads the directory, and for most commands the bugs, and prints or sends a report.
-/

namespace Triage.ReportTool

open CommandLine Http

abbrev Printed := String × Except Failure Unit

def printed (text : String) : Printed := (text, .ok ())

def failed (cause : Failure) : Printed := ("", .error cause)

def printJson (v : Json) : Printed := printed (v.pretty ++ "\n")

-- ---------------------------------------------------------------------------
-- Sources
-- ---------------------------------------------------------------------------

def loadDirectory (files : Files) (s : OrgSettings) : NetM (Except Failure Directory) :=
  match s.source with
  | .error e => return .error (.config e)
  | .ok source => do
    return (← loadFrom files source).mapError (.source (some "Failed to load team directory"))

def loadBugs (files : Files) (rounds : Nat) (s : TrackerSettings) : NetM (Except Failure BugSet) :=
  match selectTracker files rounds s with
  | .error e => return .error (.source none e)
  | .ok tracker => do
    return (← tracker.search BugQuery.openBugs).mapError (.source (some "Failed to fetch bugs"))

-- ---------------------------------------------------------------------------
-- Commands
-- ---------------------------------------------------------------------------

def lint (d : Directory) : Printed :=
  match d.lint with
  | [] => printed "No ambiguous component claims.\n"
  | findings => printed (String.join (findings.map fun f => f.text ++ "\n"))

def bugsPerTeam (d : Directory) (bugs : BugSet) (targets severities : List String) : Printed :=
  let count (targets : List String) : Printed :=
    let kept := (bugs.filterByTargetRelease targets).filterBySeverity severities
    printed (Csv.bugsPerTeam (kept.teamMap d))
  if targets.isEmpty then
    match d.currentRelease with
    | .error e => failed (.config e)
    | .ok release => count [release, Bug.unsetTargetRelease]
  else count targets

/-- The report on all teams, printed before a failing team is complained of. -/
def sloReport (check : Bool) (report : Slo.Report) : Printed :=
  let failing := report.failingTeams
  ((printJson report.toJson).1,
    if check && !failing.isEmpty then .error (.failingTeams failing) else .ok ())

/-- Asks for the pass rates of the directory's current version and reports. -/
def slo {m : Type → Type} [Monad m] (d : Directory) (bugs : BugSet)
    (ci : String → m (SourceResult PassRates)) (check : Bool) : m Printed :=
  match d.currentVersion with
  | .error e => return failed (.config e)
  | .ok version => do
    match ← ci version with
    | .error e => return failed (.source (some "Failed to fetch CI pass rates") e)
    | .ok rates => return sloReport check (Slo.report d bugs version rates)

def notify (d : Directory) (bugs : BugSet) (files : Files) (a : Arguments)
    (debugChannel : Option String) (people : Bool) : NetM Printed :=
  let settings := match debugChannel with
    | some channel => a.slack.withDebug channel
    | none => a.slack
  match Slack.ofSettings settings files with
  | .error e => return failed (.source (some "Failed to set up Slack client") e)
  | .ok slack => do
    let links := BugLinker.ofEndpoint a.bugzillaEndpoint
    match ← Notification.notify slack.notifier d bugs links people with
    | .error e => return failed (.config e)
    | .ok _ => return printed ""

def withBugs (files : Files) (rounds : Nat) (a : Arguments) (command : BugSet → NetM Printed) :
    NetM Printed := do
  match ← loadBugs files rounds a.tracker with
  | .error e => return failed e
  | .ok bugs => command bugs

def runCommand (files : Files) (rounds : Nat) (a : Arguments) (d : Directory) : NetM Printed :=
  match a.command with
  | .teams => return printJson d.toConfig.toJson
  | .classify component subcomponent => return printed (d.owner component subcomponent ++ "\n")
  | .lint => return lint d
  | .bugsPerTeam targets severities =>
    withBugs files rounds a fun bugs => return bugsPerTeam d bugs targets severities
  | .bugsToTeams => withBugs files rounds a fun bugs =>
    return printJson (.ofMap (fun bugs => .array (bugs.map Bug.toJson)) (bugs.teamMap d).buckets)
  | .sprintStats => withBugs files rounds a fun bugs =>
    return printed (Csv.sprintStats d (bugs.teamMap d))
  | .slo check => withBugs files rounds a fun bugs => slo d bugs (PassRates.fetch a.ci.url) check
  | .notify debugChannel people => withBugs files rounds a fun bugs =>
    notify d bugs files a debugChannel people

-- ---------------------------------------------------------------------------
-- Runs
-- ---------------------------------------------------------------------------

def outcome : Printed → Outcome
  | (text, .ok ()) => .success text
  | (text, .error cause) => .failure text cause

def runArguments (files : Files) (rounds : Nat) (a : Arguments) : NetM Outcome := do
  match ← loadDirectory files a.org with
  | .error e => return .failure "" e
  | .ok d => return outcome (← runCommand files rounds a d)

/-- A run of the tool; a search for bugs takes at most `rounds` pages. -/
def run (words : List String) (env : Environment) (files : Files) (rounds : Nat) : NetM Outcome :=
  match Arguments.ofWords words env with
  | .error stop => return .ofStop stop
  | .ok a => runArguments files rounds a

end Triage.ReportTool
