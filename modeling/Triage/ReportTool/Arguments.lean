import Triage.CommandLine.Options
import Triage.Settings.Ci
import Triage.Settings.Org
import Triage.Settings.Slack
import Triage.Settings.Tracker

/-!
# Arguments of the report tool

A command with its own options, and options about sources that may stand before
or behind the command. Where such an option is given in both places, the one
behind the command counts; where it is given in neither, a variable may stand for it.
-/

namespace Triage.ReportTool

open CommandLine

inductive Command where
  | teams
  | classify (component subcomponent : String)
  | lint
  /-- Count the bugs of each team; without targets, those of the current release and of none. -/
  | bugsPerTeam (targets severities : List String)
  | bugsToTeams
  | sprintStats
  /-- Print the report on all teams, and possibly fail when a team fails. -/
  | slo (check : Bool)
  | notify (debugChannel : Option String) (people : Bool)
  deriving DecidableEq, Repr

structure Arguments where
  verbose : Bool := false
  json : Bool := false
  org : OrgSettings
  bugzillaEndpoint : String
  tracker : TrackerSettings
  ci : CiSettings
  slack : SlackSettings
  command : Command

def globalOptions : List Opt := [
  { name := "verbose", letter := some 'v' },
  { name := "json" },
  { name := "org-data-url", takes := .text, envName := some "TRIAGE_ORG_DATA_URL" },
  { name := "team-data", takes := .path, envName := some "TRIAGE_TEAM_DATA" },
  { name := "team-override", takes := .path, envName := some "TRIAGE_TEAM_OVERRIDE" },
  { name := "bugzilla-endpoint", takes := .text, envName := some "BUGZILLA_ENDPOINT" },
  { name := "bugzilla-key", takes := .path, envName := some "BUGZILLA_KEY_FILE" },
  { name := "test-bug-data", takes := .path, envName := some "TRIAGE_TEST_BUG_DATA" },
  { name := "ci-url", takes := .text, envName := some "TRIAGE_CI_URL" },
  { name := "slack-token-file", takes := .path, envName := some "SLACK_TOKEN_FILE" }]

def commandOptions (command : String) : List Opt :=
  if command = "bugs-per-team" then
    [{ name := "target-release", takes := .texts }, { name := "severity", takes := .texts }]
  else if command = "slo" then [{ name := "check" }]
  else if command = "notify" then
    [{ name := "debug" }, { name := "debug-channel", takes := .text }, { name := "no-people" }]
  else []

def commandNames : List String :=
  ["teams", "classify", "lint", "bugs-per-team", "bugs-to-teams", "sprint-stats", "slo", "notify"]

def grammar : Grammar where
  options := globalOptions
  commands := commandNames
  hasVersion := true

def commandGrammar (command : String) : Grammar where
  options := globalOptions ++ commandOptions command
  operands := if command = "classify" then 2 else 0

def defaultSeverities : List String := ["medium", "high", "urgent", "unspecified"]

def Command.ofGiven (name : String) (g : Given) : Except Stop Command :=
  if name = "teams" then .ok .teams
  else if name = "classify" then
    match g.operands with
    | [] => .error .usage
    | component :: rest => .ok (.classify component (rest.headD ""))
  else if name = "lint" then .ok .lint
  else if name = "bugs-per-team" then
    .ok (.bugsPerTeam (splitTexts (g.values "target-release"))
      (if g.has "severity" then splitTexts (g.values "severity") else defaultSeverities))
  else if name = "bugs-to-teams" then .ok .bugsToTeams
  else if name = "sprint-stats" then .ok .sprintStats
  else if name = "slo" then .ok (.slo (g.has "check"))
  else if name = "notify" then
    .ok (.notify
      (if g.has "debug" then some ((g.values "debug-channel").headD "#triage-debug") else none)
      (!g.has "no-people"))
  else .error .usage

def value? (env : Environment) (before behind : Given) (name : String) : Option String :=
  (behind.values name).head?.or ((before.values name).head?.or
    ((globalOptions.find? (·.name == name)).bind fun o => o.envName.bind env.get?))

def Arguments.ofWords (words : List String) (env : Environment) : Except Stop Arguments := do
  let before ← grammar.read {} none words
  match before.command with
  | none => .error .usage
  | some (name, rest) =>
    let behind ← (commandGrammar name).read {} none rest
    let command ← Command.ofGiven name behind
    (commandGrammar name).checkVariables env behind
    grammar.checkVariables env before
    let value? := value? env before behind
    let endpoint := (value? "bugzilla-endpoint").getD TrackerSettings.defaultEndpoint
    .ok {
      verbose := before.has "verbose" || behind.has "verbose"
      json := before.has "json" || behind.has "json"
      org := {
        url := value? "org-data-url"
        path := value? "team-data"
        overlay := value? "team-override" }
      bugzillaEndpoint := endpoint
      tracker := { TrackerSettings.ofEndpoint endpoint with
        apiKeyFile := value? "bugzilla-key"
        testData := value? "test-bug-data" }
      ci := ⟨(value? "ci-url").getD CiSettings.defaultUrl⟩
      slack := { apiUrl := SlackSettings.defaultApi, tokenFile := value? "slack-token-file" }
      command := command }

end Triage.ReportTool
