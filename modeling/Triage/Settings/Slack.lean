import Triage.Json.Document
import Triage.Settings.Environment

/-!
# Settings of the chat service

The address of the service, the token for it, and where messages go when they
are not to reach anybody. The token itself is never written.
-/

namespace Triage

structure SlackSettings where
  apiUrl : String
  tokenFile : Option String := none
  /-- A token given directly; it wins over a token file. -/
  token : Option String := none
  debugChannel : String := "#triage-debug"
  debug : Bool := false
  /-- The chat address of people whose tracker address is another one. -/
  emailAliases : SortedMap String String := .empty
  deriving DecidableEq

namespace SlackSettings

def defaultApi : String := "https://slack.com/api"

def ofToken (apiUrl token : String) : SlackSettings :=
  { apiUrl := withoutSlashes apiUrl, token := some token }

def ofEnvironment (env : Environment) : SlackSettings where
  apiUrl := defaultApi
  tokenFile := env.get? "SLACK_TOKEN_FILE"

def withDebug (s : SlackSettings) (channel : String) : SlackSettings :=
  { s with debug := true, debugChannel := channel }

def withAlias (s : SlackSettings) (tracker chat : String) : SlackSettings :=
  { s with emailAliases := s.emailAliases.insert tracker chat }

def resolveToken (s : SlackSettings) (fs : Files) : SourceResult String :=
  match s.token, s.tokenFile with
  | some token, _ => .ok token
  | none, some path => keyFile fs path
  | none, none => .error (.chat "no Slack token configured")

def toJson (s : SlackSettings) : Json :=
  .object [("api_url", .string s.apiUrl), ("token_file", .ofOption .string s.tokenFile),
    ("debug_channel", .string s.debugChannel), ("debug", .bool s.debug),
    ("email_aliases", .ofMap .string s.emailAliases)]

def ofJson? (v : Json) : Option SlackSettings := do
  let get ← v.fields? ["api_url", "token_file", "token", "debug_channel", "debug", "email_aliases"]
  some {
    apiUrl := ← Document.required? get "api_url" Json.text?
    tokenFile := ← v.nullable? get "token_file" Json.text?
    token := ← v.nullable? get "token" Json.text?
    debugChannel := ← Document.required? get "debug_channel" Json.text?
    debug := ← Document.required? get "debug" Json.flag?
    emailAliases := ← Document.defaulted? get "email_aliases" .empty (Document.map? Json.text?) }

end SlackSettings

end Triage
