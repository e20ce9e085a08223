import Triage.Json.Document
import Triage.Settings.Environment

/-!
# Settings of the tracker

The address of the tracker, the key for it, given directly or in a file, and
possibly a file of bugs to use instead. The key itself is never written.
-/

namespace Triage

structure TrackerSettings where
  endpoint : String
  apiKeyFile : Option String := none
  /-- A key given directly; it wins over a key file. -/
  apiKey : Option String := none
  /-- A file of bugs to use instead of the tracker. -/
  testData : Option String := none
  deriving DecidableEq, Repr

namespace TrackerSettings

def defaultEndpoint : String := "https://bugzilla.redhat.com"

def ofEndpoint (endpoint : String) : TrackerSettings := { endpoint := withoutSlashes endpoint }

def ofEnvironment (env : Environment) : TrackerSettings where
  endpoint := (env.get? "BUGZILLA_ENDPOINT").getD defaultEndpoint
  apiKeyFile := env.get? "BUGZILLA_KEY_FILE"
  testData := env.get? "TRIAGE_TEST_BUG_DATA"

def key (s : TrackerSettings) (fs : Files) : SourceResult (Option String) :=
  match s.apiKey, s.apiKeyFile with
  | some key, _ => .ok (some key)
  | none, some path => (keyFile fs path).map some
  | none, none => .ok none

def toJson (s : TrackerSettings) : Json :=
  .object [("endpoint", .string s.endpoint), ("api_key_file", .ofOption .string s.apiKeyFile),
    ("test_data", .ofOption .string s.testData)]

def ofJson? (v : Json) : Option TrackerSettings := do
  let get ← v.fields? ["endpoint", "api_key_file", "api_key", "test_data"]
  some {
    endpoint := ← Document.required? get "endpoint" Json.text?
    apiKeyFile := ← v.nullable? get "api_key_file" Json.text?
    apiKey := ← v.nullable? get "api_key" Json.text?
    testData := ← v.nullable? get "test_data" Json.text? }

end TrackerSettings

end Triage
