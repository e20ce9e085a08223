import Triage.Json.Document
import Triage.Settings.Environment

/-!
# Settings of the CI reports
-/

namespace Triage

structure CiSettings where
  url : String
  deriving DecidableEq, Repr

namespace CiSettings

def defaultUrl : String := "https://sippy.dptools.openshift.org/json"

def ofEnvironment (env : Environment) : CiSettings := ⟨(env.get? "TRIAGE_CI_URL").getD defaultUrl⟩

def toJson (s : CiSettings) : Json := .object [("url", .string s.url)]

def ofJson? (v : Json) : Option CiSettings := do
  let get ← v.fields? ["url"]
  some { url := ← Document.required? get "url" Json.text? }

end CiSettings

end Triage
