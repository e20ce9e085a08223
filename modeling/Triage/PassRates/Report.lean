import Triage.Json.Document
import Triage.Json.Reader
import Triage.PassRates

/-!
# CI reports

A report lists, for each release, the pass percentages of components in named
windows of time. The rates of a release are those of the latest window; a
component without one is left out.
-/

namespace Triage

open Document (required? defaulted?)

namespace PassRates

def latestWindow : String := "latest"

structure ComponentWindows where
  name : String
  windows : SortedMap String Binary64

def readPercentage? (v : Json) : Option Binary64 := do
  let get ← v.fields? ["percentage"]
  required? get "percentage" Json.double?

def ComponentWindows.read? (v : Json) : Option ComponentWindows := do
  let get ← v.fields? ["name", "passRates"]
  some {
    name := ← required? get "name" Json.text?
    windows := ← defaulted? get "passRates" .empty (Document.map? readPercentage?) }

def readRelease? (v : Json) : Option (List ComponentWindows) := do
  let get ← v.fields? ["minimumJobPassRatesByComponent"]
  defaulted? get "minimumJobPassRatesByComponent" [] (Document.list? ComponentWindows.read?)

def ofWindows (components : List ComponentWindows) : PassRates :=
  ofList (components.filterMap fun c => (c.windows.get? latestWindow).map (c.name, ·))

/-- The rates of a version in a report's text, none where it lacks the version.
Every release of the report has to be readable. -/
def ofReport? (text : String) (version : String) : Option PassRates := do
  let releases ← (Json.read? text).bind (Document.map? readRelease?)
  some (ofWindows ((releases.get? version).getD []))

end PassRates

end Triage
