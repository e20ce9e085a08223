import Triage.Error
import Triage.Json.Document
import Triage.Json.Reader
import Triage.Settings.Environment
import Triage.Settings.Timeout

/-!
# Settings of the team data

Team data comes from a file, possibly with a second one laid over it, or from a
service. Reading a timeout of `2 ^ 64` seconds or more does not end in an error
but in a crash, as soon as the timeout is reached in the text.
-/

namespace Triage

structure OrgSettings where
  url : Option String := none
  path : Option String := none
  /-- A file laid over the one at `path`. -/
  overlay : Option String := none
  timeout : Timeout := .ofSeconds 2
  deriving DecidableEq, Repr

inductive OrgSource where
  | file (path : String) (overlay : Option String)
  | service (url : String) (timeout : Timeout)
  deriving DecidableEq, Repr

inductive SettingsOutcome (α : Type) where
  | ok (settings : α)
  | invalid
  | crash
  deriving DecidableEq, Repr

namespace OrgSettings

def ofFile (path : String) : OrgSettings := { path := some path }

def ofUrl (url : String) : OrgSettings := { url := some url }

def ofEnvironment (env : Environment) : OrgSettings where
  url := env.get? "TRIAGE_ORG_DATA_URL"
  path := env.get? "TRIAGE_TEAM_DATA"
  overlay := env.get? "TRIAGE_TEAM_OVERRIDE"

/-- The source that is chosen; a file wins over the service. -/
def source (s : OrgSettings) : Except ConfigError OrgSource :=
  match s.path, s.url with
  | some path, _ => .ok (.file path s.overlay)
  | none, some url => .ok (.service url s.timeout)
  | none, none => .error (.missingField "url or path" "team data source")

def toJson (s : OrgSettings) : Json :=
  .object [("url", .ofOption .string s.url), ("path", .ofOption .string s.path),
    ("overlay", .ofOption .string s.overlay), ("timeout", .ofDouble s.timeout.toDouble)]

def fieldNames : List String := ["url", "path", "overlay", "timeout"]

def readWith? (v : Json) (timeout : (String → Option Json) → Option Timeout) :
    Option OrgSettings := do
  let get ← v.fields? fieldNames
  some {
    url := ← v.nullable? get "url" Json.text?
    path := ← v.nullable? get "path" Json.text?
    overlay := ← v.nullable? get "overlay" Json.text?
    timeout := ← timeout get }

def ofJson? (v : Json) : Option OrgSettings :=
  readWith? v fun get => Document.required? get "timeout" fun t => t.double?.bind Timeout.ofDouble?

/-- The record up to its timeout, and the timeout. -/
def untilTimeout? : Json → Option (Json × Json)
  | .object members =>
    match members.dropWhile (·.1 != "timeout") with
    | (_, t) :: _ => some (.object (members.takeWhile (·.1 != "timeout")), t)
    | [] => none
  | .array items => items[3]?.map fun t => (.array (items.take 3), t)
  | _ => none

/-- Whether a timeout that is too long is reached before anything else is wrong. -/
def overflows (v : Json) : Bool :=
  match untilTimeout? v with
  | some (before, t) =>
    (t.double?.any fun x => (Timeout.ofDouble? x).isNone)
      && (readWith? before fun _ => some ⟨0⟩).isSome
  | none => false

/-- Settings are read part by part: a timeout that is too long shows before anything that
follows it is looked at. -/
def ofText (text : String) : SettingsOutcome OrgSettings :=
  if (Json.readStart? text).any overflows then .crash
  else ((Json.read? text).bind ofJson?).elim .invalid .ok

end OrgSettings

end Triage
