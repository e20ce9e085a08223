import Triage.Error
import Triage.Text.Digits

/-!
# What can go wrong with a source

Causes of failure of the external systems from which bugs, teams and pass rates
come and to which messages go.
-/

namespace Triage

inductive Service where
  | bugzilla
  | orgData
  | sippy
  | slack
  /-- The in-memory sources, when told to fail. -/
  | fake
  deriving DecidableEq, Repr

def Service.name : Service → String
  | bugzilla => "bugzilla"
  | orgData => "org-data"
  | sippy => "sippy"
  | slack => "slack"
  | fake => "fake"

inductive SourceError where
  /-- An answer with a status that is not a success. -/
  | unsuccessful (service : Service) (status : Nat) (body : String)
  | notFound (id : UInt64)
  /-- Rate limited twice in a row; the second answer asked to wait this many seconds. -/
  | rateLimited (seconds : Nat)
  /-- No answer, or one that is not in the expected form. -/
  | http
  | json
  | io (cause : IoError)
  | config (cause : ConfigError)
  | chat (text : String)
  deriving DecidableEq, Repr

namespace SourceError

def injected (body : String) : SourceError := .unsuccessful .fake 503 body

private def number (n : Nat) : String := String.ofList (Text.digits n)

def waitingTime (seconds : Nat) : String :=
  if seconds = 0 then "0ns" else number seconds ++ "s"

def message? : SourceError → Option String
  | unsuccessful service status body =>
    some (service.name ++ " returned " ++ number status ++ ": " ++ body)
  | notFound id => some ("bug " ++ number id.toNat ++ " not found")
  | rateLimited seconds => some ("rate limited, retry after " ++ waitingTime seconds)
  | chat text => some ("chat API error: " ++ text)
  | io (.permissionDenied reason) => some reason
  | config cause => cause.message?
  | http | json | io _ => none

end SourceError

abbrev SourceResult (α : Type) := Except SourceError α

end Triage
