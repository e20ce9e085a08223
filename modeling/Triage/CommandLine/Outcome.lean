import Triage.CommandLine.Options
import Triage.Source.Error

/-!
# How a program ends

A program prints, and ends well or with a failure. A failure has a message: what
was being done, or else what went wrong.
-/

namespace Triage.CommandLine

inductive Failure where
  /-- Something went wrong with a source, possibly while doing what `context` says. -/
  | source (context : Option String) (cause : SourceError)
  | config (cause : ConfigError)
  | failingTeams (names : List String)
  deriving DecidableEq, Repr

namespace Failure

def causeText (cause : SourceError) : String :=
  match cause with
  | .io _ => "IO error"
  | .http => "HTTP error"
  | .json => "JSON parsing failed"
  | cause => cause.message?.getD "invalid team configuration"

/-- The message, without what led to it. -/
def message : Failure → String
  | source (some context) _ => context
  | source none cause => causeText cause
  | config cause => causeText (.config cause)
  | failingTeams names => "teams failing SLO: " ++ String.intercalate ", " names

end Failure

inductive Outcome where
  | success (stdout : String)
  | failure (stdout : String) (cause : Failure)
  | usage
  | information (stop : Stop)
  | crash
  deriving DecidableEq, Repr

namespace Outcome

def status : Outcome → Nat
  | success _ | information _ => 0
  | failure .. => 1
  | usage => 2
  | crash => 101

def ofStop : Stop → Outcome
  | .usage => .usage
  | stop => .information stop

def stdout : Outcome → String
  | success text | failure text _ => text
  | _ => ""

end Outcome

end Triage.CommandLine
