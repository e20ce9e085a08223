import Triage.CommandLine.Options
import Triage.Reconciler
import Triage.Text.Digits

/-!
# Arguments of the daemon
-/

namespace Triage.DaemonTool

open CommandLine

structure Arguments where
  verbose : Bool := false
  json : Bool := false
  output : Option String := none
  directory : Nat := 300
  bugs : Nat := 300
  results : Nat := 600
  deriving DecidableEq, Repr

namespace Arguments

def grammar : Grammar where
  options := [
    { name := "verbose", letter := some 'v' },
    { name := "json" },
    { name := "output", letter := some 'o', takes := .path, envName := some "TRIAGE_SLO_OUTPUT" },
    { name := "directory-interval", takes := .text },
    { name := "bugs-interval", takes := .text },
    { name := "results-interval", takes := .text }]
  hasVersion := true

/-- A number of seconds, at least one and at most what fits 64 bits. -/
def seconds? (text : String) : Option Nat :=
  (Text.unsigned? Word.greatest64 text.toList).filter (1 ≤ ·)

def interval (g : Given) (name : String) (default : Nat) : Except Stop Nat :=
  match (g.values name).head? with
  | none => .ok default
  | some text => (seconds? text).elim (.error .usage) .ok

def ofWords (words : List String) (env : Environment) : Except Stop Arguments := do
  let g ← grammar.read {} none words
  grammar.checkVariables env g
  .ok {
    verbose := g.has "verbose"
    json := g.has "json"
    output := (g.values "output").head?.or (env.get? "TRIAGE_SLO_OUTPUT")
    directory := ← interval g "directory-interval" 300
    bugs := ← interval g "bugs-interval" 300
    results := ← interval g "results-interval" 600 }

def intervals (a : Arguments) : Intervals := .ofSeconds a.directory a.bugs a.results

end Arguments

end Triage.DaemonTool
