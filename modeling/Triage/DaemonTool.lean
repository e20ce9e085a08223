import Triage.CommandLine.Outcome
import Triage.Daemon
import Triage.DaemonTool.Arguments
import Triage.PassRates.Service
import Triage.Settings.Ci
import Triage.SourceSelection

/-!
# The daemon

Loads the directory and the bugs from the sources that variables name, and serves
reports until a loop fails or the program is interrupted. Files are read as they
are when the daemon starts.
-/

namespace Triage.DaemonTool

open CommandLine Http

def sources (files : Files) (rounds : Nat) (env : Environment) :
    Except Failure (Sources NetM) := do
  let org ← (OrgSettings.ofEnvironment env).source.mapError .config
  let tracker ← (selectTracker files rounds (.ofEnvironment env)).mapError (.source none)
  .ok {
    org := loadFrom files org
    tracker := tracker
    ci := PassRates.fetch (CiSettings.ofEnvironment env).url }

/-- What the clock shows at the start: it counts from when the machine was started. -/
def startOfRun : Nat := 1000

/-- When the daemon is interrupted: once it has written the given file. -/
def isInterrupted (interruptAfter : Option String) (d : Daemon) : Bool :=
  interruptAfter.any fun path => (d.files.read path).isOk

def outcome (d : Daemon) : Outcome :=
  match d.stopped with
  | some e => .failure "" (.source (some "Reconciliation stopped") e)
  | none => .success ""

def serve (s : Sources NetM) (stamp : String) (interruptAfter : Option String) (limit : Nat)
    (d : Daemon) : NetM Daemon :=
  Daemon.advanceWithin s stamp (fun d => d.stopped.isSome || isInterrupted interruptAfter d)
    Loops.endOfClock limit d

def runArguments (a : Arguments) (s : Sources NetM) (files : Files) (stamp : String)
    (interruptAfter : Option String) (limit : Nat) : NetM (Outcome × Files) := do
  match ← Reconciler.bootstrap s BugQuery.openBugs with
  | .error e => return (.failure "" (.source (some "Initial load failed") e), files)
  | .ok reconciler =>
    match a.intervals.validate with
    | .error e => return (.failure "" (.config e), files)
    | .ok () =>
      match Daemon.start? reconciler a.intervals startOfRun files a.output with
      | none => return (.crash, files)
      | some d => do
        let d ← serve s stamp interruptAfter limit d
        return (outcome d, d.files)

def run (words : List String) (env : Environment) (files : Files) (rounds limit : Nat)
    (stamp : String) (interruptAfter : Option String) : NetM (Outcome × Files) :=
  match Arguments.ofWords words env with
  | .error stop => return (.ofStop stop, files)
  | .ok a =>
    match sources files rounds env with
    | .error cause => return (.failure "" cause, files)
    | .ok s => runArguments a s files stamp interruptAfter limit

end Triage.DaemonTool
