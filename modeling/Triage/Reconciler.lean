import Triage.Directory
import Triage.Slo
import Triage.Snapshot
import Triage.Tracker

/-!
# Keeping data fresh

The directory, the bugs and the report on the teams are each held in a snapshot
of their own. A refresh asks a source and, if that succeeds, replaces its
snapshot; a refresh that fails changes nothing.
-/

namespace Triage

inductive Refresh where
  | directory
  | bugs
  | results
  deriving DecidableEq, Repr

/-- Milliseconds between refreshes. -/
structure Intervals where
  directory : Nat := 300000
  bugs : Nat := 300000
  results : Nat := 600000
  deriving DecidableEq, Repr

namespace Intervals

def ofSeconds (directory bugs results : Nat) : Intervals :=
  ⟨directory * 1000, bugs * 1000, results * 1000⟩

def period (i : Intervals) : Refresh → Nat
  | .directory => i.directory
  | .bugs => i.bugs
  | .results => i.results

def nonZero (field : String) (period : Nat) : Except ConfigError Unit :=
  if period = 0 then .error (.invalidValue field "interval must be non-zero") else .ok ()

/-- Refuses an interval of no time; the first such one is named. -/
def validate (i : Intervals) : Except ConfigError Unit := do
  nonZero "directory" i.directory
  nonZero "bugs" i.bugs
  nonZero "results" i.results

end Intervals

structure Sources (m : Type → Type) where
  org : m (SourceResult Directory)
  tracker : Tracker m
  ci : String → m (SourceResult PassRates)

structure Reconciler where
  query : BugQuery
  directory : Snapshot Directory
  bugs : Snapshot BugSet
  results : Snapshot Slo.Report := .initial ⟨.empty⟩
  /-- The generation of the report that was announced last. -/
  published : Nat := 0

namespace Reconciler

variable {m : Type → Type} [Monad m]

/-- Loads the directory and the bugs, in this order. -/
def bootstrap (s : Sources m) (query : BugQuery) : m (SourceResult Reconciler) := do
  match ← s.org with
  | .error e => return .error e
  | .ok directory =>
    match ← s.tracker.search query with
    | .error e => return .error e
    | .ok bugs => return .ok {
        query := query
        directory := .initial directory
        bugs := .initial bugs }

/-- What comes of a directory that was fetched: its generation, and what is held then. -/
def acceptDirectory (r : Reconciler) : SourceResult Directory → SourceResult Nat × Reconciler
  | .error e => (.error e, r)
  | .ok d =>
    let fresh := r.directory.replace d
    (.ok fresh.generation, { r with directory := fresh })

def acceptBugs (r : Reconciler) : SourceResult BugSet → SourceResult Nat × Reconciler
  | .error e => (.error e, r)
  | .ok bugs =>
    let fresh := r.bugs.replace bugs
    (.ok fresh.generation, { r with bugs := fresh })

/-- The report on what is held, which is then announced. -/
def acceptRates (r : Reconciler) (version : String) :
    SourceResult PassRates → SourceResult Nat × Reconciler
  | .error e => (.error e, r)
  | .ok rates =>
    let fresh := r.results.replace (Slo.report r.directory.value r.bugs.value version rates)
    (.ok fresh.generation, { r with results := fresh, published := fresh.generation })

def refreshDirectory (s : Sources m) (r : Reconciler) : m (SourceResult Nat × Reconciler) := do
  return r.acceptDirectory (← s.org)

def refreshBugs (s : Sources m) (r : Reconciler) : m (SourceResult Nat × Reconciler) := do
  return r.acceptBugs (← s.tracker.search r.query)

/-- Asks for the pass rates of the directory's current version, if it has one. -/
def refreshResults (s : Sources m) (r : Reconciler) : m (SourceResult Nat × Reconciler) :=
  match r.directory.value.currentVersion with
  | .error e => return (.error (.config e), r)
  | .ok version => do return r.acceptRates version (← s.ci version)

def refresh (s : Sources m) : Refresh → Reconciler → m (SourceResult Nat × Reconciler)
  | .directory => refreshDirectory s
  | .bugs => refreshBugs s
  | .results => refreshResults s

/-- Refreshes in the given order up to the first that fails; the answer is the last one's. -/
def refreshEach (s : Sources m) (last : SourceResult Nat) :
    List Refresh → Reconciler → m (SourceResult Nat × Reconciler)
  | [], r => return (last, r)
  | kind :: rest, r => do
    match ← refresh s kind r with
    | (.error e, r) => return (.error e, r)
    | (.ok generation, r) => refreshEach s (.ok generation) rest r

/-- A whole round: the directory, the bugs and the report on both. -/
def runOnce (s : Sources m) (r : Reconciler) : m (SourceResult Nat × Reconciler) :=
  refreshEach s (.ok r.results.generation) [.directory, .bugs, .results] r

end Reconciler

end Triage
