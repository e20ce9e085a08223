import Triage.Tracker

/-!
# A tracker in memory

Bugs filed under their ids, the updates made so far, and at most one failure that
the next call is going to have. A call gives its answer and the tracker after
it; a call that fails changes nothing but that it uses the failure up.
-/

namespace Triage

structure MemoryTracker where
  bugs : SortedMap UInt64 Bug := .empty
  /-- The updates made, oldest first. -/
  updates : List (UInt64 × BugUpdate) := []
  failure : Option String := none

namespace MemoryTracker

/-- Replaces all bugs; of bugs with one id the last is kept. -/
def setBugs (t : MemoryTracker) (bugs : List Bug) : MemoryTracker :=
  { t with bugs := .ofList (bugs.map fun b => (b.id, b)) }

def ofBugs (bugs : List Bug) : MemoryTracker := setBugs {} bugs

def failNext (t : MemoryTracker) (body : String) : MemoryTracker := { t with failure := some body }

/-- A call: the pending failure, or else what `answer` gives. -/
def call (t : MemoryTracker) (answer : MemoryTracker → SourceResult α × MemoryTracker) :
    SourceResult α × MemoryTracker :=
  match t.failure with
  | some body => (.error (.injected body), { t with failure := none })
  | none => answer t

def search (t : MemoryTracker) (q : BugQuery) : SourceResult BugSet × MemoryTracker :=
  t.call fun t => (.ok ⟨t.bugs.values.filter q.accepts⟩, t)

def getBug (t : MemoryTracker) (id : UInt64) : SourceResult Bug × MemoryTracker :=
  t.call fun t => ((t.bugs.get? id).elim (.error (.notFound id)) .ok, t)

def updateBug (t : MemoryTracker) (id : UInt64) (u : BugUpdate) :
    SourceResult Unit × MemoryTracker :=
  t.call fun t =>
    match t.bugs.get? id with
    | none => (.error (.notFound id), t)
    | some b =>
      (.ok (), { t with
        bugs := t.bugs.insert id (u.applyTo b)
        updates := t.updates ++ [(id, u)] })

def tracker : Tracker (StateM MemoryTracker) where
  search q t := t.search q
  getBug id t := t.getBug id
  updateBug id u t := t.updateBug id u

end MemoryTracker

end Triage
