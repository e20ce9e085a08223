import Triage.Reconciler
import Triage.Tracker.Memory

/-!
# Sources in memory

A directory, bugs and pass rates that are what they were last set to. The
directory and the bugs can be told to fail once; the pass rates, which are the
same for every version, remember for which versions they were asked.
-/

namespace Triage

structure MemorySources where
  directory : Directory
  /-- The text of the failure that the next request for the directory has. -/
  failure : Option String := none
  tracker : MemoryTracker := {}
  rates : PassRates := {}
  requested : List String := []

namespace MemorySources

def org (w : MemorySources) : SourceResult Directory × MemorySources :=
  match w.failure with
  | some body => (.error (.injected body), { w with failure := none })
  | none => (.ok w.directory, w)

def ci (w : MemorySources) (version : String) : SourceResult PassRates × MemorySources :=
  (.ok w.rates, { w with requested := w.requested ++ [version] })

def callTracker (call : StateM MemoryTracker α) (w : MemorySources) : α × MemorySources :=
  let (answer, tracker) := call w.tracker
  (answer, { w with tracker := tracker })

def sources : Sources (StateM MemorySources) where
  org := org
  tracker := MemoryTracker.tracker.lift fun call => callTracker call
  ci := fun version w => w.ci version

end MemorySources

end Triage
