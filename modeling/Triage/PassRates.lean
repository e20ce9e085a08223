import Triage.SortedMap
import Triage.Binary.Basic

/-!
# CI pass rates

The latest pass percentage of each component. A component without one counts as
passing fully.
-/

namespace Triage

structure PassRates where
  byComponent : SortedMap String Binary64 := .empty

namespace PassRates

def full : Binary64 := Binary.ofNat Binary.double 100

def get? (r : PassRates) (component : String) : Option Binary64 := r.byComponent.get? component

def size (r : PassRates) : Nat := r.byComponent.size

def isEmpty (r : PassRates) : Bool := r.byComponent.isEmpty

def ofList (l : List (String × Binary64)) : PassRates := ⟨.ofList l⟩

/-- The lowest rate among components, full when none has one. -/
def worst (r : PassRates) (components : List String) : Binary64 :=
  (components.filterMap r.get?).foldl Binary.least full

def failRate (r : PassRates) (components : List String) : Int :=
  (full.sub (r.worst components)).truncate

end PassRates

end Triage
