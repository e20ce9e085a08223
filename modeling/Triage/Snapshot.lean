/-!
# Snapshots

A published value together with its generation, the number of values published
before it. Whoever holds a snapshot keeps a consistent view while newer ones
replace it. Generations have no bound here; the program counts them in words of 64
bits.
-/

namespace Triage

structure Snapshot (α : Type) where
  generation : Nat
  value : α

namespace Snapshot

def initial (value : α) : Snapshot α := ⟨0, value⟩

def replace (s : Snapshot α) (value : α) : Snapshot α := ⟨s.generation + 1, value⟩

end Snapshot

end Triage
