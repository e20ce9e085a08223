import Triage.Json.Basic
import Triage.Snapshot

/-!
# Snapshots in JSON
-/

namespace Triage

def Snapshot.toJson (f : α → Json) (publishedAt : String) (s : Snapshot α) : Json :=
  .object [("generation", .ofNat s.generation), ("refreshed_at", .string publishedAt),
    ("value", f s.value)]

end Triage
