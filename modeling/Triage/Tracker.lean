import Triage.BugQuery
import Triage.BugSet
import Triage.BugUpdate
import Triage.Source.Error

/-!
# Trackers

Whatever keeps bugs: it finds those that meet a query, gives one by its id and
changes one. `m` says what a call depends on and what it may change.
-/

namespace Triage

structure Tracker (m : Type → Type) where
  /-- Every bug that meets the query. -/
  search : BugQuery → m (SourceResult BugSet)
  /-- One bug; `notFound` when there is none of this id. -/
  getBug : UInt64 → m (SourceResult Bug)
  updateBug : UInt64 → BugUpdate → m (SourceResult Unit)

namespace Tracker

def lift (t : Tracker m) (up : {α : Type} → m α → n α) : Tracker n where
  search q := up (t.search q)
  getBug id := up (t.getBug id)
  updateBug id u := up (t.updateBug id u)

end Tracker

end Triage
