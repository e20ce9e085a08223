import Triage.OrgSource.File
import Triage.OrgSource.Service
import Triage.Settings.Org
import Triage.Tracker.Bugzilla
import Triage.Tracker.File

/-!
# Choosing sources

Settings name several sources of one kind; a file wins over the network.
-/

namespace Triage

open Http

def loadFrom (files : Files) : OrgSource → NetM (SourceResult Directory)
  | .file path overlay => pure ((FileOrgSource.load files path overlay).mapError .config)
  | .service url _ => ServiceOrgSource.load url

/-- The tracker that settings choose. A search over the network takes at most `rounds` pages. -/
def selectTracker (files : Files) (rounds : Nat) (s : TrackerSettings) :
    SourceResult (Tracker NetM) :=
  match s.testData with
  | some path => .ok (FileTracker.tracker (pure files) path)
  | none => (Bugzilla.ofSettings s files).map fun c => c.tracker rounds

end Triage
