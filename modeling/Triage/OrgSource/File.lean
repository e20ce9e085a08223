import Triage.Directory
import Triage.Files
import Triage.OrgConfig.Text
import Triage.Source.Error

/-!
# A directory in files

A configuration file, JSON if its name ends so and YAML otherwise, and
possibly a second one that is laid over it.
-/

namespace Triage

namespace FileOrgSource

def formatOf (path : String) : TextFormat :=
  if Path.extension? path = some "json" then .json else .yaml

def config (fs : Files) (path : String) : Except ConfigError OrgConfig := do
  let text ← (fs.readText path).mapError .io
  OrgConfig.ofText (formatOf path) text

def load (fs : Files) (path : String) (overlay : Option String) : Except ConfigError Directory := do
  let base ← config fs path
  match overlay with
  | some overlay => Directory.load (base.merge (← config fs overlay))
  | none => Directory.load base

end FileOrgSource

end Triage
