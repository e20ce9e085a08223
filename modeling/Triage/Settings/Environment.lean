import Triage.Files
import Triage.Source.Error
import Triage.Text.Blank

/-!
# Environment and key files

Where settings come from besides their own text: named variables, and files
that hold one secret.
-/

namespace Triage

abbrev Environment := List (String × String)

namespace Environment

def get? (env : Environment) (name : String) : Option String := env.lookup name

end Environment

def keyFile (fs : Files) (path : String) : SourceResult String :=
  ((fs.readText path).mapError .io).map (Text.trimEnd fun c => c = '\r' || c = '\n')

def withoutSlashes (address : String) : String := Text.trimEnd (· = '/') address

end Triage
