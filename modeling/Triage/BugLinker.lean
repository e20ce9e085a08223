import Triage.Text.Blank
import Triage.Text.Digits

/-!
# Links to lists of bugs
-/

namespace Triage

structure BugLinker where
  endpoint : String
  deriving DecidableEq, Repr

namespace BugLinker

/-- Slashes at the end of the address are dropped. -/
def ofEndpoint (endpoint : String) : BugLinker := ⟨Text.trimEnd (· == '/') endpoint⟩

def joinIds (ids : List UInt64) : String :=
  String.intercalate "%2C" (ids.map fun id => String.ofList (Text.digits id.toNat))

def url (l : BugLinker) (ids : List UInt64) : String :=
  l.endpoint ++ "/buglist.cgi?f1=bug_id&o1=anyexact&v1=" ++ joinIds ids

def link (l : BugLinker) (text : String) (ids : List UInt64) : String :=
  "<" ++ l.url ids ++ "|" ++ text ++ ">"

end BugLinker

end Triage
