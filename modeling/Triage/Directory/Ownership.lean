import Triage.Directory
import Triage.Bug

/-!
# Ownership

Which team owns a component and subcomponent. The first team that claims the
pair outright owns it; failing that, the first fallback owner of the component;
failing that, nobody does.
-/

namespace Triage

inductive Claim where
  | exact
  | fallback
  | none
  deriving DecidableEq, Repr

def unknownTeam : String := "unknown"

namespace Team

def claim (t : Team) (component subcomponent : String) : Claim :=
  if !t.ownsComponent component then .none
  else match t.subcomponents.get? component with
    | .none => .exact
    | some .fallback => .fallback
    | some (.listed subs) => if subs.contains subcomponent then .exact else .none

end Team

def ownerAmong (teams : List Team) (component subcomponent : String) : String :=
  match teams.find? (·.claim component subcomponent == .exact) with
  | some t => t.name
  | none =>
    match teams.find? (·.claim component subcomponent == .fallback) with
    | some t => t.name
    | none => unknownTeam

namespace Directory

/-- The name of the team owning a pair, or the one for unowned bugs. -/
def owner (d : Directory) (component subcomponent : String) : String :=
  ownerAmong d.teams component subcomponent

/-- The name of the team owning a bug, decided by its first component and subcomponent. -/
def ownerOf (d : Directory) (b : Bug) : String := d.owner b.component b.subcomponent

end Directory

end Triage
