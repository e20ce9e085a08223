import Triage.SortedMap
import Triage.Binary.Basic

/-!
# Teams

What a team owns and what it owes. A team owns the components it lists; for a
component it may narrow that down to some subcomponents, or to those that
nobody else lists (`Scope`). An obligation bounds one metric of the team's bug
load.
-/

namespace Triage

inductive Scope where
  /-- Every subcomponent that no other team lists. -/
  | fallback
  | listed (subcomponents : List String)
  deriving DecidableEq, Repr

namespace Scope

def fallbackTag : String := "!!DEFAULT!!"

def contains : Scope → String → Bool
  | fallback, _ => false
  | listed subs, sub => subs.contains sub

/-- The scope a stored list stands for. -/
def ofList (subs : List String) : Scope := if subs = [fallbackTag] then fallback else listed subs

def toList : Scope → List String
  | fallback => [fallbackTag]
  | listed subs => subs

end Scope

structure Obligation where
  count : Binary32 := .zero false
  perMember : Bool := false
  deriving DecidableEq, Repr

structure Team where
  name : String := ""
  slackChannel : String := ""
  lead : String := ""
  managers : List String := []
  group : String := ""
  components : List String := []
  /-- A component without an entry is owned with all its subcomponents. -/
  subcomponents : SortedMap String Scope := .empty
  memberCount : UInt32 := 0
  /-- Obligations that replace those of the organisation, by metric. -/
  slo : SortedMap String Obligation := .empty
  deriving DecidableEq, Repr

namespace Team

def ignoreTag : String := "!!IGNORE!!"

def ownsComponent (t : Team) (component : String) : Bool := t.components.contains component

def isIgnored (t : Team) : Bool := t.components == [ignoreTag]

def withSubcomponents (t : Team) (component : String) (scope : Scope) : Team :=
  { t with subcomponents := t.subcomponents.insert component scope }

def withMembers (t : Team) (n : UInt32) : Team := { t with memberCount := n }

def withObligation (t : Team) (metric : String) (o : Obligation) : Team :=
  { t with slo := t.slo.insert metric o }

private def preferText (new old : String) : String := if new = "" then old else new

private def preferList (new old : List String) : List String := if new = [] then old else new

/-- The team with the non-empty fields of `other` in place of its own. -/
def merge (t other : Team) : Team where
  name := t.name
  slackChannel := preferText other.slackChannel t.slackChannel
  lead := preferText other.lead t.lead
  managers := preferList other.managers t.managers
  group := preferText other.group t.group
  components := preferList other.components t.components
  subcomponents := t.subcomponents.extend other.subcomponents
  memberCount := if other.memberCount = 0 then t.memberCount else other.memberCount
  slo := t.slo.extend other.slo

end Team

end Triage
