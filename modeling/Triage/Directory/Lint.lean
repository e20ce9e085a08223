import Triage.Directory

/-!
# Ambiguous claims

Components whose ownership depends on the order of the teams. Findings are
advisory: a directory with findings still has one owner for every pair.

A team that lists a component twice counts as claiming it twice.
-/

namespace Triage

inductive Finding.Kind where
  /-- Several teams own the whole component. -/
  | sharedComponent
  /-- A team that owns the whole component hides teams that own parts of it. -/
  | shadowedSubcomponents
  /-- There is more than one fallback owner. -/
  | multipleFallbacks
  /-- Several teams list the subcomponent. -/
  | duplicateSubcomponent (subcomponent : String)
  deriving DecidableEq, Repr

structure Finding where
  component : String
  kind : Finding.Kind
  teams : List String
  deriving DecidableEq, Repr

namespace Finding

def text (f : Finding) : String :=
  let teams := String.intercalate ", " f.teams
  let component := Text.quoted f.component
  match f.kind with
  | .sharedComponent => "component " ++ component ++ " is owned outright by: " ++ teams
  | .shadowedSubcomponents =>
    "component " ++ component ++ " mixes whole-component and subcomponent owners: " ++ teams
  | .multipleFallbacks => "component " ++ component ++ " has several fallback owners: " ++ teams
  | .duplicateSubcomponent sub =>
    "subcomponent " ++ component ++ "/" ++ Text.quoted sub ++ " is listed by: " ++ teams

end Finding

namespace Directory

/-- The teams that claim each component, in order, once for every time they list it. -/
def claimants (teams : List Team) : SortedMap String (List Team) :=
  teams.foldl (fun acc t => t.components.foldl
    (fun acc c => acc.alter c fun old => old.getD [] ++ [t]) acc) .empty

def outright (component : String) (teams : List Team) : List String :=
  (teams.filter fun t => (t.subcomponents.get? component).isNone).map (·.name)

def fallbacks (component : String) (teams : List Team) : List String :=
  (teams.filter fun t => t.subcomponents.get? component == some .fallback).map (·.name)

def listers (component : String) (teams : List Team) : SortedMap String (List String) :=
  teams.foldl (fun acc t =>
    match t.subcomponents.get? component with
    | some (.listed subs) =>
      subs.foldl (fun acc s => acc.alter s fun old => old.getD [] ++ [t.name]) acc
    | _ => acc) .empty

def lintComponent (component : String) (teams : List Team) : List Finding :=
  let whole := outright component teams
  let backs := fallbacks component teams
  if teams.length < 2 then []
  else
    (if 1 < whole.length then [⟨component, .sharedComponent, whole⟩] else [])
    ++ (if !whole.isEmpty && whole.length < teams.length then
        [⟨component, .shadowedSubcomponents, teams.map (·.name)⟩] else [])
    ++ (if 1 < backs.length then [⟨component, .multipleFallbacks, backs⟩] else [])
    ++ (listers component teams).entries.filterMap fun (sub, owners) =>
      if 1 < owners.length then some ⟨component, .duplicateSubcomponent sub, owners⟩ else none

/-- The findings on every component, in the order of the components. -/
def lint (d : Directory) : List Finding :=
  (claimants d.teams).entries.flatMap fun (component, teams) => lintComponent component teams

end Directory

end Triage
