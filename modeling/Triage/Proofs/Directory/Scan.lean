import Triage.Proofs.Directory.Ownership

/-!
# Ownership in a single scan

Instead of two searches, one walk over the teams in order decides who owns a
pair: it stops at a team that owns the pair outright and keeps in mind the first
fallback owner that it passes. Both ways give the same name.
-/

namespace Triage

section Scan

variable (component subcomponent : String)

/-- The walk, with the fallback owner met so far. -/
def scanFrom (candidate : Option Team) : List Team → String
  | [] => (candidate.map (·.name)).getD unknownTeam
  | t :: rest =>
    if component ∉ t.components then scanFrom candidate rest
    else match t.subcomponents.get? component with
      | none => t.name
      | some (.listed subs) => if subcomponent ∈ subs then t.name else scanFrom candidate rest
      | some .fallback => scanFrom (candidate.or (some t)) rest

def scan (teams : List Team) : String := scanFrom component subcomponent none teams

variable {component subcomponent} {candidate : Option Team} {t : Team} {rest : List Team}

-- ---------------------------------------------------------------------------
-- One team
-- ---------------------------------------------------------------------------

theorem scanFrom_cons : scanFrom component subcomponent candidate (t :: rest) =
    match t.claim component subcomponent with
    | .exact => t.name
    | .fallback => scanFrom component subcomponent (candidate.or (some t)) rest
    | .none => scanFrom component subcomponent candidate rest := by
  rw [scanFrom, Team.claim, Team.ownsComponent]
  by_cases hc : component ∈ t.components
  · cases hs : t.subcomponents.get? component with
    | none => simp [hc]
    | some scope =>
      cases scope with
      | fallback => simp [hc]
      | listed subs => by_cases hsub : subcomponent ∈ subs <;> simp [hc, hsub]
  · simp [hc]

-- ---------------------------------------------------------------------------
-- All teams
-- ---------------------------------------------------------------------------

theorem scanFrom_eq (candidate : Option Team) (teams : List Team) :
    scanFrom component subcomponent candidate teams =
      (((teams.find? (·.claim component subcomponent == .exact)).or
        (candidate.or (teams.find? (·.claim component subcomponent == .fallback)))).map
          (·.name)).getD unknownTeam := by
  -- The candidate goes before the fallback owners still ahead, and behind any team
  -- that owns the pair outright.
  induction teams generalizing candidate with
  | nil => simp [scanFrom]
  | cons t rest ih =>
    rw [scanFrom_cons, List.find?_cons, List.find?_cons]
    cases t.claim component subcomponent with
    | exact => rfl
    | fallback =>
      refine (ih (candidate.or (some t))).trans ?_
      rw [Option.or_assoc, Option.some_or]
      rfl
    | none => exact ih candidate

end Scan

namespace Directory

theorem owner_eq_scan (d : Directory) (component subcomponent : String) :
    d.owner component subcomponent = scan component subcomponent d.teams := by
  rw [owner, ownerAmong_eq, owningTeam?, scan, scanFrom_eq, Option.none_or]

end Directory

end Triage
