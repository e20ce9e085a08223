import Triage.Notification
import Triage.Proofs.BugMap
import Triage.Proofs.Directory.Load
import Triage.Proofs.Slo

/-!
# Bugs that no team claims

Such bugs are filed under a name of their own, which a directory may also give
to a team. The bucket of any other team holds bugs that the team claims, so its
result and its report are what they would be without the unclaimed bugs; a team
of that name shares its bucket with them.
-/

namespace Triage

namespace Directory

def claimed (d : Directory) (bugs : BugSet) : BugSet :=
  bugs.filter fun b => d.teams.any fun t => t.claim b.component b.subcomponent != .none

variable (d : Directory) {t : Team}

/-- Who owns a bug under the name of a team: the team itself, or nobody. -/
theorem claim_or_unclaimed_of_ownerOf_eq (ht : t ∈ d.teams) {b : Bug} (h : d.ownerOf b = t.name) :
    t.claim b.component b.subcomponent ≠ .none ∨
      (t.name = unknownTeam ∧ Unclaimed d.teams b.component b.subcomponent) := by
  rcases ownerAmong_cases d.teams b.component b.subcomponent with ⟨u, hu, hname, hclaim⟩ | hnone
  · have hsame : u = t := d.eq_of_name_eq hu ht (hname.trans h)
    exact .inl (hsame ▸ hclaim)
  · exact .inr ⟨h.symm.trans hnone.1, hnone.2⟩

theorem filter_ownerOf_claimed (ht : t ∈ d.teams) (hname : t.name ≠ unknownTeam) (bugs : BugSet) :
    (d.claimed bugs).bugs.filter (d.ownerOf · == t.name) =
      bugs.bugs.filter (d.ownerOf · == t.name) := by
  rw [claimed, BugSet.filter, List.filter_filter]
  refine List.filter_congr fun b _ => ?_
  by_cases howner : d.ownerOf b = t.name
  · rcases d.claim_or_unclaimed_of_ownerOf_eq ht howner with hclaim | ⟨hunknown, -⟩
    · have hany : (d.teams.any fun t => t.claim b.component b.subcomponent != .none) = true :=
        List.any_eq_true.mpr ⟨t, ht, by simpa using hclaim⟩
      rw [hany, Bool.and_true]
    · exact absurd hunknown hname
  · have hother : (d.ownerOf b == t.name) = false := by simpa using howner
    rw [hother, Bool.false_and]

theorem bugs_teamMap_claimed (ht : t ∈ d.teams) (hname : t.name ≠ unknownTeam) (bugs : BugSet) :
    ((d.claimed bugs).teamMap d).bugs t.name = (bugs.teamMap d).bugs t.name := by
  rw [BugSet.bugs_teamMap, BugSet.bugs_teamMap, d.filter_ownerOf_claimed ht hname]

/-- A bug in the bucket of a team is one that the team claims or, if the team
bears the name for unowned bugs, one that nobody claims. The result and the
report of a team with another name take no account of unclaimed bugs. -/
theorem claim_of_mem_bucket (bugs : BugSet) (ht : t ∈ d.teams) :
    (∀ b ∈ (bugs.teamMap d).bugs t.name,
      (t.claim b.component b.subcomponent = .exact ∨
        t.claim b.component b.subcomponent = .fallback) ∨
      (t.name = unknownTeam ∧ Unclaimed d.teams b.component b.subcomponent)) ∧
    (t.name ≠ unknownTeam →
      (∀ release ci, (Slo.evaluate d (.build d bugs release) ci).get? t.name =
        (Slo.evaluate d (.build d (d.claimed bugs) release) ci).get? t.name) ∧
      Notification.isReported (bugs.teamMap d) t =
        Notification.isReported ((d.claimed bugs).teamMap d) t ∧
      ∀ links release, Notification.teamReport (bugs.teamMap d) links release t =
        Notification.teamReport ((d.claimed bugs).teamMap d) links release t) := by
  refine ⟨fun b hb => ?_, fun hname => ⟨fun release ci => ?_, ?_, fun links release => ?_⟩⟩
  · have howner := ((BugMap.byTeam_groups d bugs.bugs).mem_bugs_iff.mp hb).2
    refine (d.claim_or_unclaimed_of_ownerOf_eq ht howner).imp_left fun hclaim => ?_
    cases h : t.claim b.component b.subcomponent with
    | exact => exact .inl rfl
    | fallback => exact .inr rfl
    | none => exact absurd h hclaim
  · exact Slo.get?_evaluate_build_congr d bugs release ci ht
      (d.filter_ownerOf_claimed ht hname bugs).symm
  · rw [Notification.isReported, Notification.isReported, d.bugs_teamMap_claimed ht hname]
  · rw [Notification.teamReport, Notification.teamReport, d.bugs_teamMap_claimed ht hname]

def nodeTeam : Team where
  name := "Node"
  components := ["Node"]
  subcomponents := SortedMap.empty.insert "Node" .fallback

def clashingConfig : OrgConfig where
  teams := [nodeTeam, { name := unknownTeam, components := ["Docs"] }]

def clashingDirectory : Directory where
  title := ""
  teams := clashingConfig.teams
  releases := []
  slo := .empty
  names_nodup := by decide

def clashingBugs : BugSet := ⟨[{ id := 1, components := ["Node"] }, { id := 2, components := ["CI"] }]⟩

theorem claim_of_mem_bucket_nodeTeam :
    nodeTeam ∈ clashingDirectory.teams ∧ nodeTeam.name ≠ unknownTeam ∧
      ((clashingBugs.teamMap clashingDirectory).bugs nodeTeam.name).map (·.id) = [1] ∧
      (∀ b ∈ (clashingBugs.teamMap clashingDirectory).bugs nodeTeam.name,
        nodeTeam.claim b.component b.subcomponent = .exact ∨
          nodeTeam.claim b.component b.subcomponent = .fallback) ∧
      (Slo.evaluate clashingDirectory (.build clashingDirectory clashingBugs "4.9.0") {}).get?
          nodeTeam.name =
        (Slo.evaluate clashingDirectory
          (.build clashingDirectory (clashingDirectory.claimed clashingBugs) "4.9.0") {}).get?
          nodeTeam.name := by
  have hmem : nodeTeam ∈ clashingDirectory.teams := List.mem_cons_self
  have hname : nodeTeam.name ≠ unknownTeam := by decide
  obtain ⟨hclaims, hsame⟩ := clashingDirectory.claim_of_mem_bucket clashingBugs hmem
  refine ⟨hmem, hname, by decide, fun b hb => ?_, (hsame hname).1 "4.9.0" {}⟩
  exact (hclaims b hb).resolve_right fun h => hname h.1

/-- A bug that nobody claims is filed under a team, and counted against it. -/
theorem bucket_unknownTeam_unclaimed :
    load clashingConfig = .ok clashingDirectory ∧
      (∃ t ∈ clashingDirectory.teams, ∃ b ∈ (clashingBugs.teamMap clashingDirectory).bugs t.name,
        t.claim b.component b.subcomponent = .none) ∧
      unknownTeam ∈ (Slo.evaluate clashingDirectory
        (.build clashingDirectory clashingBugs "4.9.0") {}).failingTeams := by
  decide

end Directory

end Triage
