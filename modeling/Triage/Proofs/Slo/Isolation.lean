import Triage.Proofs.Slo

/-!
# Results of one team

Of all the bugs and all the pass rates, the result of a team depends on the bugs
that the team owns and on the rates of its components alone. The bugs of other
teams, those that nobody owns and the rates of other components may be anything;
they neither change a value of the team nor whether it is listed as failing.
-/

namespace Triage.Slo

section Isolation

variable {d : Directory} {t : Team} {bugs bugs' : BugSet} {ci ci' : PassRates}

theorem owned_filter_congr
    (h : bugs.bugs.filter (d.ownerOf · == t.name) = bugs'.bugs.filter (d.ownerOf · == t.name))
    (p : Bug → Bool) :
    (bugs.filter p).bugs.filter (d.ownerOf · == t.name) =
      (bugs'.filter p).bugs.filter (d.ownerOf · == t.name) := by
  simp only [BugSet.filter, List.filter_filter, Bool.and_comm _ (p _)]
  simp only [← List.filter_filter, h]

theorem mem_failingTeams_iff_of_mem (maps : TeamBugMaps) (ht : t ∈ d.teams) :
    t.name ∈ (evaluate d maps ci).failingTeams ↔ (evaluateTeam d maps ci t).failing = true := by
  simp [mem_failingTeams_iff, get?_evaluate_of_mem d ci maps ht]

theorem report_congr (ht : t ∈ d.teams)
    (hbugs : bugs.bugs.filter (d.ownerOf · == t.name) = bugs'.bugs.filter (d.ownerOf · == t.name))
    (hrates : ∀ component ∈ t.components, ci.get? component = ci'.get? component)
    (version : String) :
    (report d bugs version ci).get? t.name = (report d bugs' version ci').get? t.name := by
  have hcounting := owned_filter_congr hbugs fun b => onEngineeringStatuses.contains b.status
  rw [report, report, get?_evaluate_of_mem d ci _ ht, get?_evaluate_of_mem d ci' _ ht]
  exact congrArg some (evaluateTeam_build_congr d _ _ ci hcounting hrates)

/-- Evaluations that agree on the bugs a team owns and on the rates of its
components give it one and the same result, and list it as failing alike. -/
theorem evaluate_isolated (ht : t ∈ d.teams)
    (hbugs : bugs.bugs.filter (d.ownerOf · == t.name) = bugs'.bugs.filter (d.ownerOf · == t.name))
    (hrates : ∀ component ∈ t.components, ci.get? component = ci'.get? component)
    (release : String) :
    (∃ r, (evaluate d (.build d bugs release) ci).get? t.name = some r ∧
      (evaluate d (.build d bugs' release) ci').get? t.name = some r ∧
      (t.name ∈ (evaluate d (.build d bugs release) ci).failingTeams ↔ r.failing = true) ∧
      (t.name ∈ (evaluate d (.build d bugs' release) ci').failingTeams ↔ r.failing = true)) ∧
    ∀ version, (report d bugs version ci).get? t.name = (report d bugs' version ci').get? t.name := by
  have hsame := evaluateTeam_build_congr d bugs release ci hbugs hrates
  refine ⟨⟨_, get?_evaluate_of_mem d ci _ ht, ?_, mem_failingTeams_iff_of_mem _ ht, ?_⟩,
    report_congr ht hbugs hrates⟩
  · rw [hsame]
    exact get?_evaluate_of_mem d ci' _ ht
  · rw [hsame]
    exact mem_failingTeams_iff_of_mem _ ht

end Isolation

def guardedTeam : Team where
  name := "Node"
  components := ["Node", "Kubelet"]
  memberCount := 2
  slo := SortedMap.empty.insert "urgents" { count := Binary.ofNat Binary.single 1, perMember := true }

def guardedDirectory : Directory where
  title := ""
  teams := [{ name := "Auth", components := ["Auth"] }, guardedTeam]
  releases := []
  slo := SortedMap.empty.insert "total" { count := Binary.ofNat Binary.single 3 }
  names_nodup := by decide

def crowdedBugs : BugSet where
  bugs := [
    { id := 1, severity := "urgent", status := "NEW", components := ["Kubelet"] },
    { id := 2, severity := "urgent", status := "NEW", components := ["Auth"] },
    { id := 3, severity := "low", status := "POST", components := ["Node"] }]

def quietBugs : BugSet where
  bugs := [
    { id := 1, severity := "urgent", status := "NEW", components := ["Kubelet"] },
    { id := 3, severity := "low", status := "POST", components := ["Node"] },
    { id := 4, severity := "urgent", status := "NEW", components := ["CI"] }]

theorem evaluate_isolated_guarded :
    let ci := PassRates.ofList [("Node", Binary.ofNat Binary.double 80),
      ("Auth", Binary.ofNat Binary.double 5)]
    let ci' := PassRates.ofList [("Node", Binary.ofNat Binary.double 80)]
    guardedTeam ∈ guardedDirectory.teams ∧
      crowdedBugs.bugs.filter (guardedDirectory.ownerOf · == guardedTeam.name) =
        quietBugs.bugs.filter (guardedDirectory.ownerOf · == guardedTeam.name) ∧
      (∀ component ∈ guardedTeam.components, ci.get? component = ci'.get? component) ∧
      (∃ r, (evaluate guardedDirectory (.build guardedDirectory crowdedBugs "4.9.0") ci).get?
          guardedTeam.name = some r ∧
        (evaluate guardedDirectory (.build guardedDirectory quietBugs "4.9.0") ci').get?
          guardedTeam.name = some r ∧
        r.results.map (·.current) = [1, 1, 2, 20, 2] ∧ r.failing = true) ∧
      (evaluate guardedDirectory (.build guardedDirectory crowdedBugs "4.9.0") ci).failingTeams ≠
        (evaluate guardedDirectory (.build guardedDirectory quietBugs "4.9.0") ci').failingTeams := by
  intro ci ci'
  have hmem : guardedTeam ∈ guardedDirectory.teams := by decide
  have hbugs : crowdedBugs.bugs.filter (guardedDirectory.ownerOf · == guardedTeam.name) =
      quietBugs.bugs.filter (guardedDirectory.ownerOf · == guardedTeam.name) := by
    rfl
  have hrates : ∀ component ∈ guardedTeam.components, ci.get? component = ci'.get? component := by
    decide
  obtain ⟨⟨r, hr, hr', -, -⟩, -⟩ := evaluate_isolated hmem hbugs hrates "4.9.0"
  refine ⟨hmem, hbugs, hrates, ⟨r, hr, hr', ?_⟩, by decide⟩
  rw [get?_evaluate_of_mem _ _ _ hmem] at hr
  obtain rfl := Option.some.inj hr
  decide

end Triage.Slo
