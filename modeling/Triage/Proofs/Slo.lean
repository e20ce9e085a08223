import Triage.Slo
import Triage.Proofs.BugMap
import Triage.Proofs.Directory.Load

/-!
# Reports agree with a recount

A report is computed from three maps by team, each built from a part of the
bugs. `recount` takes the same values from the bugs themselves, and `permitted`
says which obligation counts. A report holds exactly one result for each team,
and its values are those.
-/

namespace Triage.Slo

variable (d : Directory) (bugs : BugSet) (release : String) (ci : PassRates)

/-- The current value of a metric, counted over the bugs a team owns. -/
def recount (t : Team) : Metric → Int
  | .urgent => (bugs.bugs.countP fun b => d.ownerOf b == t.name && b.severity == "urgent" : Nat)
  | .blocker => (bugs.bugs.countP fun b => d.ownerOf b == t.name && b.isBlocker release : Nat)
  | .pmScore => (bugs.bugs.filter (d.ownerOf · == t.name)).foldl
      (fun acc b => Word.clampInt64 (acc + b.score)) 0
  | .ciFailRate => ci.failRate t.components
  | .total => (bugs.bugs.countP (d.ownerOf · == t.name) : Nat)

/-- What an obligation permits a team of so many members, without the fraction: the
count, or the single precision product of the count and the members if it is for each
member and there are any. -/
def allowance (o : Obligation) (members : UInt32) : Int :=
  match o.perMember, members.toNat with
  | true, n + 1 => (o.count.mul (.ofNat Binary.single (n + 1))).truncate
  | _, _ => o.count.truncate

/-- The allowance of the team's own obligation, else of the organisation's, else zero. -/
def permitted (t : Team) (m : Metric) : Int :=
  match t.slo.get? m.key, d.slo.get? m.key with
  | some own, _ => allowance own t.memberCount
  | none, some shared => allowance shared t.memberCount
  | none, none => 0

-- ---------------------------------------------------------------------------
-- One metric of one team
-- ---------------------------------------------------------------------------

theorem countAll_teamMap_filter (p : Bug → Bool) (k : String) :
    ((bugs.filter p).teamMap d).countAll k =
      bugs.bugs.countP fun b => d.ownerOf b == k && p b := by
  rw [BugMap.countAll, BugSet.bugs_teamMap, BugSet.filter, List.filter_filter,
    List.countP_eq_length_filter]

theorem current_build (t : Team) (m : Metric) :
    current m t (.build d bugs release) ci = recount d bugs release ci t m := by
  cases m with
  | urgent =>
    rw [current, TeamBugMaps.build, BugSet.filterBySeverity, countAll_teamMap_filter, recount]
    simp only [List.contains_cons, List.contains_nil, Bool.or_false]
  | blocker => rw [current, TeamBugMaps.build, BugSet.filterBlocker, countAll_teamMap_filter, recount]
  | pmScore =>
    rw [current, TeamBugMaps.build, BugSet.bugs_teamMap]
    rfl
  | ciFailRate => rfl
  | total =>
    rw [current, TeamBugMaps.build, BugMap.countAll, BugSet.bugs_teamMap, recount,
      List.countP_eq_length_filter]

theorem failRate_congr {ci ci' : PassRates} {components : List String}
    (h : ∀ component ∈ components, ci.get? component = ci'.get? component) :
    ci.failRate components = ci'.failRate components := by
  rw [PassRates.failRate, PassRates.failRate, PassRates.worst, PassRates.worst,
    List.filterMap_congr h]

/-- A recount sees the bugs that the team owns, the rates of its components, and no others. -/
theorem recount_congr {bugs' : BugSet} {ci' : PassRates} {t : Team}
    (h : bugs.bugs.filter (d.ownerOf · == t.name) = bugs'.bugs.filter (d.ownerOf · == t.name))
    (hrates : ∀ component ∈ t.components, ci.get? component = ci'.get? component) (m : Metric) :
    recount d bugs release ci t m = recount d bugs' release ci' t m := by
  have hcount (p : Bug → Bool) :
      bugs.bugs.countP (fun b => d.ownerOf b == t.name && p b) =
        bugs'.bugs.countP (fun b => d.ownerOf b == t.name && p b) := by
    simp only [Bool.and_comm _ (p _), ← List.countP_filter, h]
  cases m with
  | urgent => simp only [recount, hcount]
  | blocker => simp only [recount, hcount]
  | pmScore => simp only [recount, h]
  | ciFailRate => simp only [recount, failRate_congr hrates]
  | total => simp only [recount, List.countP_eq_length_filter, h]

theorem scale_eq_allowance (o : Obligation) (members : UInt32) :
    scale o members = allowance o members := by
  have hzero : members = 0 ↔ members.toNat = 0 := UInt32.toNat_inj.symm
  rw [scale, allowance]
  cases o.perMember with
  | false => rfl
  | true => cases hn : members.toNat <;> simp [hzero, hn]

theorem scale_resolve (t : Team) (m : Metric) :
    scale (resolve d t m) t.memberCount = permitted d t m := by
  rw [scale_eq_allowance, resolve, permitted]
  cases t.slo.get? m.key with
  | some own => rfl
  | none => cases d.slo.get? m.key <;> rfl

-- ---------------------------------------------------------------------------
-- The report
-- ---------------------------------------------------------------------------

variable (maps : TeamBugMaps)

theorem get?_evaluate_eq_some_iff {name : String} {r : Result} :
    (evaluate d maps ci).get? name = some r ↔
      ∃ t ∈ d.teams, t.name = name ∧ r = evaluateTeam d maps ci t := by
  have hnodup : ((d.teams.map fun t => (t.name, evaluateTeam d maps ci t)).map (·.1)).Nodup := by
    rw [List.map_map]
    exact d.names_nodup
  rw [Report.get?, evaluate, SortedMap.get?_ofList_eq_some_iff hnodup, List.mem_map]
  constructor
  · rintro ⟨t, ht, he⟩
    cases he
    exact ⟨t, ht, rfl, rfl⟩
  · rintro ⟨t, ht, rfl, rfl⟩
    exact ⟨t, ht, rfl⟩

theorem evaluateTeam_build_congr {bugs' : BugSet} {ci' : PassRates} {t : Team}
    (h : bugs.bugs.filter (d.ownerOf · == t.name) = bugs'.bugs.filter (d.ownerOf · == t.name))
    (hrates : ∀ component ∈ t.components, ci.get? component = ci'.get? component) :
    evaluateTeam d (.build d bugs release) ci t = evaluateTeam d (.build d bugs' release) ci' t := by
  have hmetric : evaluateMetric d t (.build d bugs release) ci =
      evaluateMetric d t (.build d bugs' release) ci' := by
    funext m
    simp only [evaluateMetric, current_build, recount_congr d bugs release ci h hrates]
  simp only [evaluateTeam, hmetric]

theorem get?_evaluate_of_mem {t : Team} (ht : t ∈ d.teams) :
    (evaluate d maps ci).get? t.name = some (evaluateTeam d maps ci t) :=
  (get?_evaluate_eq_some_iff d ci maps).mpr ⟨t, ht, rfl, rfl⟩

theorem get?_evaluate_build_congr {bugs' : BugSet} {t : Team} (ht : t ∈ d.teams)
    (h : bugs.bugs.filter (d.ownerOf · == t.name) = bugs'.bugs.filter (d.ownerOf · == t.name)) :
    (evaluate d (.build d bugs release) ci).get? t.name =
      (evaluate d (.build d bugs' release) ci).get? t.name := by
  rw [get?_evaluate_of_mem d ci _ ht, get?_evaluate_of_mem d ci _ ht,
    evaluateTeam_build_congr d bugs release ci h fun _ _ => rfl]

theorem size_evaluate : (evaluate d maps ci).size = d.teams.length := by
  have hkeys : (evaluate d maps ci).byTeam.keys.Perm d.order := by
    refine (List.perm_ext_iff_of_nodup (SortedMap.keys_nodup _) d.names_nodup).mpr fun name => ?_
    rw [evaluate, SortedMap.mem_keys_ofList_iff]
    simp
  have := hkeys.length_eq
  simpa [SortedMap.keys, Directory.order, Report.size, SortedMap.size] using this

theorem name_of_mem_evaluate {e : String × Result} (h : e ∈ (evaluate d maps ci).byTeam.entries) :
    e.2.name = e.1 := by
  obtain ⟨t, -, hname, hr⟩ :=
    (get?_evaluate_eq_some_iff d ci maps).mp ((SortedMap.mem_entries_iff _).mp h)
  rw [hr, ← hname]
  rfl

theorem failingTeams_evaluate :
    (evaluate d maps ci).failingTeams =
      ((evaluate d maps ci).byTeam.entries.filter (·.2.failing)).map (·.1) := by
  rw [Report.failingTeams, SortedMap.values, List.filter_map, List.map_map]
  refine List.map_congr_left fun e he => ?_
  exact name_of_mem_evaluate d ci maps (List.mem_filter.mp he).1

theorem failingTeams_sorted : (evaluate d maps ci).failingTeams.Pairwise (· < ·) := by
  rw [failingTeams_evaluate]
  exact (evaluate d maps ci).byTeam.keys_pairwise.sublist (List.filter_sublist.map _)

theorem mem_failingTeams_iff {name : String} :
    name ∈ (evaluate d maps ci).failingTeams ↔
      ∃ r, (evaluate d maps ci).get? name = some r ∧ r.failing = true := by
  rw [failingTeams_evaluate, List.mem_map]
  constructor
  · rintro ⟨e, he, rfl⟩
    obtain ⟨he, hf⟩ := List.mem_filter.mp he
    exact ⟨e.2, (SortedMap.mem_entries_iff _).mp he, hf⟩
  · rintro ⟨r, hr, hf⟩
    exact ⟨(name, r), List.mem_filter.mpr ⟨(SortedMap.mem_entries_iff _).mpr hr, hf⟩, rfl⟩

/-- The report on bugs has one result for each team of the directory and no
other. A result lists the metrics in their order, each with the value that a
recount gives and the obligation that counts for the team; a team fails when it
does not pass some metric, and the failing teams are listed by name. -/
theorem evaluate_build :
    (∀ t ∈ d.teams, ∃ r, (evaluate d (.build d bugs release) ci).get? t.name = some r ∧
      r.name = t.name ∧ r.members = t.memberCount ∧
      r.results.map (·.name) = [.urgent, .blocker, .pmScore, .ciFailRate, .total] ∧
      r.results.map (·.name.key) = ["urgents", "blockers", "pmscore", "ci-fail-rate", "total"] ∧
      (∀ x ∈ r.results, x.current = recount d bugs release ci t x.name ∧
        x.obligation = permitted d t x.name ∧ (x.passed = true ↔ x.current ≤ x.obligation)) ∧
      (r.failing = true ↔ ∃ x ∈ r.results, x.passed = false)) ∧
    (∀ name, name ∉ d.order → (evaluate d (.build d bugs release) ci).get? name = none) ∧
    (evaluate d (.build d bugs release) ci).size = d.teams.length ∧
    (evaluate d (.build d bugs release) ci).failingTeams.Pairwise (· < ·) ∧
    (∀ name, name ∈ (evaluate d (.build d bugs release) ci).failingTeams ↔
      ∃ r, (evaluate d (.build d bugs release) ci).get? name = some r ∧ r.failing = true) := by
  refine ⟨fun t ht => ?_, fun name hname => ?_, size_evaluate d ci _, failingTeams_sorted d ci _,
    fun name => mem_failingTeams_iff d ci _⟩
  · refine ⟨_, (get?_evaluate_eq_some_iff d ci _).mpr ⟨t, ht, rfl, rfl⟩, rfl, rfl, rfl, rfl, ?_, ?_⟩
    · intro x hx
      obtain ⟨m, -, rfl⟩ := List.mem_map.mp hx
      refine ⟨current_build d bugs release ci t m, scale_resolve d t m, ?_⟩
      simp [evaluateMetric]
    · simp [evaluateTeam]
  · cases h : (evaluate d (.build d bugs release) ci).get? name with
    | none => rfl
    | some r =>
      obtain ⟨t, ht, rfl, -⟩ := (get?_evaluate_eq_some_iff d ci _).mp h
      exact absurd (List.mem_map.mpr ⟨t, ht, rfl⟩) hname

/-- One team with members, and one that reports none. Of their obligations some
are for each member, and some have a fraction. -/
def staffedDirectory : Directory where
  title := ""
  teams := [
    { name := "Node", components := ["Node"], memberCount := 3
      slo := .ofList [
        ("urgents", { count := Binary.round Binary.single false 3 2, perMember := true }),
        ("pmscore", { count := Binary.round Binary.single false 79 10 })] },
    { name := "Auth", components := ["Auth"]
      slo := .ofList [
        ("urgents", { count := Binary.round Binary.single false 5 2, perMember := true }),
        ("pmscore", { count := .ofNat Binary.single 1 }),
        ("total", { count := .ofNat Binary.single 1 })] }]
  releases := []
  slo := .ofList [
    ("blockers", { count := .ofNat Binary.single 1, perMember := true }),
    ("ci-fail-rate", { count := .ofNat Binary.single 10 })]
  names_nodup := by decide

theorem evaluate_build_staffed :
    let bugs : BugSet := ⟨[
      { id := 1, components := ["Node"], severity := "urgent", targetReleases := ["4.9.0"]
        reportedScore := some (.string " 7 ") },
      { id := 2, components := ["Auth"], severity := "urgent", targetReleases := ["4.8.z"] },
      { id := 3, components := ["Node"], severity := "low" },
      { id := 4, components := ["Docs"], severity := "urgent" }]⟩
    let ci := PassRates.ofList [("Node", .ofNat Binary.double 88)]
    let report := evaluate staffedDirectory (.build staffedDirectory bugs "4.9.0") ci
    (∃ r, report.get? "Node" = some r ∧
      r.results.map (fun x => (x.current, x.obligation, x.passed)) =
        [(1, 4, true), (1, 3, true), (8, 7, false), (12, 10, false), (2, 0, false)] ∧
      r.failing = true) ∧
    (∃ r, report.get? "Auth" = some r ∧
      r.results.map (fun x => (x.current, x.obligation, x.passed)) =
        [(1, 2, true), (0, 1, true), (1, 1, true), (0, 10, true), (1, 1, true)] ∧
      r.failing = false) ∧
    report.get? "Docs" = none ∧ report.size = 2 ∧ report.failingTeams = ["Node"] := by
  intro bugs ci report
  have hnode : (report.get? "Node").map
      (fun r => (r.results.map fun x => (x.current, x.obligation, x.passed), r.failing)) =
        some ([(1, 4, true), (1, 3, true), (8, 7, false), (12, 10, false), (2, 0, false)], true) := by
    decide +kernel
  have hauth : (report.get? "Auth").map
      (fun r => (r.results.map fun x => (x.current, x.obligation, x.passed), r.failing)) =
        some ([(1, 2, true), (0, 1, true), (1, 1, true), (0, 10, true), (1, 1, true)], false) := by
    decide +kernel
  obtain ⟨hteams, hothers, hsize, -, -⟩ := evaluate_build staffedDirectory bugs "4.9.0" ci
  obtain ⟨node, (hget : report.get? "Node" = some node), -⟩ := hteams _ (List.mem_cons_self ..)
  obtain ⟨auth, (hget' : report.get? "Auth" = some auth), -⟩ :=
    hteams _ (List.mem_cons_of_mem _ (List.mem_singleton_self _))
  rw [hget] at hnode
  rw [hget'] at hauth
  exact ⟨⟨node, hget, Prod.mk.inj (Option.some.inj hnode)⟩,
    ⟨auth, hget', Prod.mk.inj (Option.some.inj hauth)⟩,
    hothers "Docs" (by decide), hsize, by decide +kernel⟩

end Triage.Slo
