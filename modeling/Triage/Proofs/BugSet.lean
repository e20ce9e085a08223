import Triage.Proofs.Slo

/-!
# Filters in a row

Every filter keeps the bugs that meet a condition (`BugFilter.Holds`), so filters
in a row keep in one pass those that meet all the conditions, in whatever order
the filters stand. Grouping what was filtered by team and filtering what was
grouped come to the same, bucket by bucket.
-/

namespace Triage

inductive BugFilter where
  | severity (severities : List String)
  | targetRelease (targets : List String)
  | status (statuses : List String)
  | flag (name : String) (wanted : Option String)
  | blocker (release : String)
  | teams (d : Directory) (names : List String)

namespace BugFilter

def apply : BugFilter → BugSet → BugSet
  | severity severities, s => s.filterBySeverity severities
  | targetRelease targets, s => s.filterByTargetRelease targets
  | status statuses, s => s.filterByStatus statuses
  | flag name wanted, s => s.filterByFlag name wanted
  | blocker release, s => s.filterBlocker release
  | teams d names, s => s.filterByTeams d names

def Holds : BugFilter → Bug → Prop
  | severity severities, b => b.severity ∈ severities
  | targetRelease targets, b => b.targetRelease ∈ targets
  | status statuses, b => b.status ∈ statuses
  | flag name wanted, b => ∃ f ∈ b.flags, f.name = name ∧ ∀ s ∈ wanted, f.status = s
  | blocker release, b => b.severity ≠ "low" ∧
      (b.targetRelease = Bug.unsetTargetRelease ∨ b.targetRelease = release)
  | teams d names, b => d.ownerOf b ∈ names

instance (f : BugFilter) (b : Bug) : Decidable (f.Holds b) := by
  cases f <;> unfold Holds <;> infer_instance

end BugFilter

namespace BugSet

theorem filter_congr (s : BugSet) {p q : Bug → Bool} (h : ∀ b, p b = q b) :
    s.filter p = s.filter q :=
  congrArg s.filter (funext h)

theorem filter_eq_of_iff (s : BugSet) {p : Bug → Bool} {P : Bug → Prop} [DecidablePred P]
    (h : ∀ b, p b = true ↔ P b) : s.filter p = s.filter (P ·) :=
  s.filter_congr fun b => Bool.eq_iff_iff.mpr ((h b).trans decide_eq_true_iff.symm)

theorem filter_filter (s : BugSet) (p q : Bug → Bool) :
    (s.filter p).filter q = s.filter fun b => p b && q b := by
  simp [filter, List.filter_filter, Bool.and_comm]

theorem apply_eq_filter (f : BugFilter) (s : BugSet) : f.apply s = s.filter (f.Holds ·) := by
  cases f with
  | severity severities => exact s.filter_eq_of_iff fun b => by simp [BugFilter.Holds]
  | targetRelease targets => exact s.filter_eq_of_iff fun b => by simp [BugFilter.Holds]
  | status statuses => exact s.filter_eq_of_iff fun b => by simp [BugFilter.Holds]
  | flag name wanted =>
    refine s.filter_eq_of_iff fun b => ?_
    cases wanted <;> simp [BugFilter.Holds, Bug.hasFlag]
  | blocker release =>
    exact s.filter_eq_of_iff fun b => by simp [BugFilter.Holds, Bug.isBlocker]
  | teams d names => exact s.filter_eq_of_iff fun b => by simp [BugFilter.Holds]

def select (s : BugSet) (filters : List BugFilter) : BugSet :=
  filters.foldl (fun s f => f.apply s) s

theorem select_eq_filter (filters : List BugFilter) (s : BugSet) :
    s.select filters = s.filter fun b => ∀ f ∈ filters, f.Holds b := by
  induction filters generalizing s with
  | nil => simp [select, filter]
  | cons f rest ih =>
    rw [select, List.foldl_cons, ← select, ih, apply_eq_filter, filter_filter]
    simp only [List.forall_mem_cons, Bool.decide_and]

/-- Blockers are the bugs of the release or of none, but for those of low severity. -/
theorem filterBlocker_eq (s : BugSet) (release : String) :
    s.filterBlocker release =
      (s.filterByTargetRelease [release, Bug.unsetTargetRelease]).filter (·.severity != "low") := by
  rw [filterByTargetRelease, filter_filter, filterBlocker]
  refine s.filter_congr fun b => ?_
  rw [Bug.isBlocker, List.contains_cons, List.contains_cons, List.contains_nil, Bool.or_false,
    Bool.and_comm, Bool.or_comm]

-- ---------------------------------------------------------------------------
-- Filtered and grouped
-- ---------------------------------------------------------------------------

theorem keys_teamMap (s s' : BugSet) (d : Directory) : (s.teamMap d).keys = (s'.teamMap d).keys := by
  have hmem (k : String) : k ∈ (s.teamMap d).keys ↔ k ∈ (s'.teamMap d).keys := by
    rw [teamMap, teamMap, BugMap.mem_keys_byTeam_iff, BugMap.mem_keys_byTeam_iff]
  have hperm : (s.teamMap d).keys.Perm (s'.teamMap d).keys :=
    (List.perm_ext_iff_of_nodup (SortedMap.keys_nodup _) (SortedMap.keys_nodup _)).mpr hmem
  exact hperm.eq_of_pairwise (fun a b _ _ hab hba => absurd hab (String.lt_asymm hba))
    (SortedMap.keys_pairwise _) (SortedMap.keys_pairwise _)

theorem countAll_filter_teamMap (s : BugSet) (d : Directory) (p : Bug → Bool) (k : String) :
    ((s.filter p).teamMap d).countAll k = (s.teamMap d).count k p := by
  rw [BugMap.countAll, bugs_teamMap_filter, BugMap.count, List.countP_eq_length_filter]

/-- Filters in whatever order keep, in one pass, the bugs that meet all their
conditions, and so they do in each bucket of the map by team; the maps from which
team reports are made hold the bugs that are counted in the map of all. -/
theorem select_reordered (s : BugSet) {filters filters' : List BugFilter}
    (h : filters'.Perm filters) (d : Directory) (k release : String) :
    s.select filters' = s.filter (fun b => ∀ f ∈ filters, f.Holds b) ∧
    ((s.select filters').teamMap d).keys = (s.teamMap d).keys ∧
    ((s.select filters').teamMap d).bugs k =
      ((s.teamMap d).bugs k).filter (fun b => ∀ f ∈ filters, f.Holds b) ∧
    s.filterBlocker release =
      (s.filterByTargetRelease [release, Bug.unsetTargetRelease]).filter (·.severity != "low") ∧
    (TeamBugMaps.build d s release).urgent.countAll k =
      (TeamBugMaps.build d s release).total.countBySeverityIn k ["urgent"] ∧
    (TeamBugMaps.build d s release).blocker.countAll k =
      (TeamBugMaps.build d s release).total.countBlocker k release := by
  have hselect : s.select filters' = s.filter (fun b => ∀ f ∈ filters, f.Holds b) := by
    rw [select_eq_filter]
    exact s.filter_congr fun b => by simp only [h.mem_iff]
  refine ⟨hselect, keys_teamMap _ _ d, ?_, s.filterBlocker_eq release, ?_, ?_⟩
  · rw [hselect, bugs_teamMap_filter]
  · exact s.countAll_filter_teamMap d _ k
  · exact s.countAll_filter_teamMap d _ k

def nodeDirectory : Directory where
  title := ""
  teams := [{ name := "Node", components := ["Node", "Kubelet"] }]
  releases := []
  slo := .empty
  names_nodup := by decide

def nodeBugs : BugSet where
  bugs := [
    { id := 1, severity := "urgent", components := ["Kubelet"], targetReleases := ["4.8.0"] },
    { id := 2, severity := "low", components := ["Node"], flags := [⟨"blocker", "?"⟩] },
    { id := 3, severity := "urgent", components := ["CI"], flags := [⟨"blocker", "?"⟩] },
    { id := 4, severity := "urgent", components := ["Node"], flags := [⟨"blocker", "?"⟩] }]

theorem select_reordered_urgent :
    let filters := [.severity ["urgent", "high", "urgent"], .flag "blocker" (some "?"),
      .teams nodeDirectory ["Node"]]
    filters.reverse.Perm filters ∧
      nodeBugs.select filters.reverse = nodeBugs.filter (fun b => ∀ f ∈ filters, f.Holds b) ∧
      (nodeBugs.select filters.reverse).ids = [4] ∧
      ((nodeBugs.select filters.reverse).teamMap nodeDirectory).bugs "Node" =
        ((nodeBugs.teamMap nodeDirectory).bugs "Node").filter (fun b => ∀ f ∈ filters, f.Holds b) ∧
      (nodeBugs.filterBlocker "4.9.0").ids = [3, 4] := by
  intro filters
  have hperm : filters.reverse.Perm filters := List.reverse_perm _
  obtain ⟨hselect, -, hbucket, -⟩ := nodeBugs.select_reordered hperm nodeDirectory "Node" "4.9.0"
  exact ⟨hperm, hselect, by decide, hbucket, by decide⟩

end BugSet

end Triage
