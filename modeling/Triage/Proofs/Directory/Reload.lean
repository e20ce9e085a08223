import Triage.Proofs.Directory.Load
import Triage.Proofs.SortedMap

/-!
# Loading a directory again

The storage form of a loaded directory lists the teams that were kept. It loads
to the same directory again, with the same positions of the teams by name,
exactly when a team was kept: a configuration may list ignored teams only, but
one without any team is refused.
-/

namespace Triage.Directory

-- ---------------------------------------------------------------------------
-- Positions
-- ---------------------------------------------------------------------------

/-- The positions of the kept teams filed under their names while the
configuration is read; `next` is the number of teams kept so far. -/
def fileNames (next : Nat) (filed : SortedMap String Nat) : List Team → SortedMap String Nat
  | [] => filed
  | t :: rest =>
    if t.isIgnored then fileNames next filed rest
    else fileNames (next + 1) (filed.insert t.name next) rest

/-- The index of a configuration: the position of each kept team by its name. -/
def index (teams : List Team) : SortedMap String Nat := fileNames 0 .empty teams

theorem fileNames_activeTeams (next : Nat) (filed : SortedMap String Nat) (teams : List Team) :
    fileNames next filed (activeTeams teams) = fileNames next filed teams := by
  induction teams generalizing next filed with
  | nil => rfl
  | cons t rest ih =>
    cases ht : t.isIgnored
    · have hactive : activeTeams (t :: rest) = t :: activeTeams rest := by simp [activeTeams, ht]
      simp only [hactive, fileNames, ht, Bool.false_eq_true, ↓reduceIte, ih]
    · have hactive : activeTeams (t :: rest) = activeTeams rest := by simp [activeTeams, ht]
      simp only [hactive, fileNames, ht, ↓reduceIte, ih]

theorem get?_fileNames {teams : List Team} (hactive : ∀ t ∈ teams, t.isIgnored = false)
    (hnodup : (teams.map (·.name)).Nodup) (next : Nat) (filed : SortedMap String Nat)
    (name : String) :
    (fileNames next filed teams).get? name =
      ((teams.findIdx? (·.name == name)).map (next + ·)).or (filed.get? name) := by
  induction teams generalizing next filed with
  | nil => rfl
  | cons t rest ih =>
    obtain ⟨ht, hrest⟩ := List.forall_mem_cons.mp hactive
    obtain ⟨hfresh, hnodup⟩ := List.nodup_cons.mp hnodup
    rw [fileNames, if_neg (by simp [ht]), ih hrest hnodup, SortedMap.get?_insert,
      List.findIdx?_cons]
    by_cases hname : t.name = name
    · have hnone : rest.findIdx? (·.name == name) = none := by
        rw [List.findIdx?_eq_none_iff]
        intro u hu
        have hne : u.name ≠ name := fun he =>
          hfresh (List.mem_map.mpr ⟨u, hu, he.trans hname.symm⟩)
        simpa using hne
      simp [hname, hnone]
    · rw [if_neg (Ne.symm hname), if_neg (by simpa using hname), Option.map_map]
      congr 2
      funext i
      simp only [Function.comp_apply]
      omega

theorem team?_eq_index {c : OrgConfig} {d : Directory} (h : load c = .ok d) (name : String) :
    d.team? name = ((index c.teams).get? name).bind (d.teams[·]?) := by
  have hteams := teams_of_load h
  have hactive : ∀ t ∈ d.teams, t.isIgnored = false := by
    intro t ht
    rw [hteams] at ht
    simpa using (List.mem_filter.mp ht).2
  rw [index, ← fileNames_activeTeams, ← hteams, get?_fileNames hactive d.names_nodup, team?,
    SortedMap.get?_empty, Option.or_none, List.find?_eq_bind_findIdx?_getElem?]
  simp

-- ---------------------------------------------------------------------------
-- The storage form
-- ---------------------------------------------------------------------------

theorem teams_eq_nil_iff {c : OrgConfig} {d : Directory} (h : load c = .ok d) :
    d.teams = [] ↔ ∀ t ∈ c.teams, t.isIgnored = true := by
  rw [teams_of_load h, activeTeams, List.filter_eq_nil_iff]
  simp

theorem index_toConfig {c : OrgConfig} {d : Directory} (h : load c = .ok d) :
    index d.toConfig.teams = index c.teams := by
  have hteams : d.toConfig.teams = activeTeams c.teams := teams_of_load h
  rw [hteams, index, index, fileNames_activeTeams]

/-- The storage form of a loaded directory indexes its teams as the configuration
did, and it loads to the directory again exactly when some team was not ignored;
otherwise it is refused for having no teams. -/
theorem load_toConfig_eq_ok_iff {c : OrgConfig} {d : Directory} (h : load c = .ok d) :
    (load d.toConfig = .ok d ↔ ∃ t ∈ c.teams, t.isIgnored = false) ∧
    ((∀ t ∈ c.teams, t.isIgnored = true) →
      load d.toConfig = .error (.missingField "Teams" "org configuration")) ∧
    index d.toConfig.teams = index c.teams := by
  have hrefused (hnil : d.teams = []) :
      load d.toConfig = .error (.missingField "Teams" "org configuration") := by
    rw [load, if_pos]
    exact hnil
  have hsome : (∃ t ∈ c.teams, t.isIgnored = false) ↔ d.teams ≠ [] := by
    rw [ne_eq, teams_eq_nil_iff h]
    simp
  refine ⟨?_, fun hall => hrefused ((teams_eq_nil_iff h).mpr hall), index_toConfig h⟩
  rw [hsome]
  constructor
  · intro hload hnil
    rw [hrefused hnil] at hload
    cases hload
  · exact load_toConfig h

/-- A configuration with ignored teams, one of them under the name of a team that is kept. -/
def mixedConfig : OrgConfig where
  title := "Org"
  teams := [
    { name := "Node", components := [Team.ignoreTag] },
    { name := "Node", components := ["Node"], memberCount := 3 },
    { name := "Old", components := [Team.ignoreTag] },
    { name := "Storage", components := [Team.ignoreTag, "Storage"] }]
  releases := [{ name := "4.9", targets := ["4.9.0"] }]

def mixedDirectory : Directory where
  title := "Org"
  teams := [
    { name := "Node", components := ["Node"], memberCount := 3 },
    { name := "Storage", components := [Team.ignoreTag, "Storage"] }]
  releases := [{ name := "4.9", targets := ["4.9.0"] }]
  slo := .empty
  names_nodup := by decide

theorem load_toConfig_mixedDirectory :
    load mixedConfig = .ok mixedDirectory ∧ load mixedDirectory.toConfig = .ok mixedDirectory ∧
      index mixedDirectory.toConfig.teams = index mixedConfig.teams := by
  have hload : load mixedConfig = .ok mixedDirectory := by decide
  have hreload := load_toConfig_eq_ok_iff hload
  have hkept : ∃ t ∈ mixedConfig.teams, t.isIgnored = false := by decide
  exact ⟨hload, hreload.1.mpr hkept, hreload.2.2⟩

def ignoringConfig : OrgConfig := { teams := [{ name := "Old", components := [Team.ignoreTag] }] }

/-- The storage form of an accepted configuration may be refused. -/
theorem load_toConfig_ignoringConfig :
    load ignoringConfig = .ok Directory.empty ∧
      load Directory.empty.toConfig = .error (.missingField "Teams" "org configuration") := by
  decide

end Triage.Directory
