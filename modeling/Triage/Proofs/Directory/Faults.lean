import Triage.Proofs.Directory.Ownership
import Triage.Proofs.Directory.Reload

/-!
# Why a configuration is refused

The cause reported is the fault of the first entry that has one
(`keptTeams_eq_error_iff`); releases are looked at last, when no entry is at fault.
Together with what it takes to load this says how loading ends, for every
configuration (`load_outcome`).
-/

namespace Triage.Directory

variable {seen : List String} {e : ConfigError}

-- ---------------------------------------------------------------------------
-- All entries
-- ---------------------------------------------------------------------------

theorem exists_split_cons {α : Type} {a : α} {l : List α} {P : List α → α → Prop} :
    (∃ before x after, a :: l = before ++ x :: after ∧ P before x) ↔
      P [] a ∨ ∃ before x after, l = before ++ x :: after ∧ P (a :: before) x := by
  constructor
  · rintro ⟨_ | ⟨_, before⟩, x, after, heq, hp⟩ <;> cases heq
    · exact .inl hp
    · exact .inr ⟨before, x, after, rfl, hp⟩
  · rintro (hp | ⟨before, x, after, rfl, hp⟩)
    · exact ⟨[], a, l, rfl, hp⟩
    · exact ⟨a :: before, x, after, rfl, hp⟩

/-- The cause is the fault of an entry before which nothing is at fault. -/
theorem keptTeams_eq_error_iff {l : List Team} :
    keptTeams seen l = .error e ↔ ∃ before t after, l = before ++ t :: after ∧
      ∃ kept, keptTeams seen before = .ok kept ∧ Fault (seen ++ kept.map (·.name)) t e := by
  induction l generalizing seen with
  | nil => simp
  | cons u rest ih =>
    rw [exists_split_cons]
    obtain ⟨e', hfault⟩ | ⟨hname, hignored⟩ | ⟨hname, hactive, hcomp, hseen⟩ := entry_cases seen u
    · have hat : (e' = e) ↔ Fault seen u e := ⟨fun h => h ▸ hfault, hfault.unique⟩
      simp [hfault.keptTeams_cons, hat]
    · have hclear : ¬ Fault seen u e := by
        rintro (hnil | ⟨-, hactive, -⟩ | ⟨-, hactive, -, -⟩)
        · exact hname hnil
        · simp [hignored] at hactive
        · simp [hignored] at hactive
      simp [keptTeams_cons_ignored hname hignored, ih, hclear]
    · have hclear : ¬ Fault seen u e := by
        rintro (hnil | ⟨-, -, hnil⟩ | ⟨-, -, -, hmem⟩)
        · exact hname hnil
        · exact hcomp hnil
        · exact hseen hmem
      -- The name of the kept team stands among those seen, wherever it stands there.
      have hfault (names : List String) (t : Team) :
          Fault (u.name :: seen ++ names) t e ↔ Fault (seen ++ u.name :: names) t e :=
        ⟨.mono (by simp), .mono (by simp)⟩
      simp only [List.cons_append] at hfault
      simp [keptTeams_cons_kept hname hactive hcomp hseen, map_eq_error_iff, map_eq_ok_iff, ih,
        hclear, hfault]

-- ---------------------------------------------------------------------------
-- The whole configuration
-- ---------------------------------------------------------------------------

structure Faultless (teams : List Team) : Prop where
  complete : ∀ t ∈ teams, t.Complete
  names_nodup : ((activeTeams teams).map (·.name)).Nodup

theorem keptTeams_nil_eq_ok_iff {teams kept : List Team} :
    keptTeams [] teams = .ok kept ↔ Faultless teams ∧ kept = activeTeams teams := by
  rw [keptTeams_eq_ok_iff]
  constructor
  · rintro ⟨hcomplete, rfl, hnodup, -⟩
    exact ⟨⟨hcomplete, hnodup⟩, rfl⟩
  · rintro ⟨⟨hcomplete, hnodup⟩, rfl⟩
    exact ⟨hcomplete, rfl, hnodup, fun _ _ => List.not_mem_nil⟩

/-- An entry is at fault that no faulty one precedes. -/
def FirstFault (teams : List Team) (e : ConfigError) : Prop :=
  ∃ before t after, teams = before ++ t :: after ∧ Faultless before ∧
    Fault ((activeTeams before).map (·.name)) t e

theorem keptTeams_nil_eq_error_iff {teams : List Team} :
    keptTeams [] teams = .error e ↔ FirstFault teams e := by
  rw [keptTeams_eq_error_iff]
  constructor
  · rintro ⟨before, t, after, rfl, kept, hkept, hfault⟩
    obtain ⟨hbefore, rfl⟩ := keptTeams_nil_eq_ok_iff.mp hkept
    exact ⟨before, t, after, rfl, hbefore, hfault⟩
  · rintro ⟨before, t, after, rfl, hbefore, hfault⟩
    exact ⟨before, t, after, rfl, _, keptTeams_nil_eq_ok_iff.mpr ⟨hbefore, rfl⟩, hfault⟩

theorem load_eq_error_iff {c : OrgConfig} :
    load c = .error e ↔
      (c.teams = [] ∧ e = .missingField "Teams" "org configuration") ∨
      FirstFault c.teams e ∨
      (c.teams ≠ [] ∧ Faultless c.teams ∧ (∃ r ∈ c.releases, r.name = "") ∧
        e = .missingField "name" "release entry") := by
  rw [← keptTeams_nil_eq_error_iff, load]
  by_cases hteams : c.teams = []
  · simp [hteams, eq_comm (a := e)]
  rw [if_neg hteams]
  split
  · rename_i e' he
    have hfaulty : ¬ Faultless c.teams := fun hc => by
      rw [keptTeams_nil_eq_ok_iff.mpr ⟨hc, rfl⟩] at he
      cases he
    simp [hteams, he, hfaulty]
  · rename_i kept hk
    obtain ⟨hc, rfl⟩ := keptTeams_nil_eq_ok_iff.mp hk
    by_cases hreleases : ∃ r ∈ c.releases, r.name = ""
    · have hany : c.releases.any (·.name == "") = true := by simpa using hreleases
      simp [hteams, hk, hc, hany, hreleases, eq_comm (a := e)]
    · have hany : ¬ c.releases.any (·.name == "") = true := by simpa using hreleases
      simp [hteams, hk, hany, hreleases]

theorem team?_eq_some_iff (d : Directory) {name : String} {t : Team} :
    d.team? name = some t ↔ t ∈ d.teams ∧ t.name = name := by
  have hunique : ∀ u ∈ d.teams, ∀ v ∈ d.teams, u.name == name → v.name == name → u = v := by
    intro u hu v hv hun hvn
    exact d.eq_of_name_eq hu hv ((eq_of_beq hun).trans (eq_of_beq hvn).symm)
  rw [team?, find?_eq_some_iff_of_unique hunique, beq_iff_eq]

/-- When a configuration loads, what its directory then holds and finds, and with
which cause it is refused otherwise. -/
theorem load_outcome (c : OrgConfig) :
    ((∃ d, load c = .ok d) ↔ c.teams ≠ [] ∧ (∀ t ∈ c.teams, t.name ≠ "") ∧
      (∀ t ∈ c.teams, t.isIgnored = false → t.components ≠ []) ∧
      ((c.teams.filter (!·.isIgnored)).map (·.name)).Nodup ∧ ∀ r ∈ c.releases, r.name ≠ "") ∧
    (∀ d, load c = .ok d → d.teams = c.teams.filter (!·.isIgnored) ∧
      (∀ name t, d.team? name = some t ↔ t ∈ d.teams ∧ t.name = name) ∧
      ∀ name, d.team? name = ((index c.teams).get? name).bind (d.teams[·]?)) ∧
    (∀ e, load c = .error e ↔
      (c.teams = [] ∧ e = .missingField "Teams" "org configuration") ∨
      FirstFault c.teams e ∨
      (c.teams ≠ [] ∧ Faultless c.teams ∧ (∃ r ∈ c.releases, r.name = "") ∧
        e = .missingField "name" "release entry")) := by
  refine ⟨?_, fun d h => ⟨teams_of_load h, fun _ _ => d.team?_eq_some_iff, team?_eq_index h⟩,
    fun e => load_eq_error_iff⟩
  constructor
  · rintro ⟨d, h⟩
    obtain ⟨⟨hne, hcomplete, hnodup, hreleases⟩, -⟩ := load_eq_ok_iff.mp h
    exact ⟨hne, fun t ht => (hcomplete t ht).1, fun t ht => (hcomplete t ht).2, hnodup, hreleases⟩
  · rintro ⟨hne, hnames, hcomps, hnodup, hreleases⟩
    have hc : Loadable c := ⟨hne, fun t ht => ⟨hnames t ht, hcomps t ht⟩, hnodup, hreleases⟩
    obtain ⟨d, h, -⟩ := hc.loads
    exact ⟨d, h⟩

-- A dropped entry does not take its name; the repetition is met before the nameless entry.
example :
    load {
      teams := [{ name := "Node", components := [Team.ignoreTag] },
        { name := "Node", components := ["Node"] }, { name := "Node", components := ["Kubelet"] },
        { components := ["Storage"] }]
      releases := [{}] } = .error (.duplicateTeam "Node") := by
  decide

end Triage.Directory
