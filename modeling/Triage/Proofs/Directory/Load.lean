import Mathlib.Data.List.Nodup
import Triage.Directory

/-!
# Which configurations load

A configuration loads exactly when it lists a team, every entry is complete, the
teams that are kept have distinct names and every release has a name. The
directory then holds the configuration as it is, without the ignored teams. The
order of the teams plays no part in whether a configuration loads.

The entries are looked at in order, each with the names of the teams that were
kept before it; `entry_cases` says what becomes of one, and `Fault` what can be
wrong with it.
-/

namespace Triage

def Team.Complete (t : Team) : Prop := t.name ≠ "" ∧ (t.isIgnored = false → t.components ≠ [])

namespace Directory

-- ---------------------------------------------------------------------------
-- One entry
-- ---------------------------------------------------------------------------

/-- What is wrong with an entry that comes behind kept teams of the given names. -/
inductive Fault (taken : List String) (t : Team) : ConfigError → Prop
  | nameless : t.name = "" → Fault taken t (.missingField "name" "team entry")
  | bare : t.name ≠ "" → t.isIgnored = false → t.components = [] →
      Fault taken t (.missingField "components" ("team " ++ Text.quoted t.name))
  | repeated : t.name ≠ "" → t.isIgnored = false → t.components ≠ [] → t.name ∈ taken →
      Fault taken t (.duplicateTeam t.name)

variable {taken seen : List String} {t : Team} {rest : List Team} {e : ConfigError}

theorem Fault.mono (h : taken ⊆ seen) (hf : Fault taken t e) : Fault seen t e := by
  cases hf with
  | nameless hname => exact .nameless hname
  | bare hname hactive hbare => exact .bare hname hactive hbare
  | repeated hname hactive hcomp htaken => exact .repeated hname hactive hcomp (h htaken)

theorem entry_cases (seen : List String) (t : Team) :
    (∃ e, Fault seen t e) ∨ (t.name ≠ "" ∧ t.isIgnored = true) ∨
      (t.name ≠ "" ∧ t.isIgnored = false ∧ t.components ≠ [] ∧ t.name ∉ seen) := by
  by_cases hname : t.name = ""
  · exact .inl ⟨_, .nameless hname⟩
  cases hactive : t.isIgnored with
  | true => exact .inr (.inl ⟨hname, rfl⟩)
  | false =>
    by_cases hcomp : t.components = []
    · exact .inl ⟨_, .bare hname hactive hcomp⟩
    by_cases hseen : t.name ∈ seen
    · exact .inl ⟨_, .repeated hname hactive hcomp hseen⟩
    · exact .inr (.inr ⟨hname, rfl, hcomp, hseen⟩)

@[simp] theorem keptTeams_nil : keptTeams seen [] = .ok [] := rfl

theorem Fault.keptTeams_cons (h : Fault seen t e) (rest : List Team) :
    keptTeams seen (t :: rest) = .error e := by
  cases h with
  | nameless hname => simp [keptTeams, hname]
  | bare hname hactive hbare => simp [keptTeams, hname, hactive, hbare]
  | repeated hname hactive hcomp hseen => simp [keptTeams, hname, hactive, hcomp, hseen]

theorem Fault.unique {e' : ConfigError} (h : Fault seen t e) (h' : Fault seen t e') : e = e' := by
  have hcons := h.keptTeams_cons []
  rw [h'.keptTeams_cons []] at hcons
  exact (Except.error.inj hcons).symm

theorem keptTeams_cons_ignored (hname : t.name ≠ "") (hignored : t.isIgnored = true) :
    keptTeams seen (t :: rest) = keptTeams seen rest := by
  simp [keptTeams, hname, hignored]

theorem keptTeams_cons_kept (hname : t.name ≠ "") (hactive : t.isIgnored = false)
    (hcomp : t.components ≠ []) (hseen : t.name ∉ seen) :
    keptTeams seen (t :: rest) = (keptTeams (t.name :: seen) rest).map (t :: ·) := by
  simp only [keptTeams, hname, hactive, hcomp, hseen, Bool.false_eq_true, ↓reduceIte]
  cases keptTeams (t.name :: seen) rest <;> rfl

-- ---------------------------------------------------------------------------
-- All entries
-- ---------------------------------------------------------------------------

theorem map_eq_error_iff {ε α β : Type} {x : Except ε α} {f : α → β} {e : ε} :
    x.map f = .error e ↔ x = .error e := by
  cases x <;> simp [Except.map]

theorem map_eq_ok_iff {ε α β : Type} {x : Except ε α} {f : α → β} {b : β} :
    x.map f = .ok b ↔ ∃ a, x = .ok a ∧ f a = b := by
  cases x <;> simp [Except.map]

def activeTeams (teams : List Team) : List Team := teams.filter (!·.isIgnored)

theorem keptTeams_eq_ok_iff {l teams : List Team} :
    keptTeams seen l = .ok teams ↔
      (∀ t ∈ l, t.Complete) ∧ teams = activeTeams l ∧ (teams.map (·.name)).Nodup ∧
        ∀ t ∈ teams, t.name ∉ seen := by
  induction l generalizing seen teams with
  | nil =>
    simp only [keptTeams_nil, activeTeams, Except.ok.injEq, List.filter_nil]
    constructor
    · rintro rfl; simp
    · rintro ⟨-, rfl, -, -⟩; rfl
  | cons t rest ih =>
    obtain ⟨e, hfault⟩ | ⟨hname, hignored⟩ | ⟨hname, hactive, hcomp, hseen⟩ := entry_cases seen t
    · rw [hfault.keptTeams_cons]
      refine ⟨fun h => (nomatch h), ?_⟩
      rintro ⟨hall, rfl, -, hns⟩
      obtain ⟨hname, hcomplete⟩ := hall t List.mem_cons_self
      cases hfault with
      | nameless hnil => exact absurd hnil hname
      | bare _ hactive hbare => exact absurd hbare (hcomplete hactive)
      | repeated _ hactive _ hseen => exact absurd hseen (hns t (by simp [activeTeams, hactive]))
    · have hdropped : activeTeams (t :: rest) = activeTeams rest := by simp [activeTeams, hignored]
      simp [keptTeams_cons_ignored hname hignored, ih, Team.Complete, hname, hignored, hdropped]
    · have hkept : activeTeams (t :: rest) = t :: activeTeams rest := by
        simp [activeTeams, hactive]
      have ht : t.Complete := ⟨hname, fun _ => hcomp⟩
      simp only [keptTeams_cons_kept hname hactive hcomp hseen, map_eq_ok_iff, ih,
        List.forall_mem_cons, hkept]
      constructor
      · rintro ⟨kept, ⟨hall, rfl, hnodup, hns⟩, rfl⟩
        refine ⟨⟨ht, hall⟩, rfl, ?_, List.forall_mem_cons.mpr ⟨hseen, fun u hu hm => ?_⟩⟩
        · refine List.nodup_cons.mpr ⟨fun hm => ?_, hnodup⟩
          obtain ⟨u, hu, he⟩ := List.mem_map.mp hm
          exact hns u hu (by simp [he])
        · exact hns u hu (by simp [hm])
      · rintro ⟨⟨-, hall⟩, rfl, hnodup, hns⟩
        obtain ⟨hfresh, hnodup⟩ := List.nodup_cons.mp hnodup
        refine ⟨_, ⟨hall, rfl, hnodup, fun u hu hm => ?_⟩, rfl⟩
        rcases List.mem_cons.mp hm with he | hm
        · exact hfresh (List.mem_map.mpr ⟨u, hu, he⟩)
        · exact hns u (List.mem_cons_of_mem _ hu) hm

-- ---------------------------------------------------------------------------
-- The whole configuration
-- ---------------------------------------------------------------------------

theorem toConfig_injective {d d' : Directory} (h : d.toConfig = d'.toConfig) : d = d' := by
  cases d
  cases d'
  simp only [toConfig, OrgConfig.mk.injEq] at h
  simp [h]

theorem eq_of_name_eq (d : Directory) {t u : Team} (ht : t ∈ d.teams) (hu : u ∈ d.teams)
    (h : t.name = u.name) : t = u :=
  List.inj_on_of_nodup_map d.names_nodup ht hu h

/-- What a configuration must be to load. -/
structure Loadable (c : OrgConfig) : Prop where
  teams_ne_nil : c.teams ≠ []
  complete : ∀ t ∈ c.teams, t.Complete
  names_nodup : ((activeTeams c.teams).map (·.name)).Nodup
  releases_named : ∀ r ∈ c.releases, r.name ≠ ""

theorem load_eq_ok_iff {c : OrgConfig} {d : Directory} :
    load c = .ok d ↔ Loadable c ∧ d.toConfig = { c with teams := activeTeams c.teams } := by
  rw [load]
  by_cases hteams : c.teams = []
  · rw [if_pos hteams]
    exact ⟨fun h => (nomatch h), fun h => absurd hteams h.1.teams_ne_nil⟩
  rw [if_neg hteams]
  have hreleases : c.releases.any (·.name == "") = true ↔ ¬ ∀ r ∈ c.releases, r.name ≠ "" := by
    simp
  split
  · rename_i e he
    refine ⟨fun h => (nomatch h), fun ⟨hc, _⟩ => ?_⟩
    have hk : keptTeams [] c.teams = .ok (activeTeams c.teams) :=
      keptTeams_eq_ok_iff.mpr ⟨hc.complete, rfl, hc.names_nodup, fun _ _ => List.not_mem_nil⟩
    rw [he] at hk
    cases hk
  · rename_i teams hk
    obtain ⟨hall, rfl, hnd, -⟩ := keptTeams_eq_ok_iff.mp hk
    split
    · rename_i hr
      exact ⟨fun h => (nomatch h), fun ⟨hc, _⟩ => absurd hc.releases_named (hreleases.mp hr)⟩
    · rename_i hr
      constructor
      · intro h
        cases h
        have hnamed := Classical.not_not.mp fun hn => hr (hreleases.mpr hn)
        exact ⟨⟨hteams, hall, hnd, hnamed⟩, rfl⟩
      · rintro ⟨-, hd⟩
        rw [Except.ok.injEq]
        exact toConfig_injective hd.symm

theorem teams_of_load {c : OrgConfig} {d : Directory} (h : load c = .ok d) :
    d.teams = activeTeams c.teams :=
  congrArg OrgConfig.teams (load_eq_ok_iff.mp h).2

theorem Loadable.loads {c : OrgConfig} (h : Loadable c) :
    ∃ d, load c = .ok d ∧ d.toConfig = { c with teams := activeTeams c.teams } := by
  let d : Directory := ⟨c.title, activeTeams c.teams, c.releases, c.slo, h.names_nodup⟩
  exact ⟨d, load_eq_ok_iff.mpr ⟨h, rfl⟩, rfl⟩

theorem activeTeams_idem (teams : List Team) : activeTeams (activeTeams teams) = activeTeams teams := by
  simp [activeTeams]

/-- The storage form of a loaded directory loads to it again, when a team is left. -/
theorem load_toConfig {c : OrgConfig} {d : Directory} (h : load c = .ok d) (hne : d.teams ≠ []) :
    load d.toConfig = .ok d := by
  obtain ⟨hc, hd⟩ := load_eq_ok_iff.mp h
  have hteams := teams_of_load h
  have hreleases : d.releases = c.releases := congrArg OrgConfig.releases hd
  have hactive : activeTeams d.teams = d.teams := by rw [hteams, activeTeams_idem]
  refine load_eq_ok_iff.mpr ⟨⟨hne, ?_, ?_, ?_⟩, ?_⟩
  · intro t ht
    replace ht : t ∈ d.teams := ht
    rw [hteams] at ht
    exact hc.complete t ((List.mem_filter.mp ht).1)
  · show ((activeTeams d.teams).map (·.name)).Nodup
    rw [hactive]
    exact d.names_nodup
  · intro r hr
    exact hc.releases_named r (hreleases ▸ hr)
  · show d.toConfig = { d.toConfig with teams := activeTeams d.teams }
    rw [hactive]
    rfl

theorem load_perm {c : OrgConfig} {d : Directory} (h : load c = .ok d) {teams : List Team}
    (hp : teams.Perm c.teams) :
    ∃ d', load { c with teams } = .ok d' ∧ d'.teams.Perm d.teams := by
  obtain ⟨hc, -⟩ := load_eq_ok_iff.mp h
  have hactive : (activeTeams teams).Perm (activeTeams c.teams) := hp.filter _
  have hloadable : Loadable { c with teams } := by
    refine ⟨?_, ?_, ?_, hc.releases_named⟩
    · rintro rfl
      exact hc.teams_ne_nil (List.nil_perm.mp hp)
    · exact fun t ht => hc.complete t (hp.mem_iff.mp ht)
    · exact (hactive.map _).nodup_iff.mpr hc.names_nodup
  obtain ⟨d', hload, -⟩ := hloadable.loads
  have hteams := teams_of_load h
  have hteams' := teams_of_load hload
  exact ⟨d', hload, by rw [hteams, hteams']; exact hactive⟩

end Directory

end Triage
