import Triage.Directory.Lint
import Triage.Proofs.SortedMap
import Triage.Proofs.Directory.Load
import Triage.Proofs.Directory.Ownership

/-!
# No findings, no ambiguity

When no finding is reported on a component, nobody who shares it owns it as a
whole, it has at most one fallback owner, and no subcomponent of it is listed
twice (`Clear`). So every pair has at most one claimant of each kind, and the
order of the teams does not decide who owns it.
-/

namespace Triage.Directory

-- ---------------------------------------------------------------------------
-- What the findings are computed from
-- ---------------------------------------------------------------------------

/-- The teams that claim a component, once for every time they list it. -/
def claimantsOf (teams : List Team) (component : String) : List Team :=
  ((claimants teams).get? component).getD []

theorem claimants_eq (teams : List Team) :
    claimants teams =
      SortedMap.fileAll Prod.fst Prod.snd (teams.flatMap fun t => t.components.map (·, t)) .empty := by
  rw [claimants, SortedMap.fileAll, List.foldl_flatMap]
  simp only [List.foldl_map]

theorem mem_claimantsOf_iff {teams : List Team} {component : String} {t : Team} :
    t ∈ claimantsOf teams component ↔ t ∈ teams ∧ component ∈ t.components := by
  rw [claimantsOf, claimants_eq, SortedMap.getD_get?_fileAll]
  simp

def listedBy (component : String) (t : Team) : List String :=
  match t.subcomponents.get? component with
  | some (.listed subs) => subs
  | _ => []

theorem mem_listedBy_iff {component sub : String} {t : Team} :
    sub ∈ listedBy component t ↔
      ∃ subs, t.subcomponents.get? component = some (.listed subs) ∧ sub ∈ subs := by
  rw [listedBy]
  split
  · rename_i subs hsubs
    simp [hsubs]
  · rename_i hother
    simpa using fun subs hsubs => absurd hsubs (hother subs)

theorem listers_eq (component : String) (teams : List Team) :
    listers component teams =
      SortedMap.fileAll Prod.fst Prod.snd
        (teams.flatMap fun t => (listedBy component t).map (·, t.name)) .empty := by
  rw [listers, SortedMap.fileAll, List.foldl_flatMap]
  congr 1
  funext acc t
  rw [listedBy]
  split <;> simp [List.foldl_map, *]

theorem mem_listers_iff {component sub name : String} {teams : List Team} :
    name ∈ ((listers component teams).get? sub).getD [] ↔
      ∃ t ∈ teams, sub ∈ listedBy component t ∧ t.name = name := by
  rw [listers_eq, SortedMap.getD_get?_fileAll]
  simp

-- ---------------------------------------------------------------------------
-- A component without findings
-- ---------------------------------------------------------------------------

/-- Nothing about the claims of these teams on a component is ambiguous. -/
structure Clear (component : String) (teams : List Team) : Prop where
  outright : outright component teams = []
  fallbacks : (fallbacks component teams).length < 2
  listers : ∀ sub, (((listers component teams).get? sub).getD []).length < 2

theorem clear_of_lintComponent {component : String} {teams : List Team}
    (h : lintComponent component teams = []) (htwo : 2 ≤ teams.length) : Clear component teams := by
  rw [lintComponent, if_neg (by omega)] at h
  simp only [List.append_eq_nil_iff, ite_eq_right_iff, reduceCtorEq, imp_false, Nat.not_lt] at h
  obtain ⟨⟨⟨hshared, hshadowed⟩, hbacks⟩, hlisted⟩ := h
  refine ⟨?_, by omega, fun sub => ?_⟩
  · cases hw : Directory.outright component teams with
    | nil => rfl
    | cons name rest =>
      simp only [hw, List.isEmpty_cons, Bool.not_false, Bool.true_and, decide_eq_true_eq,
        Nat.not_lt] at hshared hshadowed
      omega
  · cases hget : (Directory.listers component teams).get? sub with
    | none => simp
    | some owners =>
      have := List.filterMap_eq_nil_iff.mp hlisted (sub, owners)
        ((SortedMap.mem_entries_iff _).mpr hget)
      simp at this
      simp
      omega

theorem two_le_length {α : Type} {l : List α} {a b : α} (ha : a ∈ l) (hb : b ∈ l) (h : a ≠ b) :
    2 ≤ l.length := by
  match l with
  | [] => cases ha
  | [x] =>
    rw [List.mem_singleton] at ha hb
    exact absurd (ha.trans hb.symm) h
  | _ :: _ :: _ => simp

/-- A component that two teams claim is clear when nothing is found. -/
theorem clear_of_lint_eq_nil {d : Directory} (h : d.lint = []) {component : String} {t u : Team}
    (ht : t ∈ claimantsOf d.teams component) (hu : u ∈ claimantsOf d.teams component)
    (hne : t ≠ u) : Clear component (claimantsOf d.teams component) := by
  refine clear_of_lintComponent ?_ (two_le_length ht hu hne)
  rw [claimantsOf] at ht ⊢
  cases hget : (claimants d.teams).get? component with
  | none => simp [hget] at ht
  | some teams =>
    exact List.flatMap_eq_nil_iff.mp h (component, teams)
      ((SortedMap.mem_entries_iff _).mpr hget)

theorem uncontested_of_lint_eq_nil {d : Directory} (h : d.lint = [])
    (component subcomponent : String) : Uncontested d.teams component subcomponent := by
  intro t ht u hu hclaim hsame
  by_contra hne
  have hname : t.name ≠ u.name := fun he => hne (d.eq_of_name_eq ht hu he)
  cases hc : t.claim component subcomponent with
  | none => exact hclaim hc
  | fallback =>
    obtain ⟨htc, hts⟩ := Team.claim_eq_fallback_iff.mp hc
    obtain ⟨huc, hus⟩ := Team.claim_eq_fallback_iff.mp (hsame ▸ hc)
    have htm := mem_claimantsOf_iff.mpr ⟨ht, htc⟩
    have hum := mem_claimantsOf_iff.mpr ⟨hu, huc⟩
    have hclear := clear_of_lint_eq_nil h htm hum hne
    have hback : ∀ x ∈ claimantsOf d.teams component,
        x.subcomponents.get? component = some .fallback →
          x.name ∈ fallbacks component (claimantsOf d.teams component) := by
      intro x hx hxs
      exact List.mem_map.mpr ⟨x, List.mem_filter.mpr ⟨hx, by simp [hxs]⟩, rfl⟩
    exact absurd (two_le_length (hback t htm hts) (hback u hum hus) hname)
      (Nat.not_le.mpr hclear.fallbacks)
  | exact =>
    obtain ⟨htc, hts⟩ := Team.claim_eq_exact_iff.mp hc
    obtain ⟨huc, hus⟩ := Team.claim_eq_exact_iff.mp (hsame ▸ hc)
    have htm := mem_claimantsOf_iff.mpr ⟨ht, htc⟩
    have hum := mem_claimantsOf_iff.mpr ⟨hu, huc⟩
    have hclear := clear_of_lint_eq_nil h htm hum hne
    -- Nobody owns the whole component, so both teams list the subcomponent.
    have hlists : ∀ x ∈ claimantsOf d.teams component,
        (x.subcomponents.get? component = none ∨
          ∃ subs, x.subcomponents.get? component = some (.listed subs) ∧ subcomponent ∈ subs) →
        x.name ∈ ((listers component (claimantsOf d.teams component)).get? subcomponent).getD [] := by
      rintro x hx (hnone | ⟨subs, hsubs, hmem⟩)
      · have hout : x.name ∈ outright component (claimantsOf d.teams component) :=
          List.mem_map.mpr ⟨x, List.mem_filter.mpr ⟨hx, by simp [hnone]⟩, rfl⟩
        rw [hclear.outright] at hout
        cases hout
      · exact mem_listers_iff.mpr ⟨x, hx, mem_listedBy_iff.mpr ⟨subs, hsubs, hmem⟩, rfl⟩
    exact absurd (two_le_length (hlists t htm hts) (hlists u hum hus) hname)
      (Nat.not_le.mpr (hclear.listers subcomponent))

/-- Ownership in a directory without findings does not depend on the order of
its teams: neither for a directory with the same teams in another order, nor
for the one to which the configuration loads when its entries are reordered. -/
theorem owner_reordered {c : OrgConfig} {d : Directory} (h : load c = .ok d) (hl : d.lint = []) :
    (∀ d' : Directory, d'.teams.Perm d.teams →
      ∀ component subcomponent, d'.owner component subcomponent = d.owner component subcomponent) ∧
    (∀ teams : List Team, teams.Perm c.teams →
      ∃ d', load { c with teams } = .ok d' ∧ d'.teams.Perm d.teams ∧
        ∀ component subcomponent,
          d'.owner component subcomponent = d.owner component subcomponent) := by
  have howner : ∀ d' : Directory, d'.teams.Perm d.teams →
      ∀ component subcomponent,
        d'.owner component subcomponent = d.owner component subcomponent :=
    fun d' hp component subcomponent =>
      ownerAmong_perm (uncontested_of_lint_eq_nil hl component subcomponent) hp
  refine ⟨howner, fun teams hp => ?_⟩
  obtain ⟨d', hload, hperm⟩ := load_perm h hp
  exact ⟨d', hload, hperm, howner d' hperm⟩

def splitComponent : OrgConfig where
  teams := [
    { name := "Node", components := ["Node"],
      subcomponents := SortedMap.empty.insert "Node" .fallback },
    { name := "Retired", components := ["!!IGNORE!!"] },
    { name := "Kubelet", components := ["Node", "Storage"],
      subcomponents := SortedMap.empty.insert "Node" (.listed ["Kubelet"]) }]

theorem owner_reordered_split :
    ∃ d, load splitComponent = .ok d ∧ d.lint = [] ∧
      d.owner "Node" "Kubelet" = "Kubelet" ∧ d.owner "Node" "CRI-O" = "Node" ∧
      ∃ d', load { splitComponent with teams := splitComponent.teams.reverse } = .ok d' ∧
        d'.teams = d.teams.reverse ∧
        d'.owner "Node" "Kubelet" = "Kubelet" ∧ d'.owner "Node" "CRI-O" = "Node" := by
  let d : Directory := ⟨"", activeTeams splitComponent.teams, [], .empty, by decide⟩
  have hd : load splitComponent = .ok d := rfl
  have hl : d.lint = [] := by decide
  have hk : d.owner "Node" "Kubelet" = "Kubelet" := by decide
  have hc : d.owner "Node" "CRI-O" = "Node" := by decide
  obtain ⟨d', hd', -, howner⟩ :=
    (owner_reordered hd hl).2 splitComponent.teams.reverse (List.reverse_perm _)
  refine ⟨d, hd, hl, hk, hc, d', hd', ?_, (howner _ _).trans hk, (howner _ _).trans hc⟩
  cases hd'
  rfl

end Triage.Directory
