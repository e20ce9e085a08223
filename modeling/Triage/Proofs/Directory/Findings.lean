import Triage.Proofs.Directory.Lint

/-!
# What a finding says of its teams

A team stands in a finding once for every time that it makes the claim in
question (`Found.teams_eq`), be it that it lists the component more than once
or the subcomponent. All teams named do make the claim. The names are distinct,
and two at least, exactly when nobody makes it twice; a team that repeats itself
is reported even if it shares the component with no one.
-/

namespace Triage

-- ---------------------------------------------------------------------------
-- Sound findings
-- ---------------------------------------------------------------------------

namespace Finding

/-- The team claims the component in the way the finding is about. -/
def Claims (f : Finding) (t : Team) : Prop :=
  f.component ∈ t.components ∧
  match f.kind with
  | .sharedComponent => t.subcomponents.get? f.component = none
  | .shadowedSubcomponents => True
  | .multipleFallbacks => t.subcomponents.get? f.component = some .fallback
  | .duplicateSubcomponent sub =>
    ∃ subs, t.subcomponents.get? f.component = some (.listed subs) ∧ sub ∈ subs

/-- A team of the finding owns the whole component, and one is restricted to parts of it. -/
def Mixed (f : Finding) (teams : List Team) : Prop :=
  (∃ t ∈ teams, t.name ∈ f.teams ∧ f.component ∈ t.components ∧
    t.subcomponents.get? f.component = none) ∧
  ∃ t ∈ teams, t.name ∈ f.teams ∧ f.component ∈ t.components ∧
    t.subcomponents.get? f.component ≠ none

/-- The finding names different teams, each once, that make the claim in question. -/
structure Sound (f : Finding) (teams : List Team) : Prop where
  nodup : f.teams.Nodup
  several : ∃ a ∈ f.teams, ∃ b ∈ f.teams, a ≠ b
  claims : ∀ name ∈ f.teams, ∃ t ∈ teams, t.name = name ∧ f.Claims t
  mixed : f.kind = .shadowedSubcomponents → f.Mixed teams

def times (f : Finding) (t : Team) : Nat :=
  match f.kind with
  | .sharedComponent =>
    if (t.subcomponents.get? f.component).isNone then t.components.count f.component else 0
  | .shadowedSubcomponents => t.components.count f.component
  | .multipleFallbacks =>
    if t.subcomponents.get? f.component == some .fallback then t.components.count f.component else 0
  | .duplicateSubcomponent sub =>
    t.components.count f.component * (Directory.listedBy f.component t).count sub

theorem claims_iff (f : Finding) (t : Team) : f.Claims t ↔ 0 < f.times t := by
  obtain ⟨component, kind, teams⟩ := f
  rw [Claims, times]
  cases kind with
  | sharedComponent =>
    cases t.subcomponents.get? component <;> simp [List.count_pos_iff]
  | shadowedSubcomponents => simp [List.count_pos_iff]
  | multipleFallbacks =>
    by_cases hfallback : t.subcomponents.get? component = some .fallback <;>
      simp [hfallback, List.count_pos_iff]
  | duplicateSubcomponent sub =>
    dsimp only
    rw [← Directory.mem_listedBy_iff, ← List.count_pos_iff, ← List.count_pos_iff]
    simp only [Nat.pos_iff_ne_zero, Nat.mul_ne_zero_iff]

theorem times_le_one {f : Finding} {t : Team} (hcomponents : t.components.Nodup)
    (hlisted : (Directory.listedBy f.component t).Nodup) : f.times t ≤ 1 := by
  have hcomponent : t.components.count f.component ≤ 1 :=
    List.nodup_iff_count_le_one.mp hcomponents _
  rw [times]
  split
  · split <;> omega
  · exact hcomponent
  · split <;> omega
  · rename_i sub _
    exact Nat.mul_le_mul hcomponent (List.nodup_iff_count_le_one.mp hlisted sub)

end Finding

-- ---------------------------------------------------------------------------
-- Names by the number of claims
-- ---------------------------------------------------------------------------

namespace Directory

def namesBy (times : Team → Nat) (teams : List Team) : List String :=
  teams.flatMap fun t => List.replicate (times t) t.name

variable {times : Team → Nat} {teams : List Team} {component : String} {name : String}

theorem mem_namesBy_iff :
    name ∈ namesBy times teams ↔ ∃ t ∈ teams, t.name = name ∧ 0 < times t := by
  simp only [namesBy, List.mem_flatMap, List.mem_replicate, Nat.pos_iff_ne_zero, and_comm,
    eq_comm]

theorem nodup_namesBy_iff (h : (teams.map (·.name)).Nodup) :
    (namesBy times teams).Nodup ↔ ∀ t ∈ teams, times t ≤ 1 := by
  have hapart : teams.Pairwise
      (Function.onFun List.Disjoint fun t => List.replicate (times t) t.name) := by
    refine (List.pairwise_map.mp h).imp ?_
    intro t u hne name ht hu
    exact hne ((List.eq_of_mem_replicate ht).symm.trans (List.eq_of_mem_replicate hu))
  simp only [namesBy, List.nodup_flatMap, List.nodup_replicate, hapart, and_true]

theorem filed_flatMap {β : Type} (keys : Team → List String) (value : Team → β)
    (teams : List Team) (k : String) :
    ((SortedMap.fileAll Prod.fst Prod.snd
      (teams.flatMap fun t => (keys t).map (·, value t)) .empty).get? k).getD [] =
        teams.flatMap fun t => List.replicate ((keys t).count k) (value t) := by
  rw [SortedMap.getD_get?_fileAll, SortedMap.get?_empty, Option.getD_none, List.nil_append,
    List.filter_flatMap, List.map_flatMap]
  congr 1
  funext t
  have hkeys : (keys t).filter ((·.1 == k) ∘ (·, value t)) = List.replicate ((keys t).count k) k :=
    List.filter_beq k
  rw [List.filter_map, hkeys, List.map_replicate, List.map_replicate]

theorem claimantsOf_eq (teams : List Team) (component : String) :
    claimantsOf teams component =
      teams.flatMap fun t => List.replicate (t.components.count component) t := by
  rw [claimantsOf, claimants_eq, filed_flatMap]

theorem names_claimantsOf (teams : List Team) (component : String) :
    (claimantsOf teams component).map (·.name) =
      namesBy (fun t => t.components.count component) teams := by
  simp only [claimantsOf_eq, List.map_flatMap, List.map_replicate, namesBy]

theorem names_filter_claimantsOf (p : Team → Bool) (teams : List Team) (component : String) :
    ((claimantsOf teams component).filter p).map (·.name) =
      namesBy (fun t => if p t then t.components.count component else 0) teams := by
  rw [claimantsOf_eq, List.filter_flatMap, List.map_flatMap, namesBy]
  congr 1
  funext t
  rw [List.filter_replicate]
  split <;> simp

theorem listers_claimantsOf (teams : List Team) (component sub : String) :
    ((listers component (claimantsOf teams component)).get? sub).getD [] =
      namesBy (fun t => t.components.count component * (listedBy component t).count sub) teams := by
  rw [listers_eq, filed_flatMap, claimantsOf_eq, List.flatMap_assoc, namesBy]
  congr 1
  funext t
  rw [List.flatMap_replicate, List.flatten_replicate_replicate]

-- ---------------------------------------------------------------------------
-- The findings on a component
-- ---------------------------------------------------------------------------

/-- What a finding on a component reports, and on which grounds. -/
inductive Found (component : String) (claimants : List Team) : Finding → Prop
  | shared : 1 < (outright component claimants).length →
      Found component claimants ⟨component, .sharedComponent, outright component claimants⟩
  | shadowed : outright component claimants ≠ [] →
      (outright component claimants).length < claimants.length →
      Found component claimants ⟨component, .shadowedSubcomponents, claimants.map (·.name)⟩
  | fallbacks : 1 < (fallbacks component claimants).length →
      Found component claimants ⟨component, .multipleFallbacks, fallbacks component claimants⟩
  | duplicate (sub : String) : 1 < (((listers component claimants).get? sub).getD []).length →
      Found component claimants ⟨component, .duplicateSubcomponent sub,
        ((listers component claimants).get? sub).getD []⟩

theorem found_of_mem_lintComponent {claimants : List Team} {f : Finding}
    (h : f ∈ lintComponent component claimants) :
    2 ≤ claimants.length ∧ Found component claimants f := by
  rw [lintComponent] at h
  split at h
  · cases h
  rename_i htwo
  refine ⟨by omega, ?_⟩
  simp only [List.mem_append, List.mem_ite_nil_right, List.mem_singleton, List.mem_filterMap,
    Prod.exists] at h
  obtain ((⟨hlength, rfl⟩ | ⟨hmixed, rfl⟩) | ⟨hlength, rfl⟩) | ⟨sub, owners, hentry, hf⟩ := h
  · exact .shared hlength
  · simp only [Bool.and_eq_true, Bool.not_eq_true', List.isEmpty_eq_false_iff,
      decide_eq_true_eq] at hmixed
    exact .shadowed hmixed.1 hmixed.2
  · exact .fallbacks hlength
  · rw [SortedMap.mem_entries_iff] at hentry
    split at hf
    · rename_i hlength
      cases hf
      have howners : ((listers component claimants).get? sub).getD [] = owners := by
        rw [hentry]
        rfl
      rw [← howners] at hlength ⊢
      exact .duplicate sub hlength
    · cases hf

theorem found_of_mem_lint {d : Directory} {f : Finding} (h : f ∈ d.lint) :
    2 ≤ (claimantsOf d.teams f.component).length ∧
      Found f.component (claimantsOf d.teams f.component) f := by
  obtain ⟨⟨component, claimants⟩, hentry, hf⟩ := List.mem_flatMap.mp h
  obtain ⟨htwo, hfound⟩ := found_of_mem_lintComponent hf
  have hclaimants : claimantsOf d.teams component = claimants := by
    rw [claimantsOf, (SortedMap.mem_entries_iff _).mp hentry]
    rfl
  have hcomponent : f.component = component := by cases hfound <;> rfl
  rw [hcomponent, hclaimants]
  exact ⟨htwo, hfound⟩

/-- Every team stands in a finding as often as it makes the claim. -/
theorem Found.teams_eq {f : Finding} (h : Found component (claimantsOf teams component) f) :
    f.teams = namesBy f.times teams := by
  cases h with
  | shared => exact names_filter_claimantsOf _ teams component
  | shadowed => exact names_claimantsOf teams component
  | fallbacks => exact names_filter_claimantsOf _ teams component
  | duplicate sub => exact listers_claimantsOf teams component sub

theorem Found.one_lt_length {claimants : List Team} {f : Finding}
    (h : Found component claimants f) (htwo : 2 ≤ claimants.length) : 1 < f.teams.length := by
  cases h with
  | shared hlength => exact hlength
  | shadowed =>
    rw [List.length_map]
    exact htwo
  | fallbacks hlength => exact hlength
  | duplicate sub hlength => exact hlength

theorem Found.mixed {f : Finding} (h : Found component (claimantsOf teams component) f)
    (hkind : f.kind = .shadowedSubcomponents) : f.Mixed teams := by
  cases h with
  | shared | fallbacks | duplicate => cases hkind
  | shadowed hwhole hfewer =>
    have hclaimant : ∀ t ∈ claimantsOf teams component, t ∈ teams ∧
        t.name ∈ (claimantsOf teams component).map (·.name) ∧ component ∈ t.components := by
      intro t ht
      obtain ⟨hmem, hcomponent⟩ := mem_claimantsOf_iff.mp ht
      exact ⟨hmem, List.mem_map.mpr ⟨t, ht, rfl⟩, hcomponent⟩
    constructor
    · obtain ⟨name, hname⟩ := List.exists_mem_of_ne_nil _ hwhole
      obtain ⟨t, ht, -⟩ := List.mem_map.mp hname
      obtain ⟨ht, hnone⟩ := List.mem_filter.mp ht
      obtain ⟨hmem, hnamed, hcomponent⟩ := hclaimant t ht
      exact ⟨t, hmem, hnamed, hcomponent, by simpa using hnone⟩
    · rw [outright, List.length_map, List.length_filter_lt_length_iff_exists] at hfewer
      obtain ⟨t, ht, hsome⟩ := hfewer
      obtain ⟨hmem, hnamed, hcomponent⟩ := hclaimant t ht
      exact ⟨t, hmem, hnamed, hcomponent, by simpa using hsome⟩

-- ---------------------------------------------------------------------------
-- The findings on a directory
-- ---------------------------------------------------------------------------

theorem exists_ne_of_nodup {α : Type} {l : List α} (h : l.Nodup) (hl : 1 < l.length) :
    ∃ a ∈ l, ∃ b ∈ l, a ≠ b := by
  match l with
  | [] | [_] => simp at hl
  | a :: b :: rest =>
    have hne : a ≠ b := fun he => (List.nodup_cons.mp h).1 (he ▸ List.mem_cons_self)
    exact ⟨a, by simp, b, by simp, hne⟩

/-- The teams of a finding make the claim that it is about, and shadowed
subcomponents have owners of both sorts. The finding is sound exactly when no
team makes the claim twice, so it is if the teams list components and
subcomponents once only; and a component with a single claimant is reported for
nothing but being listed twice. -/
theorem lint_sound_iff (d : Directory) {f : Finding} (hf : f ∈ d.lint) :
    (∀ name ∈ f.teams, ∃ t ∈ d.teams, t.name = name ∧ f.Claims t) ∧
    (f.kind = .shadowedSubcomponents → f.Mixed d.teams) ∧
    (f.Sound d.teams ↔ ∀ t ∈ d.teams, f.times t ≤ 1) ∧
    ((∀ t ∈ d.teams, t.components.Nodup ∧ (listedBy f.component t).Nodup) → f.Sound d.teams) ∧
    (∀ t ∈ d.teams, (∀ u ∈ d.teams, f.component ∈ u.components → u = t) →
      2 ≤ t.components.count f.component) := by
  obtain ⟨htwo, hfound⟩ := found_of_mem_lint hf
  have hteams := hfound.teams_eq
  have hclaims : ∀ name ∈ f.teams, ∃ t ∈ d.teams, t.name = name ∧ f.Claims t := by
    simp only [hteams, mem_namesBy_iff, Finding.claims_iff, imp_self, implies_true]
  have hmixed := hfound.mixed
  have hsound : f.Sound d.teams ↔ ∀ t ∈ d.teams, f.times t ≤ 1 := by
    rw [← nodup_namesBy_iff d.names_nodup, ← hteams]
    refine ⟨fun h => h.nodup, fun h => ⟨h, ?_, hclaims, hmixed⟩⟩
    exact exists_ne_of_nodup h (hfound.one_lt_length htwo)
  refine ⟨hclaims, hmixed, hsound, fun h => ?_, fun t ht halone => ?_⟩
  · exact hsound.mpr fun t ht => Finding.times_le_one (h t ht).1 (h t ht).2
  · -- Otherwise no claimant is counted twice, and there are not two of them.
    by_contra honce
    have hnodup : ((claimantsOf d.teams f.component).map (·.name)).Nodup := by
      rw [names_claimantsOf, nodup_namesBy_iff d.names_nodup]
      intro u hu
      by_cases hcomponent : f.component ∈ u.components
      · rw [halone u hu hcomponent]
        omega
      · rw [List.count_eq_zero.mpr hcomponent]
        omega
    obtain ⟨u, hu, v, hv, hne⟩ := exists_ne_of_nodup hnodup.of_map htwo
    have hsame : ∀ w ∈ claimantsOf d.teams f.component, w = t := fun w hw =>
      halone w (mem_claimantsOf_iff.mp hw).1 (mem_claimantsOf_iff.mp hw).2
    exact hne ((hsame u hu).trans (hsame v hv).symm)

def contested : Directory where
  title := ""
  teams := [
    { name := "Node", components := ["Node"] },
    { name := "Kubelet", components := ["Node"],
      subcomponents := SortedMap.empty.insert "Node" (.listed ["Kubelet"]) },
    { name := "Runtime", components := ["Node", "Storage"],
      subcomponents := (SortedMap.empty.insert "Node" (.listed ["CRI-O", "Kubelet"])).insert
        "Storage" .fallback },
    { name := "Platform", components := ["Node"] },
    { name := "Storage", components := ["Storage"],
      subcomponents := SortedMap.empty.insert "Storage" .fallback }]
  releases := []
  slo := .empty
  names_nodup := by decide

theorem lint_sound_iff_contested :
    contested.lint = [
        ⟨"Node", .sharedComponent, ["Node", "Platform"]⟩,
        ⟨"Node", .shadowedSubcomponents, ["Node", "Kubelet", "Runtime", "Platform"]⟩,
        ⟨"Node", .duplicateSubcomponent "Kubelet", ["Kubelet", "Runtime"]⟩,
        ⟨"Storage", .multipleFallbacks, ["Runtime", "Storage"]⟩] ∧
      ∀ f ∈ contested.lint, f.Sound contested.teams := by
  have honce : ∀ f ∈ contested.lint, ∀ t ∈ contested.teams, f.times t ≤ 1 := by decide
  exact ⟨by decide, fun f hf => (contested.lint_sound_iff hf).2.2.1.mpr (honce f hf)⟩

def selfContested : Directory where
  title := ""
  teams := [{ name := "Node", components := ["Node", "Node"] }]
  releases := []
  slo := .empty
  names_nodup := by decide

/-- A team that shares its component with nobody is reported, twice. -/
theorem lint_selfContested :
    load { teams := selfContested.teams } = .ok selfContested ∧
      ∃ f ∈ selfContested.lint, f.teams = ["Node", "Node"] ∧ ¬ f.Sound selfContested.teams := by
  refine ⟨by decide, ⟨"Node", .sharedComponent, ["Node", "Node"]⟩, by decide, rfl, fun h => ?_⟩
  exact absurd h.nodup (by decide)

end Directory

end Triage
