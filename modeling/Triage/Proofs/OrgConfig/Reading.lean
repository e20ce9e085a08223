import Triage.OrgConfig.Json
import Triage.Proofs.SortedMap

/-!
# What a configuration that was read is like

Whatever the format and the form, a scope that was read is never the listed one
of the fallback tag alone: such a list is read as the fallback scope. So every
scope of a configuration that was read is the one its stored list stands for.
-/

namespace Triage

/-- The scope is read back from the list it is stored as. -/
def Scope.Canonical (s : Scope) : Prop := Scope.ofList s.toList = s

-- ---------------------------------------------------------------------------
-- Lists and maps
-- ---------------------------------------------------------------------------

section Parts

variable {δ α β : Type} [Document δ] {P : α → Prop} {d : δ}

theorem exists_of_mem_mapM {f : β → Option α} {l : List β} {xs : List α}
    (h : l.mapM f = some xs) {x : α} (hx : x ∈ xs) : ∃ y ∈ l, f y = some x := by
  induction l generalizing xs with
  | nil =>
    cases h
    cases hx
  | cons y rest ih =>
    simp only [List.mapM_cons, Option.bind_eq_bind, Option.bind_eq_some_iff, Option.pure_def,
      Option.some.injEq] at h
    obtain ⟨x', hy, xs', hrest, rfl⟩ := h
    rcases List.mem_cons.mp hx with rfl | hx
    · exact ⟨y, List.mem_cons_self, hy⟩
    · obtain ⟨y', hy', hf⟩ := ih hrest hx
      exact ⟨y', List.mem_cons_of_mem _ hy', hf⟩

theorem Document.forall_mem_of_list? {item : δ → Option α} {l : List α}
    (hitem : ∀ d x, item d = some x → P x) (h : list? item d = some l) : ∀ x ∈ l, P x := by
  intro x hx
  obtain ⟨items, -, hl⟩ := Option.bind_eq_some_iff.mp h
  obtain ⟨d', -, hd'⟩ := exists_of_mem_mapM hl hx
  exact hitem d' x hd'

theorem Document.forall_mem_of_map? {value : δ → Option α} {m : SortedMap String α}
    (hvalue : ∀ d x, value d = some x → P x) (h : map? value d = some m) :
    ∀ x ∈ m.values, P x := by
  intro x hx
  simp only [map?, Option.bind_eq_bind, Option.bind_eq_some_iff, Option.some.injEq] at h
  obtain ⟨entries, -, pairs, hpairs, rfl⟩ := h
  obtain ⟨e, he, rfl⟩ := List.mem_map.mp hx
  obtain ⟨⟨key, d'⟩, -, hd'⟩ := exists_of_mem_mapM hpairs (SortedMap.mem_of_mem_ofList he)
  obtain ⟨y, hy, rfl⟩ := Option.map_eq_some_iff.mp hd'
  exact hvalue d' y hy

omit [Document δ] in
theorem Document.of_defaulted? {get : String → Option δ} {name : String} {default x : α}
    {read : δ → Option α} (hdefault : P default) (hread : ∀ d x, read d = some x → P x)
    (h : defaulted? get name default read = some x) : P x := by
  rw [defaulted?] at h
  split at h
  · exact hread _ x h
  · cases h
    exact hdefault

end Parts

-- ---------------------------------------------------------------------------
-- Scopes
-- ---------------------------------------------------------------------------

section Scopes

variable {δ : Type} [Document δ] {d : δ}

theorem Scope.canonical_ofList (subs : List String) : (Scope.ofList subs).Canonical := by
  by_cases htag : subs = [fallbackTag]
  · rw [htag]
    rfl
  · have hlisted : ofList subs = listed subs := if_neg htag
    rw [Canonical, hlisted]
    exact hlisted

def Team.ScopesCanonical (t : Team) : Prop := ∀ s ∈ t.subcomponents.values, s.Canonical

theorem Team.scopesCanonical_of_read? {t : Team} (h : Team.read? d = some t) :
    t.ScopesCanonical := by
  simp only [read?, Option.bind_eq_bind, Option.bind_eq_some_iff, Option.some.injEq] at h
  obtain ⟨get, -, -, -, -, -, -, -, -, -, -, -, -, -, m, hm, -, -, -, -, rfl⟩ := h
  refine Document.of_defaulted? (P := fun m : SortedMap String Scope => ∀ s ∈ m.values, s.Canonical)
    ?_ ?_ hm
  · rintro s ⟨⟩
  · intro d m
    refine Document.forall_mem_of_map? fun d s hs => ?_
    obtain ⟨subs, -, rfl⟩ := Option.map_eq_some_iff.mp hs
    exact Scope.canonical_ofList subs

theorem OrgConfig.scopesCanonical_of_read? {c : OrgConfig} (h : OrgConfig.read? d = some c) :
    ∀ t ∈ c.teams, t.ScopesCanonical := by
  simp only [read?, Option.bind_eq_bind, Option.bind_eq_some_iff, Option.some.injEq] at h
  obtain ⟨get, -, -, -, teams, hteams, -, -, -, -, rfl⟩ := h
  refine Document.of_defaulted? (P := fun l : List Team => ∀ t ∈ l, t.ScopesCanonical) ?_ ?_ hteams
  · rintro t ⟨⟩
  · intro d l
    exact Document.forall_mem_of_list? fun d t => Team.scopesCanonical_of_read?

theorem KeyedOrgConfig.scopesCanonical_of_read? {c : KeyedOrgConfig}
    (h : KeyedOrgConfig.read? d = some c) : ∀ t ∈ c.toOrgConfig.teams, t.ScopesCanonical := by
  simp only [read?, Option.bind_eq_bind, Option.bind_eq_some_iff, Option.some.injEq] at h
  obtain ⟨get, -, -, -, teams, hteams, -, -, -, -, rfl⟩ := h
  obtain ⟨d', -, hd'⟩ := Option.bind_eq_some_iff.mp hteams
  have hread : ∀ t ∈ teams.values, t.ScopesCanonical :=
    Document.forall_mem_of_map? (fun d t => Team.scopesCanonical_of_read?) hd'
  intro t ht
  obtain ⟨e, he, rfl⟩ := List.mem_map.mp ht
  obtain ⟨e', he', rfl⟩ := List.mem_map.mp he
  have hteam : e'.2.ScopesCanonical := hread e'.2 (List.mem_map_of_mem he')
  -- A team that takes its key as name keeps its scopes.
  dsimp only
  split
  · exact hteam
  · exact hteam

end Scopes

theorem OrgConfig.scopesCanonical_of_ofJsonText? {text : String} {c : OrgConfig}
    (h : ofJsonText? text = some c) : ∀ t ∈ c.teams, t.ScopesCanonical := by
  obtain ⟨v, -, hv⟩ := Option.bind_eq_some_iff.mp h
  rw [ofJson?] at hv
  split at hv
  · rcases Option.or_eq_some_iff.mp hv with hkeyed | ⟨-, hstored⟩
    · obtain ⟨k, hk, rfl⟩ := Option.map_eq_some_iff.mp hkeyed
      exact KeyedOrgConfig.scopesCanonical_of_read? hk
    · exact scopesCanonical_of_read? hstored
  · cases hv

end Triage
