import Triage.Directory.Ownership

/-!
# Who can be an owner

Ownership is decided by two searches over the teams in order, one for a team
that claims the pair outright and one for a fallback owner. `Owns` says which
team they find; the name is that of this team, or the one for unowned bugs. Where
at most one team answers either search, the order of the teams does not matter.
-/

namespace Triage

-- ---------------------------------------------------------------------------
-- Claims
-- ---------------------------------------------------------------------------

namespace Team

variable {t : Team} {component subcomponent : String}

theorem claim_eq_exact_iff : t.claim component subcomponent = .exact ↔
    component ∈ t.components ∧ (t.subcomponents.get? component = none ∨
      ∃ subs, t.subcomponents.get? component = some (.listed subs) ∧ subcomponent ∈ subs) := by
  rw [claim, ownsComponent]
  by_cases hc : component ∈ t.components
  · cases t.subcomponents.get? component with
    | none => simp [hc]
    | some scope => cases scope <;> simp [hc]
  · simp [hc]

theorem claim_eq_fallback_iff : t.claim component subcomponent = .fallback ↔
    component ∈ t.components ∧ t.subcomponents.get? component = some .fallback := by
  rw [claim, ownsComponent]
  by_cases hc : component ∈ t.components
  · cases t.subcomponents.get? component with
    | none => simp [hc]
    | some scope =>
      cases scope with
      | fallback => simp [hc]
      | listed subs => by_cases hs : subcomponent ∈ subs <;> simp [hc, hs]
  · simp [hc]

end Team

-- ---------------------------------------------------------------------------
-- The two searches
-- ---------------------------------------------------------------------------

variable {teams : List Team} {component subcomponent : String} {t : Team}

theorem find?_claim_eq_some_iff {k : Claim} :
    teams.find? (·.claim component subcomponent == k) = some t ↔
      ∃ before after, teams = before ++ t :: after ∧ t.claim component subcomponent = k ∧
        ∀ u ∈ before, u.claim component subcomponent ≠ k := by
  rw [List.find?_eq_some_iff_append]
  constructor
  · rintro ⟨hclaim, before, after, hteams, hbefore⟩
    exact ⟨before, after, hteams, by simpa using hclaim, by simpa using hbefore⟩
  · rintro ⟨before, after, hteams, hclaim, hbefore⟩
    exact ⟨by simpa using hclaim, before, after, hteams, by simpa using hbefore⟩

theorem find?_claim_eq_none_iff {k : Claim} :
    teams.find? (·.claim component subcomponent == k) = none ↔
      ∀ u ∈ teams, u.claim component subcomponent ≠ k := by
  simp

def owningTeam? (teams : List Team) (component subcomponent : String) : Option Team :=
  (teams.find? (·.claim component subcomponent == .exact)).or
    (teams.find? (·.claim component subcomponent == .fallback))

theorem ownerAmong_eq (teams : List Team) (component subcomponent : String) :
    ownerAmong teams component subcomponent =
      ((owningTeam? teams component subcomponent).map (·.name)).getD unknownTeam := by
  rw [ownerAmong, owningTeam?]
  cases teams.find? (·.claim component subcomponent == .exact) with
  | some t => rfl
  | none => cases teams.find? (·.claim component subcomponent == .fallback) <;> rfl

-- ---------------------------------------------------------------------------
-- The team that owns a pair
-- ---------------------------------------------------------------------------

/-- The team owns the pair: it is the first that claims it outright or, when nobody
does, the first fallback owner of the component. -/
def Owns (teams : List Team) (component subcomponent : String) (t : Team) : Prop :=
  ∃ before after, teams = before ++ t :: after ∧
    ((t.claim component subcomponent = .exact ∧
      ∀ u ∈ before, u.claim component subcomponent ≠ .exact) ∨
    (t.claim component subcomponent = .fallback ∧
      (∀ u ∈ before, u.claim component subcomponent ≠ .fallback) ∧
      ∀ u ∈ teams, u.claim component subcomponent ≠ .exact))

def Unclaimed (teams : List Team) (component subcomponent : String) : Prop :=
  ∀ t ∈ teams, t.claim component subcomponent = .none

theorem owningTeam?_eq_some_iff :
    owningTeam? teams component subcomponent = some t ↔ Owns teams component subcomponent t := by
  rw [owningTeam?, Option.or_eq_some_iff, find?_claim_eq_some_iff, find?_claim_eq_some_iff,
    find?_claim_eq_none_iff]
  constructor
  · rintro (⟨before, after, hteams, hclaim, hbefore⟩ |
      ⟨hnone, before, after, hteams, hclaim, hbefore⟩)
    · exact ⟨before, after, hteams, .inl ⟨hclaim, hbefore⟩⟩
    · exact ⟨before, after, hteams, .inr ⟨hclaim, hbefore, hnone⟩⟩
  · rintro ⟨before, after, hteams, ⟨hclaim, hbefore⟩ | ⟨hclaim, hbefore, hnone⟩⟩
    · exact .inl ⟨before, after, hteams, hclaim, hbefore⟩
    · exact .inr ⟨hnone, before, after, hteams, hclaim, hbefore⟩

theorem owningTeam?_eq_none_iff :
    owningTeam? teams component subcomponent = none ↔ Unclaimed teams component subcomponent := by
  rw [owningTeam?, Option.or_eq_none_iff, find?_claim_eq_none_iff, find?_claim_eq_none_iff]
  constructor
  · rintro ⟨hexact, hfallback⟩ t ht
    cases hclaim : t.claim component subcomponent with
    | exact => exact absurd hclaim (hexact t ht)
    | fallback => exact absurd hclaim (hfallback t ht)
    | none => rfl
  · intro hnone
    exact ⟨fun t ht => by simp [hnone t ht], fun t ht => by simp [hnone t ht]⟩

theorem Owns.mem (h : Owns teams component subcomponent t) : t ∈ teams := by
  obtain ⟨before, after, rfl, -⟩ := h
  simp

theorem Owns.claim_ne_none (h : Owns teams component subcomponent t) :
    t.claim component subcomponent ≠ .none := by
  obtain ⟨-, -, -, ⟨hclaim, -⟩ | ⟨hclaim, -⟩⟩ := h <;> simp [hclaim]

theorem Owns.ownerAmong_eq (h : Owns teams component subcomponent t) :
    ownerAmong teams component subcomponent = t.name := by
  rw [Triage.ownerAmong_eq, owningTeam?_eq_some_iff.mpr h]
  rfl

theorem Unclaimed.ownerAmong_eq (h : Unclaimed teams component subcomponent) :
    ownerAmong teams component subcomponent = unknownTeam := by
  rw [Triage.ownerAmong_eq, owningTeam?_eq_none_iff.mpr h]
  rfl

theorem Owns.unique {u : Team} (h : Owns teams component subcomponent t)
    (h' : Owns teams component subcomponent u) : u = t := by
  rw [← owningTeam?_eq_some_iff] at h h'
  exact Option.some.inj (h'.symm.trans h)

theorem exists_owns_or_unclaimed (teams : List Team) (component subcomponent : String) :
    (∃ t, Owns teams component subcomponent t) ∨ Unclaimed teams component subcomponent := by
  cases h : owningTeam? teams component subcomponent with
  | some t => exact .inl ⟨t, owningTeam?_eq_some_iff.mp h⟩
  | none => exact .inr (owningTeam?_eq_none_iff.mp h)

/-- The owner is a team with a claim, or unknown when there is no claim at all. -/
theorem ownerAmong_cases (teams : List Team) (component subcomponent : String) :
    (∃ t ∈ teams, t.name = ownerAmong teams component subcomponent ∧
      t.claim component subcomponent ≠ .none) ∨
    (ownerAmong teams component subcomponent = unknownTeam ∧
      Unclaimed teams component subcomponent) := by
  obtain ⟨t, howns⟩ | hnone := exists_owns_or_unclaimed teams component subcomponent
  · exact .inl ⟨t, howns.mem, howns.ownerAmong_eq.symm, howns.claim_ne_none⟩
  · exact .inr ⟨hnone.ownerAmong_eq, hnone⟩

theorem ownerAmong_mem (teams : List Team) (component subcomponent : String) :
    ownerAmong teams component subcomponent = unknownTeam ∨
      ∃ t ∈ teams, t.name = ownerAmong teams component subcomponent := by
  rcases ownerAmong_cases teams component subcomponent with ⟨t, ht, hname, -⟩ | ⟨hunknown, -⟩
  · exact .inr ⟨t, ht, hname⟩
  · exact .inl hunknown

section Unique

variable {α : Type} {p : α → Bool} {l l' : List α}

theorem find?_eq_some_iff_of_unique (hu : ∀ x ∈ l, ∀ y ∈ l, p x → p y → x = y) {x : α} :
    l.find? p = some x ↔ x ∈ l ∧ p x := by
  constructor
  · exact fun h => ⟨List.mem_of_find?_eq_some h, List.find?_some h⟩
  · rintro ⟨hx, hpx⟩
    cases hf : l.find? p with
    | none => exact absurd hpx (List.find?_eq_none.mp hf x hx)
    | some y => rw [hu y (List.mem_of_find?_eq_some hf) x hx (List.find?_some hf) hpx]

theorem find?_perm_of_unique (hu : ∀ x ∈ l, ∀ y ∈ l, p x → p y → x = y) (hp : l'.Perm l) :
    l'.find? p = l.find? p := by
  have hu' : ∀ x ∈ l', ∀ y ∈ l', p x → p y → x = y := fun x hx y hy =>
    hu x (hp.mem_iff.mp hx) y (hp.mem_iff.mp hy)
  ext x
  rw [find?_eq_some_iff_of_unique hu', find?_eq_some_iff_of_unique hu, hp.mem_iff]

end Unique

/-- No two of the teams make the same claim on the pair. -/
def Uncontested (teams : List Team) (component subcomponent : String) : Prop :=
  ∀ t ∈ teams, ∀ u ∈ teams, t.claim component subcomponent ≠ .none →
    t.claim component subcomponent = u.claim component subcomponent → t = u

theorem ownerAmong_perm {teams' : List Team}
    (hu : Uncontested teams component subcomponent) (hp : teams'.Perm teams) :
    ownerAmong teams' component subcomponent = ownerAmong teams component subcomponent := by
  have hfind : ∀ k : Claim, k ≠ .none →
      teams'.find? (·.claim component subcomponent == k) =
        teams.find? (·.claim component subcomponent == k) := by
    intro k hk
    refine find?_perm_of_unique (fun t ht u hu' hkt hku => ?_) hp
    rw [beq_iff_eq] at hkt hku
    exact hu t ht u hu' (hkt ▸ hk) (hkt.trans hku.symm)
  rw [ownerAmong_eq, ownerAmong_eq, owningTeam?, owningTeam?, hfind .exact (by decide),
    hfind .fallback (by decide)]

namespace Directory

theorem ownerOf_mem (d : Directory) (b : Bug) :
    d.ownerOf b ∈ d.order ∨ d.ownerOf b = unknownTeam := by
  rcases ownerAmong_mem d.teams b.component b.subcomponent with h | ⟨t, ht, hn⟩
  · exact .inr h
  · exact .inl (List.mem_map.mpr ⟨t, ht, hn⟩)

end Directory

end Triage
