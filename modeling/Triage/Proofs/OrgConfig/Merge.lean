import Triage.OrgConfig
import Triage.Proofs.SortedMap

/-!
# Overlays

Laying a configuration over another goes through the overlay's entries one by
one, while the list in which their names are looked up is growing. In the end
every name that occurs stands once, in the order of first appearance, and its
entry is what all entries of that name amount to (`Made`): for a team the last
value that is set in each field (`Team.Combines`), for a release the last entry.
-/

namespace Triage

-- ---------------------------------------------------------------------------
-- Values that are set
-- ---------------------------------------------------------------------------

section LastSet

variable {α : Type} [DecidableEq α] {empty : α}

/-- The last of the values that is not the empty one. -/
def lastSet (empty : α) (values : List α) : α := (values.filter (· ≠ empty)).getLastD empty

theorem lastSet_map_concat {β : Type} (f : β → α) (l : List β) (x : β) :
    lastSet empty ((l ++ [x]).map f) = if f x = empty then lastSet empty (l.map f) else f x := by
  rw [lastSet, List.map_append, List.filter_append]
  by_cases hx : f x = empty
  · simp [hx, lastSet]
  · simp [hx]

theorem lastSet_singleton (x : α) : lastSet empty [x] = x := by
  by_cases hx : x = empty <;> simp [lastSet, hx]

end LastSet

namespace OrgConfig

-- ---------------------------------------------------------------------------
-- One entry
-- ---------------------------------------------------------------------------

/-- Either the first item that qualifies is changed, or there is none and one is added. -/
theorem upsert_cases {α : Type} (p : α → Bool) (change : α → α) (new : α) (l : List α) :
    (∃ before old after, l = before ++ old :: after ∧ p old = true ∧
      upsert p change new l = before ++ change old :: after) ∨
    ((∀ x ∈ l, p x = false) ∧ upsert p change new l = l ++ [new]) := by
  induction l with
  | nil => exact .inr ⟨nofun, rfl⟩
  | cons x rest ih =>
    rw [upsert]
    cases hx : p x with
    | true => exact .inl ⟨[], x, rest, rfl, hx, rfl⟩
    | false =>
      obtain ⟨before, old, after, rfl, hold, heq⟩ | ⟨hnone, heq⟩ := ih
      · exact .inl ⟨x :: before, old, after, rfl, hold, by simp [heq]⟩
      · exact .inr ⟨List.forall_mem_cons.mpr ⟨hx, hnone⟩, by simp [heq]⟩

section Layers

variable {α : Type} (key : α → String) (change : α → α → α)

/-- An item laid over a list. -/
def layer (l : List α) (new : α) : List α := upsert (key · == key new) (change · new) new l

def layers (l news : List α) : List α := news.foldl (layer key change) l

variable {key change} {l news entries : List α} {new : α}

theorem layer_cases (key : α → String) (change : α → α → α) (l : List α) (new : α) :
    (∃ before old after, l = before ++ old :: after ∧ key old = key new ∧
      layer key change l new = before ++ change old new :: after) ∨
    (key new ∉ l.map key ∧ layer key change l new = l ++ [new]) := by
  obtain ⟨before, old, after, hl, hold, heq⟩ | ⟨hnone, heq⟩ :=
    upsert_cases (key · == key new) (change · new) new l
  · exact .inl ⟨before, old, after, hl, by simpa using hold, heq⟩
  · refine .inr ⟨fun hmem => ?_, heq⟩
    obtain ⟨x, hx, hkey⟩ := List.mem_map.mp hmem
    simpa [hkey] using hnone x hx

theorem mem_layer {x : α} (h : (l.map key).Nodup) (hx : x ∈ layer key change l new) :
    (∃ old ∈ l, key old = key new ∧ x = change old new) ∨ (x ∈ l ∧ key x ≠ key new) ∨
      (x = new ∧ key new ∉ l.map key) := by
  obtain ⟨before, old, after, rfl, hold, heq⟩ | ⟨hnew, heq⟩ := layer_cases key change l new
  · rw [heq, List.perm_middle.mem_iff, List.mem_cons] at hx
    rcases hx with rfl | hx
    · exact .inl ⟨old, by simp, hold, rfl⟩
    · have hothers := (List.nodup_cons.mp ((List.perm_middle.map key).nodup_iff.mp h)).1
      refine .inr (.inl ⟨List.perm_middle.mem_iff.mpr (List.mem_cons_of_mem _ hx), fun he => ?_⟩)
      exact hothers (List.mem_map.mpr ⟨x, hx, he.trans hold.symm⟩)
  · rw [heq, List.mem_append, List.mem_singleton] at hx
    rcases hx with hx | rfl
    · exact .inr (.inl ⟨hx, fun he => hnew (List.mem_map.mpr ⟨x, hx, he⟩)⟩)
    · exact .inr (.inr ⟨rfl, hnew⟩)

theorem layers_of_nodup (h : ((l ++ news).map key).Nodup) :
    layers key change l news = l ++ news := by
  induction news generalizing l with
  | nil => rw [List.append_nil]; rfl
  | cons new rest ih =>
    have hnew : key new ∉ l.map key := by
      rw [List.map_append, List.nodup_append] at h
      exact fun hmem => h.2.2 _ hmem _ List.mem_cons_self rfl
    have hadded : layer key change l new = l ++ [new] := by
      obtain ⟨before, old, after, rfl, hold, -⟩ | ⟨-, heq⟩ := layer_cases key change l new
      · exact absurd (List.mem_map.mpr ⟨old, by simp, hold⟩) hnew
      · exact heq
    rw [List.append_cons] at h ⊢
    rw [layers, List.foldl_cons, hadded]
    exact ih h

variable (hkey : ∀ old new, key old = key new → key (change old new) = key new)
include hkey

theorem keys_layer (l : List α) (new : α) :
    (layer key change l new).map key =
      if key new ∈ l.map key then l.map key else l.map key ++ [key new] := by
  obtain ⟨before, old, after, rfl, hold, heq⟩ | ⟨hnew, heq⟩ := layer_cases key change l new
  · rw [heq, if_pos (List.mem_map.mpr ⟨old, by simp, hold⟩)]
    simp [hkey old new hold, hold]
  · rw [heq, if_neg hnew, List.map_append]
    rfl

theorem keys_layers (l news : List α) :
    (layers key change l news).map key =
      l.map key ++ ((news.map key).filter (· ∉ l.map key)).eraseDups := by
  induction news generalizing l with
  | nil => simp [layers]
  | cons new rest ih =>
    rw [layers, List.foldl_cons, ← layers, ih, keys_layer hkey, List.map_cons, List.filter_cons]
    by_cases hnew : key new ∈ l.map key
    · simp [hnew]
    · -- The new key is an old one for the rest, and drops its repetitions there.
      have hrest : (rest.map key).filter (· ∉ l.map key ++ [key new]) =
          ((rest.map key).filter (· ∉ l.map key)).filter (fun k => !k == key new) := by
        rw [List.filter_filter]
        refine List.filter_congr fun k _ => ?_
        by_cases hk : k = key new <;> simp [hk]
      rw [if_neg hnew, if_pos (by simpa using hnew), List.eraseDups_cons, hrest]
      simp

theorem nodup_layer (h : (l.map key).Nodup) (new : α) :
    ((layer key change l new).map key).Nodup := by
  rw [keys_layer hkey]
  split
  · exact h
  · rename_i hnew
    rw [List.nodup_append]
    refine ⟨h, by simp, ?_⟩
    rintro k hk _ hk' rfl
    exact hnew (List.mem_singleton.mp hk' ▸ hk)

omit hkey

-- ---------------------------------------------------------------------------
-- All entries
-- ---------------------------------------------------------------------------

/-- `l` has one item for each key that occurs among the entries, and the item is
in the relation `R` to the entries of its key. -/
structure Made (key : α → String) (R : List α → α → Prop) (entries l : List α) : Prop where
  nodup : (l.map key).Nodup
  covers : ∀ e ∈ entries, key e ∈ l.map key
  made : ∀ x ∈ l, R (entries.filter (key · == key x)) x

variable {R : List α → α → Prop} (hone : ∀ x, R [x] x)
variable (hmore : ∀ entries old new, R entries old → R (entries ++ [new]) (change old new))
include hkey hone hmore

theorem Made.layer (h : Made key R entries l) (new : α) :
    Made key R (entries ++ [new]) (layer key change l new) where
  nodup := nodup_layer hkey h.nodup new
  covers e he := by
    rw [keys_layer hkey]
    rcases List.mem_append.mp he with he | he
    · have hold := h.covers e he
      split
      · exact hold
      · exact List.mem_append_left _ hold
    · rw [List.mem_singleton.mp he]
      split
      · assumption
      · simp
  made x hx := by
    have hother (hne : key x ≠ key new) :
        (entries ++ [new]).filter (key · == key x) = entries.filter (key · == key x) := by
      simp [hne.symm]
    have hsame (heq : key x = key new) :
        (entries ++ [new]).filter (key · == key x) =
          entries.filter (key · == key new) ++ [new] := by
      simp [heq]
    -- The new entry is one more for the item of its key, and for that item only.
    obtain ⟨old, hmem, hold, rfl⟩ | ⟨hmem, hne⟩ | ⟨rfl, hnew⟩ := mem_layer h.nodup hx
    · rw [hsame (hkey old new hold), ← hold]
      exact hmore _ _ _ (h.made old hmem)
    · rw [hother hne]
      exact h.made x hmem
    · have hnone : entries.filter (key · == key x) = [] := by
        rw [List.filter_eq_nil_iff]
        intro e he hk
        exact hnew (eq_of_beq hk ▸ h.covers e he)
      rw [hsame rfl, hnone]
      exact hone x

theorem Made.layers (h : Made key R entries l) (news : List α) :
    Made key R (entries ++ news) (layers key change l news) := by
  induction news generalizing entries l with
  | nil => simpa [OrgConfig.layers] using h
  | cons new rest ih =>
    rw [List.append_cons]
    exact ih (h.layer hkey hone hmore new)

theorem made_layers (h : (l.map key).Nodup) (news : List α) :
    Made key R (l ++ news) (layers key change l news) := by
  -- The base list is what comes of laying it over nothing.
  have hnil : Made key R [] [] := ⟨List.nodup_nil, nofun, nofun⟩
  have hl := hnil.layers hkey hone hmore l
  rw [layers_of_nodup (by simpa using h)] at hl
  exact hl.layers hkey hone hmore news

end Layers

end OrgConfig

-- ---------------------------------------------------------------------------
-- Teams
-- ---------------------------------------------------------------------------

theorem getLast?_filterMap_concat {α β : Type} (f : α → Option β) (l : List α) (x : α) :
    ((l ++ [x]).filterMap f).getLast? = (f x).or (l.filterMap f).getLast? := by
  rw [List.filterMap_append, List.getLast?_append]
  cases hx : f x <;> simp [hx]

/-- Each field of the team is the one set last among the entries, and each key of
its maps has its last value there. -/
structure Team.Combines (entries : List Team) (t : Team) : Prop where
  slackChannel : t.slackChannel = lastSet "" (entries.map (·.slackChannel))
  lead : t.lead = lastSet "" (entries.map (·.lead))
  managers : t.managers = lastSet [] (entries.map (·.managers))
  group : t.group = lastSet "" (entries.map (·.group))
  components : t.components = lastSet [] (entries.map (·.components))
  memberCount : t.memberCount = lastSet 0 (entries.map (·.memberCount))
  subcomponents : ∀ component, t.subcomponents.get? component =
    (entries.filterMap (·.subcomponents.get? component)).getLast?
  slo : ∀ metric, t.slo.get? metric = (entries.filterMap (·.slo.get? metric)).getLast?

namespace Team

theorem combines_singleton (t : Team) : t.Combines [t] where
  slackChannel := (lastSet_singleton _).symm
  lead := (lastSet_singleton _).symm
  managers := (lastSet_singleton _).symm
  group := (lastSet_singleton _).symm
  components := (lastSet_singleton _).symm
  memberCount := (lastSet_singleton _).symm
  subcomponents component := by
    rw [← List.nil_append [t], getLast?_filterMap_concat, List.filterMap_nil, List.getLast?_nil,
      Option.or_none]
  slo metric := by
    rw [← List.nil_append [t], getLast?_filterMap_concat, List.filterMap_nil, List.getLast?_nil,
      Option.or_none]

theorem Combines.merge {entries : List Team} {t : Team} (h : t.Combines entries) (new : Team) :
    (t.merge new).Combines (entries ++ [new]) where
  slackChannel := by
    rw [lastSet_map_concat, ← h.slackChannel]
    rfl
  lead := by
    rw [lastSet_map_concat, ← h.lead]
    rfl
  managers := by
    rw [lastSet_map_concat, ← h.managers]
    rfl
  group := by
    rw [lastSet_map_concat, ← h.group]
    rfl
  components := by
    rw [lastSet_map_concat, ← h.components]
    rfl
  memberCount := by
    rw [lastSet_map_concat, ← h.memberCount]
    rfl
  subcomponents component := by
    rw [getLast?_filterMap_concat, ← h.subcomponents]
    exact SortedMap.get?_extend _ _ component
  slo metric := by
    rw [getLast?_filterMap_concat, ← h.slo]
    exact SortedMap.get?_extend _ _ metric

end Team

-- ---------------------------------------------------------------------------
-- Configurations
-- ---------------------------------------------------------------------------

namespace OrgConfig

theorem teams_merge (base overlay : OrgConfig) :
    (base.merge overlay).teams = layers Team.name Team.merge base.teams overlay.teams := rfl

theorem releases_merge (base overlay : OrgConfig) :
    (base.merge overlay).releases =
      layers Release.name (fun _ new => new) base.releases overlay.releases := rfl

/-- Over a base without repeated names. A team is what all its entries combine to,
a release is the last of its entries, and an obligation or a title of the
overlay replaces that of the base. -/
theorem merge_layered {base : OrgConfig} (hteams : (base.teams.map (·.name)).Nodup)
    (hreleases : (base.releases.map (·.name)).Nodup) (overlay : OrgConfig) :
    (base.merge overlay).teams.map (·.name) = base.teams.map (·.name) ++
      ((overlay.teams.map (·.name)).filter (· ∉ base.teams.map (·.name))).eraseDups ∧
    ((base.merge overlay).teams.map (·.name)).Nodup ∧
    (∀ t ∈ (base.merge overlay).teams,
      t.Combines ((base.teams ++ overlay.teams).filter (·.name == t.name))) ∧
    (base.merge overlay).releases.map (·.name) = base.releases.map (·.name) ++
      ((overlay.releases.map (·.name)).filter (· ∉ base.releases.map (·.name))).eraseDups ∧
    ((base.merge overlay).releases.map (·.name)).Nodup ∧
    (∀ r ∈ (base.merge overlay).releases,
      ((base.releases ++ overlay.releases).filter (·.name == r.name)).getLast? = some r) ∧
    (∀ metric, (base.merge overlay).slo.get? metric =
      (overlay.slo.get? metric).or (base.slo.get? metric)) ∧
    (base.merge overlay).title = lastSet "" [base.title, overlay.title] := by
  have hteam : ∀ old new : Team, old.name = new.name → (old.merge new).name = new.name :=
    fun _ _ h => h
  have hrelease : ∀ old new : Release, old.name = new.name → new.name = new.name :=
    fun _ _ _ => rfl
  have hmadeTeams := made_layers (R := Team.Combines) hteam Team.combines_singleton
    (fun _ _ new h => h.merge new) hteams overlay.teams
  have hmadeReleases := made_layers (R := fun entries r => entries.getLast? = some r) hrelease
    (fun _ => List.getLast?_singleton) (fun _ _ _ _ => List.getLast?_concat) hreleases
    overlay.releases
  have htitle : lastSet "" [base.title, overlay.title] = (base.merge overlay).title := by
    refine (lastSet_map_concat OrgConfig.title [base] overlay).trans ?_
    rw [List.map_singleton, lastSet_singleton]
    rfl
  rw [teams_merge, releases_merge]
  refine ⟨keys_layers hteam _ _, hmadeTeams.nodup, hmadeTeams.made, keys_layers hrelease _ _,
    hmadeReleases.nodup, hmadeReleases.made, SortedMap.get?_extend _ _, htitle.symm⟩

def platform : OrgConfig where
  title := "Platform"
  teams := [
    { name := "Node", slackChannel := "#node", components := ["Node"], memberCount := 3 },
    { name := "Auth", components := ["Auth"] }]
  releases := [{ name := "4.6", targets := ["4.6.0"] }]

def staffing : OrgConfig where
  teams := [
    { name := "Node", lead := "ann", memberCount := 5 },
    { name := "Storage", components := ["Storage"] },
    { name := "Node", lead := "bob" }]
  releases := [{ name := "4.7" }, { name := "4.6", targets := ["4.6.z"] }]

theorem merge_layered_staffing :
    (platform.teams.map (·.name)).Nodup ∧ (platform.releases.map (·.name)).Nodup ∧
      (platform.merge staffing).teams.map (·.name) = ["Node", "Auth", "Storage"] ∧
      (∀ t ∈ (platform.merge staffing).teams, t.name = "Node" →
        t.slackChannel = "#node" ∧ t.lead = "bob" ∧ t.components = ["Node"] ∧ t.memberCount = 5) ∧
      (∀ r ∈ (platform.merge staffing).releases, r.name = "4.6" → r.targets = ["4.6.z"]) := by
  have hteams : (platform.teams.map (·.name)).Nodup := by decide
  have hreleases : (platform.releases.map (·.name)).Nodup := by decide
  obtain ⟨hnames, -, hmade, -, -, hlast, -⟩ := merge_layered hteams hreleases staffing
  refine ⟨hteams, hreleases, hnames, fun t ht hname => ?_, fun r hr hname => ?_⟩
  · have hcombines := hmade t ht
    rw [hname] at hcombines
    exact ⟨hcombines.slackChannel, hcombines.lead, hcombines.components, hcombines.memberCount⟩
  · have hr := hlast r hr
    rw [hname] at hr
    exact (Option.some.inj hr) ▸ rfl

end OrgConfig

end Triage
