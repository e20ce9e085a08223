import Triage.Proofs.OrgConfig.Merge

/-!
# Overlays on overlays

Two overlays may be laid over a configuration one after the other, or put
together first and then laid over it at once. The entries of the second overlay
then meet other lists, and still everything ends up in the same place: two
entries of one name amount to one (`layer_layer_of_key_eq`), and an entry that
finds its name does not mind which entries of other names come before it
(`layer_layers_comm`).

Only the overlay in the middle must not repeat a name. Of two entries of one
name, a later overlay changes the first, and the second would undo that.
-/

namespace Triage

namespace OrgConfig

section Layers

variable {α : Type} {key : α → String} {change : α → α → α} {l news : List α} {x y : α}

theorem layer_cons (x new : α) (rest : List α) :
    layer key change (x :: rest) new =
      if key x = key new then change x new :: rest else x :: layer key change rest new := by
  simp [layer, upsert]

theorem layers_cons (new : α) (l news : List α) :
    layers key change l (new :: news) = layers key change (layer key change l new) news := rfl

theorem layers_append (l news news' : List α) :
    layers key change l (news ++ news') =
      layers key change (layers key change l news) news' :=
  List.foldl_append

variable (hkey : ∀ old new, key old = key new → key (change old new) = key new)
include hkey

-- ---------------------------------------------------------------------------
-- Two entries
-- ---------------------------------------------------------------------------

theorem layer_layer_of_key_eq (hchange : ∀ a b c, change (change a b) c = change a (change b c))
    (h : key x = key y) (l : List α) :
    layer key change (layer key change l x) y = layer key change l (change x y) := by
  have hxy := hkey x y h
  induction l with
  | nil => simp [layer, upsert, h]
  | cons a rest ih =>
    by_cases ha : key a = key x
    · have hax := hkey a x ha
      simp [layer_cons, ha, hax, h, hxy, hchange]
    · have hay : key a ≠ key y := h ▸ ha
      simp [layer_cons, ha, hay, hxy, ih]

theorem layer_layer_comm (hne : key x ≠ key y) (hy : key y ∈ l.map key) :
    layer key change (layer key change l x) y = layer key change (layer key change l y) x := by
  induction l with
  | nil => simp at hy
  | cons a rest ih =>
    by_cases hax : key a = key x
    · have hay : key a ≠ key y := hax ▸ hne
      have hx := hkey a x hax
      simp [layer_cons, hax, hx, hne]
    · by_cases hay : key a = key y
      · have hy := hkey a y hay
        simp [layer_cons, hay, hy, hne.symm]
      · have hrest : key y ∈ rest.map key := by
          rcases List.mem_cons.mp hy with he | hrest
          · exact absurd he.symm hay
          · exact hrest
        simp [layer_cons, hax, hay, ih hrest]

-- ---------------------------------------------------------------------------
-- Lists of entries
-- ---------------------------------------------------------------------------

theorem layer_layers_comm (hy : key y ∈ l.map key) (hne : key y ∉ news.map key) :
    layer key change (layers key change l news) y =
      layers key change (layer key change l y) news := by
  induction news generalizing l with
  | nil => rfl
  | cons x rest ih =>
    simp only [List.map_cons, List.mem_cons, not_or] at hne
    obtain ⟨hxy, hrest⟩ := hne
    have hkept : key y ∈ (layer key change l x).map key := by
      rw [keys_layer hkey]
      split
      · exact hy
      · exact List.mem_append_left _ hy
    rw [layers_cons, ih hkept hrest, layer_layer_comm hkey (Ne.symm hxy) hy, layers_cons]

variable (hchange : ∀ a b c, change (change a b) c = change a (change b c))
include hchange

theorem layers_layer (hnews : (news.map key).Nodup) (l : List α) (x : α) :
    layers key change l (layer key change news x) =
      layer key change (layers key change l news) x := by
  obtain ⟨before, old, after, rfl, hold, heq⟩ | ⟨-, heq⟩ := layer_cases key change news x
  · -- The entries behind the changed one have other names, so the change may wait for them.
    have hafter : key x ∉ after.map key := by
      have hothers := ((List.perm_middle.map key).nodup_iff.mp hnews)
      simp only [List.map_cons, List.nodup_cons, List.map_append, List.mem_append, not_or] at hothers
      exact hold ▸ hothers.1.2
    have hpresent : key x ∈ (layer key change (layers key change l before) old).map key := by
      rw [keys_layer hkey, ← hold]
      split
      · assumption
      · simp
    rw [heq, layers_append, layers_cons, layers_append, layers_cons,
      layer_layers_comm hkey hpresent hafter, layer_layer_of_key_eq hkey hchange hold]
  · rw [heq, layers_append]
    rfl

theorem layers_layers (hnews : (news.map key).Nodup) (l news' : List α) :
    layers key change l (layers key change news news') =
      layers key change (layers key change l news) news' := by
  induction news' generalizing news with
  | nil => rfl
  | cons x rest ih =>
    rw [layers_cons, layers_cons, ih (nodup_layer hkey hnews x),
      layers_layer hkey hchange hnews]

end Layers

end OrgConfig

-- ---------------------------------------------------------------------------
-- Configurations
-- ---------------------------------------------------------------------------

theorem prefer_assoc {α : Type} [DecidableEq α] (empty a b c : α) :
    (if c = empty then if b = empty then a else b else c) =
      if (if c = empty then b else c) = empty then a else if c = empty then b else c := by
  by_cases hc : c = empty <;> simp [hc]

attribute [ext] Team OrgConfig

theorem Team.merge_assoc (t u v : Team) : (t.merge u).merge v = t.merge (u.merge v) := by
  apply Team.ext
  case name => rfl
  case slackChannel => exact prefer_assoc "" _ _ _
  case lead => exact prefer_assoc "" _ _ _
  case managers => exact prefer_assoc [] _ _ _
  case group => exact prefer_assoc "" _ _ _
  case components => exact prefer_assoc [] _ _ _
  case subcomponents => exact SortedMap.extend_assoc _ _ _
  case memberCount => exact prefer_assoc 0 _ _ _
  case slo => exact SortedMap.extend_assoc _ _ _

namespace OrgConfig

/-- Laid over a configuration, two overlays give the same whether one follows the
other or both are put together first, provided that the first repeats no name. -/
theorem merge_merge (base : OrgConfig) {overlay : OrgConfig}
    (hteams : (overlay.teams.map (·.name)).Nodup)
    (hreleases : (overlay.releases.map (·.name)).Nodup) (last : OrgConfig) :
    (base.merge overlay).merge last = base.merge (overlay.merge last) := by
  have hteam : ∀ old new : Team, old.name = new.name → (old.merge new).name = new.name :=
    fun _ _ h => h
  have hrelease : ∀ old new : Release, old.name = new.name → new.name = new.name :=
    fun _ _ _ => rfl
  apply OrgConfig.ext
  case title => exact prefer_assoc "" _ _ _
  case teams =>
    simp only [teams_merge]
    exact (layers_layers hteam Team.merge_assoc hteams _ _).symm
  case releases =>
    simp only [releases_merge]
    exact (layers_layers hrelease (fun _ _ _ => rfl) hreleases _ _).symm
  case slo => exact SortedMap.extend_assoc _ _ _

def repeating : OrgConfig where
  title := "Platform"
  teams := [
    { name := "Node", slackChannel := "#node", components := ["Node"] },
    { name := "Auth", components := ["Auth"] },
    { name := "Node", lead := "eve", components := ["Kubelet"] }]
  releases := [{ name := "4.6", targets := ["4.6.0"] }, { name := "4.6", targets := ["4.6.1"] }]

def renewing : OrgConfig where
  teams := [
    { name := "Storage", components := ["Storage"], managers := ["kim"] },
    { name := "Node", lead := "ann", memberCount := 5 }]
  releases := [{ name := "4.7" }, { name := "4.6", targets := ["4.6.z"] }]
  slo := SortedMap.empty.insert "total" {}

theorem merge_merge_repeating :
    (renewing.teams.map (·.name)).Nodup ∧ (renewing.releases.map (·.name)).Nodup ∧
      (repeating.merge renewing).merge staffing = repeating.merge (renewing.merge staffing) ∧
      ((repeating.merge renewing).merge staffing).teams.map (fun t => (t.name, t.lead)) =
        [("Node", "bob"), ("Auth", ""), ("Node", "eve"), ("Storage", "")] := by
  have hteams : (renewing.teams.map (·.name)).Nodup := by decide
  have hreleases : (renewing.releases.map (·.name)).Nodup := by decide
  exact ⟨hteams, hreleases, repeating.merge_merge hteams hreleases staffing, by decide⟩

end OrgConfig

end Triage
