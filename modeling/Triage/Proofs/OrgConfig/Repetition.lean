import Triage.Proofs.OrgConfig.Stacking

/-!
# The same overlay again

An overlay may repeat names. Laid over its own result, its early entries then
meet what later ones have set, yet nothing changes. For entries of one name
amount to one (`layers_collapsed`), so the overlay may be taken to name
everything once; two such passes are one pass of the overlay laid over itself
(`layers_layers`), and that is the overlay (`layers_self`).
-/

namespace Triage

theorem Team.merge_self (t : Team) : t.merge t = t := by
  apply Team.ext
  case name => rfl
  case slackChannel => exact ite_self _
  case lead => exact ite_self _
  case managers => exact ite_self _
  case group => exact ite_self _
  case components => exact ite_self _
  case subcomponents => exact SortedMap.extend_self _
  case memberCount => exact ite_self _
  case slo => exact SortedMap.extend_self _

namespace OrgConfig

section Layers

variable {α : Type} {key : α → String} {change : α → α → α} {l news : List α} {x : α}

-- ---------------------------------------------------------------------------
-- Entries that are there already
-- ---------------------------------------------------------------------------

section Same

variable (hself : ∀ x, change x x = x)
include hself

theorem layer_of_mem (h : (l.map key).Nodup) (hx : x ∈ l) : layer key change l x = l := by
  obtain ⟨before, old, after, rfl, hold, heq⟩ | ⟨hnew, -⟩ := layer_cases key change l x
  · obtain rfl : old = x := List.inj_on_of_nodup_map h (by simp) hx hold
    rw [heq, hself]
  · exact absurd (List.mem_map.mpr ⟨x, hx, rfl⟩) hnew

theorem layers_of_subset (h : (l.map key).Nodup) (hnews : news ⊆ l) :
    layers key change l news = l := by
  induction news with
  | nil => rfl
  | cons x rest ih =>
    obtain ⟨hx, hrest⟩ := List.cons_subset.mp hnews
    rw [layers_cons, layer_of_mem hself h hx]
    exact ih hrest

theorem layers_self (h : (l.map key).Nodup) : layers key change l l = l :=
  layers_of_subset hself h (List.Subset.refl l)

end Same

-- ---------------------------------------------------------------------------
-- Entries of one name put together
-- ---------------------------------------------------------------------------

variable (hkey : ∀ old new, key old = key new → key (change old new) = key new)
include hkey

theorem nodup_layers (h : (l.map key).Nodup) (news : List α) :
    ((layers key change l news).map key).Nodup := by
  induction news generalizing l with
  | nil => exact h
  | cons x rest ih => exact ih (nodup_layer hkey h x)

variable (hchange : ∀ a b c, change (change a b) c = change a (change b c))
include hchange

/-- Entries that repeat names do what they amount to when they are put together first. -/
theorem layers_collapsed (l news : List α) :
    layers key change l (layers key change [] news) = layers key change l news :=
  layers_layers hkey hchange (by simp) l news

variable (hself : ∀ x, change x x = x)
include hself

theorem layers_again (l news : List α) :
    layers key change (layers key change l news) news = layers key change l news := by
  have hnodup : ((layers key change [] news).map key).Nodup :=
    nodup_layers hkey (by simp) news
  have hcollapsed (l : List α) :
      layers key change l (layers key change [] news) = layers key change l news :=
    layers_collapsed hkey hchange l news
  generalize layers key change [] news = once at hnodup hcollapsed
  calc layers key change (layers key change l news) news
      = layers key change (layers key change l once) once := by rw [hcollapsed, hcollapsed]
    _ = layers key change l (layers key change once once) :=
        (layers_layers hkey hchange hnodup l once).symm
    _ = layers key change l once := by rw [layers_self hself hnodup]
    _ = layers key change l news := hcollapsed l

end Layers

/-- An overlay laid over its own result changes nothing, whichever names the
configurations repeat. -/
theorem merge_again (base overlay : OrgConfig) :
    (base.merge overlay).merge overlay = base.merge overlay := by
  have hteam : ∀ old new : Team, old.name = new.name → (old.merge new).name = new.name :=
    fun _ _ h => h
  have hrelease : ∀ old new : Release, old.name = new.name → new.name = new.name :=
    fun _ _ _ => rfl
  apply OrgConfig.ext
  case title =>
    refine (prefer_assoc "" base.title overlay.title overlay.title).trans ?_
    rw [ite_self]
    rfl
  case teams =>
    simp only [teams_merge]
    exact layers_again hteam Team.merge_assoc Team.merge_self _ _
  case releases =>
    simp only [releases_merge]
    exact layers_again hrelease (fun _ _ _ => rfl) (fun _ => rfl) _ _
  case slo =>
    refine (SortedMap.extend_assoc base.slo overlay.slo overlay.slo).trans ?_
    rw [SortedMap.extend_self]
    rfl

end OrgConfig

end Triage
