import Mathlib.Data.List.Nodup
import Triage.Proofs.Directory.Ownership

/-!
# Fewer teams

What a pair's owner is does not depend on the other teams being there. A team
that owns a pair still does when others are removed, whether they stood before
or behind it and whatever they claimed; a pair that nobody claims stays unowned.
-/

namespace Triage

variable {teams : List Team} {component subcomponent : String} {t : Team}

theorem Owns.filter (h : Owns teams component subcomponent t) {keep : Team → Bool}
    (hkeep : keep t = true) : Owns (teams.filter keep) component subcomponent t := by
  obtain ⟨before, after, rfl, hclaim⟩ := h
  have hfew {p : Team → Prop} {l : List Team} (hall : ∀ u ∈ l, p u) : ∀ u ∈ l.filter keep, p u :=
    fun u hu => hall u (List.mem_of_mem_filter hu)
  refine ⟨before.filter keep, after.filter keep, by simp [hkeep], ?_⟩
  rcases hclaim with ⟨hexact, hbefore⟩ | ⟨hfallback, hbefore, hnone⟩
  · exact .inl ⟨hexact, hfew hbefore⟩
  · exact .inr ⟨hfallback, hfew hbefore, hfew hnone⟩

theorem Unclaimed.filter (h : Unclaimed teams component subcomponent) (keep : Team → Bool) :
    Unclaimed (teams.filter keep) component subcomponent :=
  fun t ht => h t (List.mem_of_mem_filter ht)

namespace Directory

def without (d : Directory) (removed : Team → Bool) : Directory where
  title := d.title
  teams := d.teams.filter (!removed ·)
  releases := d.releases
  slo := d.slo
  names_nodup := d.names_nodup.sublist (List.filter_sublist.map _)

/-- A pair has an owner or nobody claims it. The owner keeps the pair as long as it
is not removed itself, and an unclaimed pair stays one whichever teams are removed. -/
theorem owner_without (d : Directory) (removed : Team → Bool) (component subcomponent : String) :
    ((∃! t, Owns d.teams component subcomponent t) ∨ Unclaimed d.teams component subcomponent) ∧
    (∀ t, Owns d.teams component subcomponent t → removed t = false →
      Owns (d.without removed).teams component subcomponent t ∧
      (d.without removed).owner component subcomponent = d.owner component subcomponent ∧
      d.owner component subcomponent = t.name) ∧
    (Unclaimed d.teams component subcomponent →
      Unclaimed (d.without removed).teams component subcomponent ∧
      (d.without removed).owner component subcomponent = unknownTeam) := by
  refine ⟨?_, fun t howns hkept => ?_, fun hnone => ?_⟩
  · exact (exists_owns_or_unclaimed d.teams component subcomponent).imp_left
      fun ⟨t, howns⟩ => ⟨t, howns, fun _ => howns.unique⟩
  · have hleft : Owns (d.without removed).teams component subcomponent t :=
      howns.filter (by simp [hkept])
    exact ⟨hleft, hleft.ownerAmong_eq.trans howns.ownerAmong_eq.symm, howns.ownerAmong_eq⟩
  · have hleft := hnone.filter (!removed ·)
    exact ⟨hleft, hleft.ownerAmong_eq⟩

def nodeOwner : Team where
  name := "Node"
  components := ["Node"]
  subcomponents := SortedMap.empty.insert "Node" .fallback

def sharedNode : Directory where
  title := ""
  teams := [
    { name := "Kubelet", components := ["Node"],
      subcomponents := SortedMap.empty.insert "Node" (.listed ["Kubelet"]) },
    nodeOwner,
    { nodeOwner with name := "Spare" }]
  releases := []
  slo := .empty
  names_nodup := by decide

theorem owner_without_nodeOwner :
    Owns sharedNode.teams "Node" "CRI-O" nodeOwner ∧ Unclaimed sharedNode.teams "Docs" "" ∧
      (sharedNode.without (·.name != "Node")).teams = [nodeOwner] ∧
      (sharedNode.without (·.name != "Node")).owner "Node" "CRI-O" =
        sharedNode.owner "Node" "CRI-O" ∧
      sharedNode.owner "Node" "CRI-O" = "Node" ∧
      (sharedNode.without (·.name != "Node")).owner "Docs" "" = unknownTeam := by
  have howns : Owns sharedNode.teams "Node" "CRI-O" nodeOwner :=
    ⟨sharedNode.teams.take 1, sharedNode.teams.drop 2, rfl, .inr (by decide)⟩
  have hnone : Unclaimed sharedNode.teams "Docs" "" := by
    rw [Unclaimed]
    decide
  obtain ⟨-, howned, -⟩ := sharedNode.owner_without (·.name != "Node") "Node" "CRI-O"
  obtain ⟨-, hsame, hname⟩ := howned nodeOwner howns (by decide)
  have hdocs := (sharedNode.owner_without (·.name != "Node") "Docs" "").2.2 hnone
  exact ⟨howns, hnone, by decide, hsame, hname, hdocs.2⟩

end Directory

end Triage
