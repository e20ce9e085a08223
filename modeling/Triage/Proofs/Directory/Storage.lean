import Triage.Proofs.Directory.Load
import Triage.Proofs.OrgConfig.Storage

/-!
# The storage form of a directory

A directory with a team that was read from a JSON text, in either form, is read
back from the text of its storage form, provided that the counts of its
obligations are read back from their digits. Being the same directory it has
the same owners and the same digest.

The counts are an assumption because the digits are read in two roundings, to
64 bits and from there to 32. Every other part is read back whatever it is.
-/

namespace Triage.Directory

def obligations (d : Directory) : List Obligation :=
  d.slo.values ++ d.teams.flatMap (·.slo.values)

theorem mem_of_mem_load {c : OrgConfig} {d : Directory} (h : load c = .ok d) {t : Team}
    (ht : t ∈ d.teams) : t ∈ c.teams := by
  rw [teams_of_load h] at ht
  exact (List.mem_filter.mp ht).1

theorem ofJsonText_eq_ok_iff {text : String} {d : Directory} :
    ofJsonText text = .ok d ↔ ∃ c, OrgConfig.ofJsonText? text = some c ∧ load c = .ok d := by
  rw [ofJsonText]
  constructor
  · intro h
    split at h
    · rename_i c hc
      exact ⟨c, hc, h⟩
    · cases h
  · rintro ⟨c, hc, h⟩
    rw [hc]
    exact h

/-- What was read can be stored, but for counts that are not read back. -/
theorem storable_toConfig {text : String} {d : Directory} (h : ofJsonText text = .ok d)
    (hcounts : ∀ o ∈ d.obligations, o.CountReadsBack) : d.toConfig.Storable := by
  obtain ⟨c, hc, hload⟩ := ofJsonText_eq_ok_iff.mp h
  refine ⟨fun t ht => ⟨?_, fun o ho => hcounts o ?_⟩, fun o ho => hcounts o ?_⟩
  · exact OrgConfig.scopesCanonical_of_ofJsonText? hc t (mem_of_mem_load hload ht)
  · exact List.mem_append_right _ (List.mem_flatMap.mpr ⟨t, ht, ho⟩)
  · exact List.mem_append_left _ ho

/-- The text of the storage form is read as the directory it was made of, and
never taken for the keyed form. -/
theorem ofJsonText_storage {text : String} {d : Directory} (h : ofJsonText text = .ok d)
    (hne : d.teams ≠ []) (hcounts : ∀ o ∈ d.obligations, o.CountReadsBack) :
    ofJsonText d.storage = .ok d ∧ (Json.read? d.storage).bind KeyedOrgConfig.read? = none := by
  obtain ⟨c, -, hload⟩ := ofJsonText_eq_ok_iff.mp h
  have hstorable := storable_toConfig h hcounts
  constructor
  · exact ofJsonText_eq_ok_iff.mpr ⟨d.toConfig, hstorable.ofJsonText?_compact,
      load_toConfig hload hne⟩
  · rw [storage, hstorable.read?_compact]
    exact d.toConfig.keyed_read?_toJson

def keyedText : String :=
  "\x7b\"orgTitle\":\"A \\\"b\\\"\\n\",\"teams\":\x7b\"Node\":\x7b\"components\":[\"Node\"]," ++
    "\"subcomponents\":\x7b\"Node\":[\"!!DEFAULT!!\"]\x7d,\"memberCount\":5\x7d," ++
    "\"Old\":\x7b\"components\":[\"!!IGNORE!!\"]\x7d\x7d," ++
    "\"releases\":\x7b\"4.9\":\x7b\"milestones\":\x7b\"ga\":\"May\"\x7d\x7d\x7d," ++
    "\"slo\":\x7b\"total\":\x7b\"count\":0.1\x7d\x7d\x7d"

def keyedDirectory : Directory where
  title := "A \"b\"\n"
  teams := [
    { name := "Node", components := ["Node"],
      subcomponents := SortedMap.empty.insert "Node" .fallback, memberCount := 5 }]
  releases := [{ name := "4.9", milestones := some { ga := "May" } }]
  slo := SortedMap.empty.insert "total" ⟨.finite false 13421773 (-27), false⟩
  names_nodup := by decide

theorem ofJsonText_storage_keyedText :
    ofJsonText keyedText = .ok keyedDirectory ∧ keyedDirectory.teams ≠ [] ∧
      (∀ o ∈ keyedDirectory.obligations, o.CountReadsBack) ∧
      ofJsonText keyedDirectory.storage = .ok keyedDirectory ∧
      (Json.read? keyedDirectory.storage).bind KeyedOrgConfig.read? = none := by
  have hread : ofJsonText keyedText = .ok keyedDirectory := by decide +kernel
  have hne : keyedDirectory.teams ≠ [] := by decide
  have hcounts : ∀ o ∈ keyedDirectory.obligations, o.CountReadsBack := by decide +kernel
  exact ⟨hread, hne, hcounts, ofJsonText_storage hread hne hcounts⟩

end Triage.Directory
