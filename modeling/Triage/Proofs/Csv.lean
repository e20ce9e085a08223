import Triage.Proofs.BugMap
import Triage.Proofs.Csv.Reader

/-!
# Which tables are read back

The statistics of the sprint quote their names and are read back whatever commas
and quotes these hold. The counts by team write every name as it is, and are
read back exactly when no name needs quotes.
-/

namespace Triage.Csv

open Reader (ready)

variable {strict : Bool}

-- ---------------------------------------------------------------------------
-- Counts by team
-- ---------------------------------------------------------------------------

def countRecord (key : String) (n : Nat) : List String := [key, toString n]

section Counts

variable {key : String} {n : Nat} {lines records : List (List (List Char))}

theorem run_count_iff {rest : List Char} :
    (ready [] lines).run strict ((line [key, number n]).toList ++ rest) =
        some (lines ++ (countRecord key n).map String.toList :: records) ↔
      Bare strict key.toList ∧
      (ready [] (lines ++ [(countRecord key n).map String.toList])).run strict rest =
        some (lines ++ [(countRecord key n).map String.toList] ++ records) := by
  have hrecords : lines ++ (countRecord key n).map String.toList :: records =
      lines ++ [(countRecord key n).map String.toList] ++ records := by simp
  have hrun (hkey : Bare strict key.toList) :
      (ready [] lines).run strict ((line [key, number n]).toList ++ rest) =
        (ready [] (lines ++ [(countRecord key n).map String.toList])).run strict rest :=
    run_line (.cons hkey.readsAs (.cons (readsAs_number n) .nil)) (by simp)
  constructor
  · intro h
    have htext : (line [key, number n]).toList ++ rest =
        key.toList ++ ',' :: ((number n).toList ++ '\n' :: rest) := by
      simp [line, String.intercalate_cons_cons]
    have hkey : Bare strict key.toList := by
      rw [htext] at h
      exact bare_of_run h
    exact ⟨hkey, by rw [← hrun hkey, h, hrecords]⟩
  · rintro ⟨hkey, hrest⟩
    rw [hrun hkey, hrest, hrecords]

theorem run_counts_iff (strict : Bool) (counts : List (String × Nat))
    (lines : List (List (List Char))) :
    (ready [] lines).run strict (counts.flatMap fun e => (line [e.1, number e.2]).toList) =
        some (lines ++ counts.map fun e => (countRecord e.1 e.2).map String.toList) ↔
      ∀ e ∈ counts, Bare strict e.1.toList := by
  induction counts generalizing lines with
  | nil => simp [ready, Reader.run, Reader.finish]
  | cons e counts ih =>
    rw [List.flatMap_cons, List.map_cons, run_count_iff, ih, List.forall_mem_cons]

end Counts

theorem toList_bugsPerTeam (map : BugMap) :
    (bugsPerTeam map).toList =
      (map.keys.map fun k => (k, (map.bugs k).length)).flatMap
        fun e => (line [e.1, number e.2]).toList := by
  have hentries : map.buckets.entries = map.keys.map fun k => (k, map.bugs k) :=
    SortedMap.entries_eq_map_keys _
  simp [bugsPerTeam, hentries, List.flatMap_map]

theorem read_counts_iff (map : BugMap) :
    read strict (bugsPerTeam map) =
        some (map.keys.map fun k => countRecord k (map.bugs k).length) ↔
      ∀ k ∈ map.keys, Bare strict k.toList := by
  rw [read_eq_some_iff, toList_bugsPerTeam]
  simpa [Function.comp_def] using
    run_counts_iff strict (map.keys.map fun k => (k, (map.bugs k).length)) []

theorem bare_unknownTeam : Bare strict unknownTeam.toList :=
  .of_not_mem (by decide) (by decide) (by decide) (by decide)

/-- The table by team is read back as one record for each key, sorted, with the key and
the number of its bugs, exactly when no team has a name that needs quotes. -/
theorem read_bugsPerTeam_iff (strict : Bool) (d : Directory) (s : BugSet) :
    (read strict (bugsPerTeam (s.teamMap d)) =
        some ((s.teamMap d).keys.map fun k => countRecord k ((s.teamMap d).bugs k).length) ↔
      ∀ t ∈ d.teams, Bare strict t.name.toList) ∧
    (s.teamMap d).keys.Pairwise (· < ·) ∧
    ∀ k, k ∈ (s.teamMap d).keys ↔ k ∈ d.order ∨ k = unknownTeam := by
  have hkeys (k : String) : k ∈ (s.teamMap d).keys ↔ k ∈ d.order ∨ k = unknownTeam :=
    BugMap.mem_keys_byTeam_iff d s.bugs k
  refine ⟨?_, SortedMap.keys_pairwise _, hkeys⟩
  rw [read_counts_iff]
  constructor
  · intro h t ht
    exact h t.name ((hkeys _).mpr (.inl (List.mem_map.mpr ⟨t, ht, rfl⟩)))
  · intro h k hk
    rcases (hkeys k).mp hk with hteam | rfl
    · obtain ⟨t, ht, rfl⟩ := List.mem_map.mp hteam
      exact h t ht
    · exact bare_unknownTeam

def commaDirectory : Directory where
  title := ""
  teams := [{ name := "Storage, CSI", components := ["Storage"] }]
  releases := []
  slo := .empty
  names_nodup := by decide

/-- The name falls apart into two fields, and the count becomes a third. -/
theorem read_bugsPerTeam_comma :
    let map := BugSet.teamMap ⟨[{ id := 1, components := ["Storage"] }]⟩ commaDirectory
    Directory.load { teams := commaDirectory.teams } = .ok commaDirectory ∧
      map.keys = ["Storage, CSI", "unknown"] ∧
      ∀ strict, read strict (bugsPerTeam map) = some [["Storage", " CSI", "1"], ["unknown", "0"]] ∧
        read strict (bugsPerTeam map) ≠
          some (map.keys.map fun k => countRecord k (map.bugs k).length) := by
  decide +kernel

-- ---------------------------------------------------------------------------
-- Statistics of the sprint
-- ---------------------------------------------------------------------------

def Unbroken (text : String) : Prop := '\n' ∉ text.toList ∧ '\r' ∉ text.toList

instance (text : String) : Decidable (Unbroken text) := by
  unfold Unbroken
  infer_instance

def sprintRecord (map : BugMap) (t : Team) : List String :=
  [t.name, toString (map.bugs t.name).length,
    toString ((map.bugs t.name).countP (·.hasKeyword "UpcomingSprint")),
    String.intercalate "," t.managers]

theorem run_sprintLine {map : BugMap} {t : Team} (hname : Unbroken t.name)
    (hmanagers : ∀ m ∈ t.managers, Unbroken m) {lines : List (List (List Char))} {rest : List Char} :
    (ready [] lines).run strict ((sprintLine map t).toList ++ rest) =
      (ready [] (lines ++ [(sprintRecord map t).map String.toList])).run strict rest := by
  have hfeed : '\n' ∉ (String.intercalate "," t.managers).toList :=
    Text.not_mem_intercalate (by decide) fun m hm => (hmanagers m hm).1
  have hreturn : '\r' ∉ (String.intercalate "," t.managers).toList :=
    Text.not_mem_intercalate (by decide) fun m hm => (hmanagers m hm).2
  exact run_line (.cons (readsAs_field hname.1 hname.2) (.cons (readsAs_number _)
    (.cons (readsAs_number _) (.cons (readsAs_field hfeed hreturn) .nil)))) (by simp)

theorem run_sprintLines {map : BugMap} {teams : List Team}
    (h : ∀ t ∈ teams, Unbroken t.name ∧ ∀ m ∈ t.managers, Unbroken m)
    {lines : List (List (List Char))} :
    (ready [] lines).run strict (teams.flatMap fun t => (sprintLine map t).toList) =
      some (lines ++ teams.map fun t => (sprintRecord map t).map String.toList) := by
  induction teams generalizing lines with
  | nil => simp [ready, Reader.run, Reader.finish]
  | cons t teams ih =>
    obtain ⟨⟨hname, hmanagers⟩, hteams⟩ := List.forall_mem_cons.mp h
    rw [List.flatMap_cons, run_sprintLine hname hmanagers, ih hteams]
    simp

/-- The statistics of the sprint are read back as the names of the columns and one record
for each team, in directory order. -/
theorem read_sprintStats (strict : Bool) (d : Directory) (map : BugMap)
    (h : ∀ t ∈ d.teams, Unbroken t.name ∧ ∀ m ∈ t.managers, Unbroken m) :
    read strict (sprintStats d map) =
      some (["Name", "AllBugs", "UpcomingSprintBugs", "Managers"] ::
        d.teams.map fun t => [t.name, toString (map.bugs t.name).length,
          toString ((map.bugs t.name).countP (·.hasKeyword "UpcomingSprint")),
          String.intercalate "," t.managers]) := by
  have hplain : ∀ name ∈ sprintHeader.map String.toList,
      ',' ∉ name ∧ '\n' ∉ name ∧ '\r' ∉ name ∧ '"' ∉ name := by decide
  have hheader : List.Forall₂ (ReadsAs strict) (sprintHeader.map String.toList)
      (sprintHeader.map String.toList) := by
    refine List.forall₂_same.mpr fun name hname => ?_
    obtain ⟨hcomma, hfeed, hreturn, hquote⟩ := hplain name hname
    exact (Bare.of_not_mem hcomma hfeed hreturn hquote).readsAs
  rw [read_eq_some_iff, sprintStats, String.toList_append, run_line hheader (by simp [sprintHeader]),
    String.toList_join, List.flatMap_map, run_sprintLines h]
  simp [sprintHeader, sprintRecord, Function.comp_def]

def quotingDirectory : Directory where
  title := ""
  teams := [
    { name := "Storage, \"CSI\"", components := ["CSI"], managers := ["ann, \"bob\"", " cid "] },
    { name := "\"Node", components := ["Node"], managers := [] },
    { name := "Docs", components := ["Docs"], managers := ["", ""] }]
  releases := []
  slo := .empty
  names_nodup := by decide

theorem read_sprintStats_quoting :
    let bugs : BugSet := ⟨[{ id := 1, components := ["Node"], keywords := ["UpcomingSprint"] },
      { id := 2, components := ["CSI"] }, { id := 3, components := ["Node"] }]⟩
    (∀ t ∈ quotingDirectory.teams, Unbroken t.name ∧ ∀ m ∈ t.managers, Unbroken m) ∧
      read true (sprintStats quotingDirectory (bugs.teamMap quotingDirectory)) = some [
        ["Name", "AllBugs", "UpcomingSprintBugs", "Managers"],
        ["Storage, \"CSI\"", "1", "0", "ann, \"bob\", cid "],
        ["\"Node", "2", "1", ""],
        ["Docs", "0", "0", ","]] := by
  intro bugs
  have hnames : ∀ t ∈ quotingDirectory.teams, Unbroken t.name ∧ ∀ m ∈ t.managers, Unbroken m := by
    decide
  refine ⟨hnames, ?_⟩
  rw [read_sprintStats true quotingDirectory _ hnames]
  decide +kernel

end Triage.Csv
