import Mathlib.Algebra.BigOperators.Group.List.Basic
import Mathlib.Algebra.GroupWithZero.Nat
import Mathlib.Data.List.Induction
import Mathlib.Data.List.Nodup
import Triage.BugMap
import Triage.Proofs.SortedMap
import Triage.Proofs.Directory.Ownership

/-!
# Grouping loses nothing

`Groups` says that a map holds the bugs of a list under the keys a function
gives them, each bucket in the order of the list. Both maps of the library are
such groupings: by owning team, where every team has a bucket, and by assignee.
-/

namespace Triage.BugMap

/-- `m` holds the bugs of a list under the keys that `key` gives them. -/
structure Groups (m : BugMap) (key : Bug → String) (bugs : List Bug) : Prop where
  bucket : ∀ k, m.bugs k = bugs.filter (key · == k)
  covers : ∀ b ∈ bugs, key b ∈ m.keys

section Groups

variable {m : BugMap} {key : Bug → String} {bugs : List Bug}

theorem Groups.mem_bugs_iff (h : m.Groups key bugs) {b : Bug} {k : String} :
    b ∈ m.bugs k ↔ b ∈ bugs ∧ key b = k := by
  rw [h.bucket, List.mem_filter, beq_iff_eq]

theorem values_eq (m : BugMap) : m.buckets.values = m.keys.map m.bugs :=
  m.buckets.values_eq_map_keys

theorem flatMap_filter_perm {α : Type} (key : α → String) {ks : List String} (hk : ks.Nodup)
    {l : List α} (h : ∀ x ∈ l, key x ∈ ks) :
    (ks.flatMap fun k => l.filter (key · == k)).Perm l := by
  induction ks generalizing l with
  | nil =>
    have : l = [] := List.eq_nil_iff_forall_not_mem.mpr fun x hx => by simpa using h x hx
    simp [this]
  | cons k ks ih =>
    obtain ⟨hk, hks⟩ := List.nodup_cons.mp hk
    -- The other buckets are those of what the first one leaves over.
    have hrest : (ks.flatMap fun k' => l.filter (key · == k')) =
        ks.flatMap fun k' => (l.filter (!key · == k)).filter (key · == k') := by
      refine List.flatMap_congr fun k' hk' => ?_
      rw [List.filter_filter]
      refine List.filter_congr fun x _ => ?_
      by_cases hx : key x = k'
      · have hne : k' ≠ k := fun he => hk (he ▸ hk')
        simp [hx, hne]
      · simp [hx]
    have hcover : ∀ x ∈ l.filter (!key · == k), key x ∈ ks := by
      intro x hx
      obtain ⟨hx, hne⟩ := List.mem_filter.mp hx
      rcases List.mem_cons.mp (h x hx) with he | hm
      · simp [he] at hne
      · exact hm
    rw [List.flatMap_cons, hrest]
    exact ((ih hks hcover).append_left _).trans (List.filter_append_perm _ l)

theorem Groups.flatten_perm (h : m.Groups key bugs) : m.buckets.values.flatten.Perm bugs := by
  have hv : m.buckets.values.flatten = m.keys.flatMap fun k => bugs.filter (key · == k) := by
    rw [values_eq, List.flatMap, List.map_congr_left fun k _ => h.bucket k]
  rw [hv]
  exact flatMap_filter_perm key m.buckets.keys_nodup h.covers

theorem Groups.sum_length (h : m.Groups key bugs) :
    (m.buckets.values.map List.length).sum = bugs.length := by
  rw [← List.length_flatten]
  exact h.flatten_perm.length_eq

end Groups

-- ---------------------------------------------------------------------------
-- The maps
-- ---------------------------------------------------------------------------

/-- Filing bugs one by one adds each to the bucket of its key. -/
theorem buckets_foldl_file (key : Bug → String) (bugs : List Bug) (m : BugMap) :
    (bugs.foldl (fun m b => m.file (key b) b) m).buckets =
      SortedMap.fileAll key id bugs m.buckets := by
  induction bugs generalizing m with
  | nil => rfl
  | cons b rest ih => exact ih (m.file (key b) b)

def seeded (d : Directory) : SortedMap String (List Bug) :=
  (SortedMap.ofList (d.teams.map fun t => (t.name, []))).insert unknownTeam []

theorem buckets_byTeam (d : Directory) (bugs : List Bug) :
    (byTeam d bugs).buckets = SortedMap.fileAll d.ownerOf id bugs (seeded d) := by
  rw [byTeam, buckets_foldl_file, seeded, SortedMap.ofList, List.foldl_map]

theorem getD_get?_seeded (d : Directory) (k : String) : ((seeded d).get? k).getD [] = [] := by
  rw [seeded, SortedMap.get?_insert]
  split
  · rfl
  · cases h : (SortedMap.ofList (d.teams.map fun t => (t.name, ([] : List Bug)))).get? k with
    | none => rfl
    | some bucket =>
      have hm := SortedMap.mem_of_mem_ofList ((SortedMap.mem_entries_iff _).mpr h)
      obtain ⟨t, -, he⟩ := List.mem_map.mp hm
      cases he
      rfl

theorem mem_keys_seeded_iff (d : Directory) (k : String) :
    k ∈ (seeded d).keys ↔ k ∈ d.order ∨ k = unknownTeam := by
  rw [SortedMap.mem_keys_iff, seeded, SortedMap.get?_insert]
  by_cases hk : k = unknownTeam
  · simp [hk]
  · rw [if_neg hk, ← SortedMap.mem_keys_iff, SortedMap.mem_keys_ofList_iff]
    simp [hk, Directory.order]

theorem mem_keys_byTeam_iff (d : Directory) (bugs : List Bug) (k : String) :
    k ∈ (byTeam d bugs).keys ↔ k ∈ d.order ∨ k = unknownTeam := by
  rw [keys, buckets_byTeam, SortedMap.mem_keys_fileAll_iff, mem_keys_seeded_iff]
  constructor
  · rintro (h | ⟨b, -, rfl⟩)
    · exact h
    · exact d.ownerOf_mem b
  · exact .inl

theorem byTeam_groups (d : Directory) (bugs : List Bug) :
    (byTeam d bugs).Groups d.ownerOf bugs where
  bucket k := by
    rw [BugMap.bugs, buckets_byTeam, SortedMap.getD_get?_fileAll, getD_get?_seeded]
    simp
  covers b _ := (mem_keys_byTeam_iff d bugs _).mpr (d.ownerOf_mem b)

theorem mem_keys_byAssignee_iff (bugs : List Bug) (k : String) :
    k ∈ (byAssignee bugs).keys ↔ ∃ b ∈ bugs, b.assignedTo = k := by
  rw [keys, byAssignee, buckets_foldl_file, SortedMap.mem_keys_fileAll_iff, SortedMap.mem_keys_iff]
  simp

theorem byAssignee_groups (bugs : List Bug) : (byAssignee bugs).Groups (·.assignedTo) bugs where
  bucket k := by
    rw [BugMap.bugs, byAssignee, buckets_foldl_file, SortedMap.getD_get?_fileAll]
    simp
  covers b hb := (mem_keys_byAssignee_iff bugs _).mpr ⟨b, hb, rfl⟩

-- ---------------------------------------------------------------------------
-- Tallies
-- ---------------------------------------------------------------------------

theorem tally_concat (f : Bug → String) (bugs : List Bug) (b : Bug) :
    tally f (bugs ++ [b]) = (tally f bugs).alter (f b) fun n => n.getD 0 + 1 := by
  simp [tally]

theorem sum_values_tally (f : Bug → String) (bugs : List Bug) :
    (tally f bugs).values.sum = bugs.length := by
  induction bugs using List.reverseRecOn with
  | nil => rfl
  | append_singleton bugs b ih =>
    rw [tally_concat, SortedMap.sum_values_alter_succ, ih, List.length_append, List.length_singleton]

/-- The map by team has a bucket for every team and one for unowned bugs, and
no other. A bucket lists, in order and as often as they occur, the bugs owned
under its key, so every bug is in exactly one. The map by assignee is the same
for the assignees that occur. -/
theorem buckets_partition (d : Directory) (bugs : List Bug) :
    (∀ k, k ∈ (byTeam d bugs).keys ↔ k ∈ d.order ∨ k = unknownTeam) ∧
    (∀ k, (byTeam d bugs).bugs k = bugs.filter (d.ownerOf · == k)) ∧
    (∀ b ∈ bugs, ∃ k ∈ (byTeam d bugs).keys, ∀ k', b ∈ (byTeam d bugs).bugs k' ↔ k' = k) ∧
    (byTeam d bugs).buckets.values.flatten.Perm bugs ∧
    ((byTeam d bugs).buckets.values.map List.length).sum = bugs.length ∧
    (∀ k, k ∈ (byAssignee bugs).keys ↔ ∃ b ∈ bugs, b.assignedTo = k) ∧
    (∀ k, (byAssignee bugs).bugs k = bugs.filter (·.assignedTo == k)) := by
  have hteam := byTeam_groups d bugs
  refine ⟨mem_keys_byTeam_iff d bugs, hteam.bucket, ?_, hteam.flatten_perm, hteam.sum_length,
    mem_keys_byAssignee_iff bugs, (byAssignee_groups bugs).bucket⟩
  intro b hb
  refine ⟨d.ownerOf b, hteam.covers b hb, fun k' => ?_⟩
  rw [hteam.mem_bugs_iff]
  exact ⟨fun h => h.2.symm, fun h => ⟨hb, h.symm⟩⟩

end Triage.BugMap

namespace Triage.BugSet

variable (s : BugSet) (d : Directory) (k : String)

theorem bugs_teamMap : (s.teamMap d).bugs k = s.bugs.filter (d.ownerOf · == k) :=
  (BugMap.byTeam_groups d s.bugs).bucket k

theorem bugs_teamMap_filter (p : Bug → Bool) :
    ((s.filter p).teamMap d).bugs k = ((s.teamMap d).bugs k).filter p := by
  rw [bugs_teamMap, bugs_teamMap, filter, List.filter_filter, List.filter_filter]
  exact List.filter_congr fun b _ => Bool.and_comm _ _

end Triage.BugSet
