import Mathlib.Data.List.Dedup
import Triage.Proofs.BugMap

/-!
# Counts and breakdowns agree

A breakdown of a bucket is a tally of its bugs by one of their fields. The
tally has an entry for every value that occurs, with how often it does
(`get?_tally_eq_some_iff`), so its entries add up to the bucket, and those of
some of the values to the bugs that have one of them (`countP_contains`).
-/

namespace Triage.BugMap

variable {f : Bug → String} {bugs : List Bug}

theorem getD_get?_tally (f : Bug → String) (bugs : List Bug) (value : String) :
    ((tally f bugs).get? value).getD 0 = bugs.countP (f · == value) := by
  induction bugs using List.reverseRecOn with
  | nil => rfl
  | append_singleton bugs b ih =>
    rw [tally_concat, SortedMap.get?_alter]
    by_cases hb : f b = value
    · subst hb
      simp [ih, List.countP_append]
    · have hne : ¬ value = f b := fun h => hb h.symm
      simp [ih, hb, hne, List.countP_append]

theorem mem_keys_tally_iff {value : String} :
    value ∈ (tally f bugs).keys ↔ ∃ b ∈ bugs, f b = value := by
  induction bugs using List.reverseRecOn with
  | nil => simp [tally, SortedMap.keys, SortedMap.empty]
  | append_singleton bugs b ih =>
    rw [SortedMap.mem_keys_iff] at ih ⊢
    rw [tally_concat, SortedMap.get?_alter]
    by_cases hb : f b = value
    · subst hb
      simp
    · have hne : ¬ value = f b := fun h => hb h.symm
      simp [ih, hb, hne]

theorem get?_tally_eq_some_iff {value : String} {n : Nat} :
    (tally f bugs).get? value = some n ↔ 0 < n ∧ n = bugs.countP (f · == value) := by
  have hcount := getD_get?_tally f bugs value
  have hoccurs : ((tally f bugs).get? value).isSome ↔ 0 < bugs.countP (f · == value) := by
    rw [← SortedMap.mem_keys_iff, mem_keys_tally_iff]
    simp [List.countP_pos_iff]
  rw [← hcount] at hoccurs ⊢
  cases h : (tally f bugs).get? value with
  | none =>
    constructor
    · rintro ⟨⟩
    · rintro ⟨hn, rfl⟩
      exact absurd hn (Nat.lt_irrefl 0)
  | some k =>
    simp only [h, Option.isSome_some, Option.getD_some, true_iff, Option.some.injEq] at hoccurs ⊢
    constructor
    · rintro rfl
      exact ⟨hoccurs, rfl⟩
    · exact fun hn => hn.2.symm

theorem countP_contains (f : Bug → String) (bugs : List Bug) (values : List String) :
    bugs.countP (fun b => values.contains (f b)) =
      (values.dedup.map fun value => ((tally f bugs).get? value).getD 0).sum := by
  let chosen := bugs.filter fun b => values.contains (f b)
  have hcovered : ∀ b ∈ chosen, f b ∈ values.dedup := by
    intro b hb
    have hvalue := (List.mem_filter.mp hb).2
    rw [List.mem_dedup]
    simpa using hvalue
  have hbucket : ∀ value ∈ values.dedup,
      (chosen.filter (f · == value)).length = ((tally f bugs).get? value).getD 0 := by
    intro value hvalue
    rw [getD_get?_tally, List.filter_filter, List.countP_eq_length_filter]
    congr 1
    refine List.filter_congr fun b _ => ?_
    by_cases hb : f b = value
    · simp [hb, List.mem_dedup.mp hvalue]
    · simp [hb]
  calc bugs.countP (fun b => values.contains (f b))
      = chosen.length := List.countP_eq_length_filter
    _ = (values.dedup.flatMap fun value => chosen.filter (f · == value)).length :=
        (flatMap_filter_perm f values.nodup_dedup hcovered).length_eq.symm
    _ = (values.dedup.map fun value => ((tally f bugs).get? value).getD 0).sum := by
        rw [List.length_flatMap, List.map_congr_left hbucket]

/-- Whatever the key, the entries of a breakdown add up to the bucket, and there
is one for every value that occurs in it, with the number of its bugs. The bugs
with one of some severities are those of the distinct ones together, and every
bug was reviewed in the sprint or was not. -/
theorem counts_balance (m : BugMap) (key : String) :
    (m.severityBreakdown key).values.sum = m.countAll key ∧
    (m.priorityBreakdown key).values.sum = m.countAll key ∧
    (∀ severity, severity ∈ (m.severityBreakdown key).keys ↔
      ∃ b ∈ m.bugs key, b.severity = severity) ∧
    (∀ severity n, (m.severityBreakdown key).get? severity = some n ↔
      0 < n ∧ n = (m.bugs key).countP (·.severity == severity)) ∧
    (∀ priority, priority ∈ (m.priorityBreakdown key).keys ↔
      ∃ b ∈ m.bugs key, b.priority = priority) ∧
    (∀ priority n, (m.priorityBreakdown key).get? priority = some n ↔
      0 < n ∧ n = (m.bugs key).countP (·.priority == priority)) ∧
    (∀ severities, m.countBySeverityIn key severities =
      (severities.dedup.map fun s => ((m.severityBreakdown key).get? s).getD 0).sum) ∧
    m.countReviewedInSprint key + m.countNotReviewedInSprint key = m.countAll key := by
  refine ⟨sum_values_tally _ _, sum_values_tally _ _, fun _ => mem_keys_tally_iff,
    fun _ _ => get?_tally_eq_some_iff, fun _ => mem_keys_tally_iff,
    fun _ _ => get?_tally_eq_some_iff, fun severities => ?_, ?_⟩
  · exact countP_contains (·.severity) (m.bugs key) severities
  · have hsplit := (m.bugs key).length_eq_countP_add_countP Bug.reviewedInSprint
    simpa [countAll, countReviewedInSprint, countNotReviewedInSprint, count] using hsplit.symm

end Triage.BugMap
