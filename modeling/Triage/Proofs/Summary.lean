import Triage.Proofs.BugMap
import Triage.Summary

/-!
# What a summary accounts for

A summary takes in its bugs one by one. `Accounts` says what each part of it holds
of the bugs so far: all of them stand in the full list and under their serious
keywords, and the rest is about those that are not stale. One more bug keeps
this, so it holds of all bugs in the end, and the parts agree with the counts
that are made of a map of the same bugs.
-/

namespace Triage.Summary

def idsOf (p : Bug → Bool) (bugs : List Bug) : List UInt64 := (bugs.filter p).map (·.id)

def live (bugs : List Bug) : List Bug := bugs.filter (!·.isStale)

/-- The summary holds what it should of the bugs. -/
structure Accounts (s : Summary) (release : String) (bugs : List Bug) : Prop where
  bugIds : s.bugIds = bugs.map (·.id)
  stale : s.stale = bugs.countP (·.isStale)
  severities : s.severityCounts = BugMap.tally (·.severity) (live bugs)
  priorities : s.priorityCounts = BugMap.tally (·.priority) (live bugs)
  blockers : s.blockerIds = idsOf (·.isBlocker release) (live bugs)
  untriaged : s.untriagedIds = idsOf (·.isUntriaged) (live bugs)
  needsSprintReview : s.needsSprintReviewIds = idsOf (!·.reviewedInSprint) (live bugs)
  post : s.postIds = idsOf (·.status == "POST") (live bugs)
  nonLow : s.nonLowIds = idsOf (!·.isLowPriorityAndSeverity) (live bugs)
  serious : ∀ k, s.seriousKeywordIds.get? k =
    if k ∈ seriousKeywords ∧ ∃ b ∈ bugs, b.hasKeyword k then some (idsOf (·.hasKeyword k) bugs)
    else none

-- ---------------------------------------------------------------------------
-- One more bug
-- ---------------------------------------------------------------------------

variable {s : Summary} {release : String} {seen : List Bug}

theorem idsOf_concat (p : Bug → Bool) (bugs : List Bug) (b : Bug) :
    idsOf p (bugs ++ [b]) = list b (p b) (idsOf p bugs) := by
  cases h : p b <;> simp [idsOf, list, h]

theorem idsOf_eq_nil_iff {p : Bug → Bool} {bugs : List Bug} :
    idsOf p bugs = [] ↔ ∀ b ∈ bugs, ¬ p b = true := by
  simp [idsOf]

theorem get?_fileSerious (b : Bug) (ids : SortedMap String (List UInt64)) (k : String) :
    (fileSerious b ids).get? k =
      if k ∈ seriousKeywords ∧ b.hasKeyword k then some ((ids.get? k).getD [] ++ [b.id])
      else ids.get? k := by
  have hkeys : (seriousKeywords.filter (b.hasKeyword ·)).Nodup := List.Nodup.filter _ (by decide)
  simp [fileSerious, SortedMap.get?_foldl_alter _ hkeys]

theorem Accounts.getD_serious (h : s.Accounts release seen) {k : String}
    (hk : k ∈ seriousKeywords) :
    (s.seriousKeywordIds.get? k).getD [] = idsOf (·.hasKeyword k) seen := by
  rw [h.serious]
  by_cases hseen : ∃ b ∈ seen, b.hasKeyword k
  · simp [hk, hseen]
  · have hnil : idsOf (·.hasKeyword k) seen = [] :=
      idsOf_eq_nil_iff.mpr fun b hb hk => hseen ⟨b, hb, hk⟩
    rw [if_neg (fun h => hseen h.2), hnil, Option.getD_none]

theorem Accounts.serious_concat (h : s.Accounts release seen) (b : Bug) (k : String) :
    (fileSerious b s.seriousKeywordIds).get? k =
      if k ∈ seriousKeywords ∧ ∃ b' ∈ seen ++ [b], b'.hasKeyword k then
        some (idsOf (·.hasKeyword k) (seen ++ [b]))
      else none := by
  rw [get?_fileSerious, idsOf_concat, list]
  by_cases hserious : k ∈ seriousKeywords
  · cases hb : b.hasKeyword k with
    | true => simp [hserious, hb, h.getD_serious hserious]
    | false => simp [hserious, hb, h.serious k]
  · simp [hserious, h.serious k]

theorem Accounts.add (h : s.Accounts release seen) (b : Bug) :
    (s.add release b).Accounts release (seen ++ [b]) := by
  have hserious := h.serious_concat b
  cases hb : b.isStale with
  | true =>
    have hlive : live (seen ++ [b]) = live seen := by simp [live, hb]
    constructor <;> simp [Summary.add, hb, hlive, h.bugIds, h.stale, h.severities, h.priorities,
      h.blockers, h.untriaged, h.needsSprintReview, h.post, h.nonLow, hserious]
  | false =>
    have hlive : live (seen ++ [b]) = live seen ++ [b] := by simp [live, hb]
    constructor <;> simp [Summary.add, hb, hlive, h.bugIds, h.stale, h.severities, h.priorities,
      h.blockers, h.untriaged, h.needsSprintReview, h.post, h.nonLow, hserious, idsOf_concat,
      BugMap.tally_concat]

theorem Accounts.foldl (h : s.Accounts release seen) (bugs : List Bug) :
    (bugs.foldl (Summary.add release) s).Accounts release (seen ++ bugs) := by
  induction bugs generalizing s seen with
  | nil => simpa using h
  | cons b rest ih => simpa using ih (h.add b)

theorem accounts_nil (who release : String) : Accounts { who } release [] := by
  constructor <;> simp [BugMap.tally, live, idsOf]

theorem ofBugs_accounts (who : String) (bugs : List Bug) (release : String) :
    (ofBugs who bugs release).Accounts release bugs :=
  (accounts_nil who release).foldl bugs

-- ---------------------------------------------------------------------------
-- The counts of a map
-- ---------------------------------------------------------------------------

theorem length_idsOf (p : Bug → Bool) (bugs : List Bug) : (idsOf p bugs).length = bugs.countP p := by
  simp [idsOf, List.countP_eq_length_filter]

theorem stale_add_length_live (bugs : List Bug) :
    bugs.countP (·.isStale) + (live bugs).length = bugs.length := by
  rw [List.length_eq_countP_add_countP (·.isStale) (l := bugs)]
  simp [live, List.countP_eq_length_filter]

theorem flatMap_bugIds_ofMap (m : BugMap) (release : String) :
    (ofMap m release).values.flatMap (·.bugIds) = m.buckets.values.flatten.map (·.id) := by
  have hids (who : String) (bugs : List Bug) :
      (ofBugs who bugs release).bugIds = bugs.map (·.id) := (ofBugs_accounts who bugs release).bugIds
  simp [ofMap, SortedMap.values, SortedMap.mapValues, List.flatMap, Function.comp_def, hids]

theorem bugIds_ofMap_perm {m : BugMap} {key : Bug → String} {bugs : List Bug}
    (h : m.Groups key bugs) (release : String) :
    ((ofMap m release).values.flatMap (·.bugIds)).Perm (bugs.map (·.id)) := by
  rw [flatMap_bugIds_ofMap]
  exact h.flatten_perm.map _

/-- A summary accounts for all its bugs, and the stale ones together with those of each
severity are all of them, as are the stale ones with those of each priority. It
agrees with the counts of a map that has the bugs that are not stale under some
key. The summaries of a map by team, or by assignee, list every bug once. -/
theorem ofBugs_complete (who : String) (bugs : List Bug) (release : String) :
    let s := ofBugs who bugs release
    s.Accounts release bugs ∧
    s.stale + s.severityCounts.values.sum = bugs.length ∧
    s.stale + s.priorityCounts.values.sum = bugs.length ∧
    (∀ (m : BugMap) (k : String), m.bugs k = live bugs →
      s.blockerIds.length = m.countBlocker k release ∧
      s.untriagedIds.length = m.countUntriaged k ∧
      s.needsSprintReviewIds.length = m.countNotReviewedInSprint k ∧
      s.severityCounts = m.severityBreakdown k ∧
      s.priorityCounts = m.priorityBreakdown k) ∧
    (∀ d : Directory,
      ((ofMap (.byTeam d bugs) release).values.flatMap (·.bugIds)).Perm (bugs.map (·.id))) ∧
    ((ofMap (.byAssignee bugs) release).values.flatMap (·.bugIds)).Perm (bugs.map (·.id)) := by
  intro s
  have h : s.Accounts release bugs := ofBugs_accounts who bugs release
  refine ⟨h, ?_, ?_, fun m k hlive => ?_, fun d => ?_, ?_⟩
  · rw [h.stale, h.severities, BugMap.sum_values_tally, stale_add_length_live]
  · rw [h.stale, h.priorities, BugMap.sum_values_tally, stale_add_length_live]
  · simp [h.blockers, h.untriaged, h.needsSprintReview, h.severities, h.priorities, length_idsOf,
      BugMap.countBlocker, BugMap.countUntriaged, BugMap.countNotReviewedInSprint, BugMap.count,
      BugMap.severityBreakdown, BugMap.priorityBreakdown, hlive]
  · exact bugIds_ofMap_perm (BugMap.byTeam_groups d bugs) release
  · exact bugIds_ofMap_perm (BugMap.byAssignee_groups bugs) release

def mixedBugs : List Bug := [
  { id := 1, severity := "high", priority := "low", assignedTo := "ann" },
  { id := 2, severity := "low", priority := "low", assignedTo := "ann", keywords := ["TestBlocker"],
    whiteboard := "LifecycleStale" },
  { id := 3, severity := "low", assignedTo := "ann", status := "POST",
    keywords := ["TestBlocker", "UpcomingSprint", "TestBlocker"] }]

theorem ofBugs_complete_mixed :
    (BugMap.byAssignee (live mixedBugs)).bugs "ann" = live mixedBugs ∧
      (ofBugs "ann" mixedBugs "4.9.0").blockerIds.length =
        (BugMap.byAssignee (live mixedBugs)).countBlocker "ann" "4.9.0" ∧
      (ofBugs "ann" mixedBugs "4.9.0").blockerIds = [1] ∧
      (ofBugs "ann" mixedBugs "4.9.0").seriousKeywordIds.entries = [("TestBlocker", [2, 3])] := by
  have hlive : (BugMap.byAssignee (live mixedBugs)).bugs "ann" = live mixedBugs :=
    (BugMap.byAssignee_groups _).bucket "ann"
  obtain ⟨-, -, -, hcounts, -⟩ := ofBugs_complete "ann" mixedBugs "4.9.0"
  exact ⟨hlive, (hcounts _ "ann" hlive).1, by decide, by decide⟩

end Triage.Summary
