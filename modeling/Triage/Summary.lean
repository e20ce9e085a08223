import Triage.BugLinker
import Triage.BugMap
import Triage.OrgConfig.Json

/-!
# Triage summaries

What a team or an assignee is reminded of: their bugs in the categories that
need attention, and the chat lines made of them. Stale bugs are counted and then
left out of every category but the full list and the serious keywords.
-/

namespace Triage

structure Summary where
  who : String
  bugIds : List UInt64 := []
  stale : Nat := 0
  severityCounts : SortedMap String Nat := .empty
  priorityCounts : SortedMap String Nat := .empty
  blockerIds : List UInt64 := []
  untriagedIds : List UInt64 := []
  needsSprintReviewIds : List UInt64 := []
  postIds : List UInt64 := []
  nonLowIds : List UInt64 := []
  seriousKeywordIds : SortedMap String (List UInt64) := .empty
  deriving DecidableEq, Repr

namespace Summary

def seriousKeywords : List String := ["ServiceDeliveryBlocker", "TestBlocker", "UpgradeBlocker"]

def levelOrder : List String := ["urgent", "high", "medium", "low", "unspecified"]

def list (b : Bug) (listed : Bool) (ids : List UInt64) : List UInt64 :=
  if listed then ids ++ [b.id] else ids

def fileSerious (b : Bug) (ids : SortedMap String (List UInt64)) :
    SortedMap String (List UInt64) :=
  (seriousKeywords.filter (b.hasKeyword ·)).foldl
    (fun ids k => ids.alter k fun old => old.getD [] ++ [b.id]) ids

def add (currentRelease : String) (s : Summary) (b : Bug) : Summary :=
  let s := { s with
    bugIds := s.bugIds ++ [b.id]
    seriousKeywordIds := fileSerious b s.seriousKeywordIds }
  if b.isStale then { s with stale := s.stale + 1 }
  else { s with
    severityCounts := s.severityCounts.alter b.severity fun n => n.getD 0 + 1
    priorityCounts := s.priorityCounts.alter b.priority fun n => n.getD 0 + 1
    needsSprintReviewIds := list b (!b.reviewedInSprint) s.needsSprintReviewIds
    untriagedIds := list b b.isUntriaged s.untriagedIds
    blockerIds := list b (b.isBlocker currentRelease) s.blockerIds
    postIds := list b (b.status == "POST") s.postIds
    nonLowIds := list b (!b.isLowPriorityAndSeverity) s.nonLowIds }

def ofBugs (who : String) (bugs : List Bug) (currentRelease : String) : Summary :=
  bugs.foldl (add currentRelease) { who }

def total (s : Summary) : Nat := s.bugIds.length

private def number (n : Nat) : String := String.ofList (Text.digits n)

/-- The counts of the known levels that occur. -/
def breakdown (counts : SortedMap String Nat) : String :=
  String.intercalate ", " <| levelOrder.filterMap fun level =>
    (counts.get? level).bind fun n =>
      if n = 0 then none else some (number n ++ " _" ++ level ++ "_")

def countedLink (links : BugLinker) (ids : List UInt64) (label : String) : String :=
  links.link (number ids.length ++ " " ++ label) ids

/-- The lines for an assignee, about blockers and untriaged bugs only. -/
def personalLines (s : Summary) (links : BugLinker) : List String :=
  let assigned (ids : List UInt64) := countedLink links ids ("bugs assigned to " ++ s.who)
  (if s.blockerIds.isEmpty then [] else
    ["You have " ++ assigned s.blockerIds
      ++ " that are *release blockers*. Please keep an eye on them today."])
  ++ (if s.untriagedIds.isEmpty then [] else
    ["You have " ++ assigned s.untriagedIds
      ++ " that are untriaged. Set _Severity_ and _Priority_ and clear the _blocker?_ flag."])

/-- A line of a team report with a link, where there are bugs to link to. -/
private def optionalLine (links : BugLinker) (ids : List UInt64) (label : String) : List String :=
  if ids.isEmpty then [] else ["> " ++ countedLink links ids label]

def teamLines (s : Summary) (links : BugLinker) : List String :=
  ["*Bug report for " ++ s.who ++ "*",
    "> " ++ countedLink links s.bugIds "Bugs" ++ " Total",
    "> Severity: " ++ breakdown s.severityCounts,
    "> Priority: " ++ breakdown s.priorityCounts,
    "> " ++ countedLink links s.blockerIds "Release Blockers"]
  ++ optionalLine links s.nonLowIds "Non-low Bugs"
  ++ optionalLine links s.needsSprintReviewIds "Bugs Without _UpcomingSprint_"
  ++ optionalLine links s.untriagedIds "Untriaged Bugs"
  ++ optionalLine links s.postIds "Bugs in POST"
  ++ seriousKeywords.flatMap fun k =>
    match s.seriousKeywordIds.get? k with
    | some ids => ["> " ++ countedLink links ids ("Bugs with " ++ k)]
    | none => []

def ofMap (m : BugMap) (currentRelease : String) : SortedMap String Summary :=
  m.buckets.mapValues fun who bugs => ofBugs who bugs currentRelease

def toJson (s : Summary) : Json :=
  let ids (l : List UInt64) : Json := .array (l.map fun id => .ofNat id.toNat)
  .object [("who", .string s.who), ("bug_ids", ids s.bugIds), ("stale", .ofNat s.stale),
    ("severity_counts", .ofMap .ofNat s.severityCounts),
    ("priority_counts", .ofMap .ofNat s.priorityCounts),
    ("blocker_ids", ids s.blockerIds), ("untriaged_ids", ids s.untriagedIds),
    ("needs_sprint_review_ids", ids s.needsSprintReviewIds), ("post_ids", ids s.postIds),
    ("non_low_ids", ids s.nonLowIds), ("serious_keyword_ids", .ofMap ids s.seriousKeywordIds)]

end Summary

end Triage
