import Triage.Bug.Json
import Triage.Proofs.Json.Records

/-!
# Bugs are read back

A bug is read back from its JSON text as it was, provided that its score, if it
has one, is a string or an integer of 64 bits (`Bug.ScoreReadsBack`). So is the
answer of a tracker, a record with a list of such bugs.
-/

namespace Triage

open Json (Stores Field present)

section Parts

variable {n : Nat}

-- ---------------------------------------------------------------------------
-- Flags
-- ---------------------------------------------------------------------------

def Flag.fields (f : Flag) : List Field :=
  [⟨true, "name", .string f.name⟩, ⟨true, "status", .string f.status⟩]

theorem Flag.toJson_eq (f : Flag) : f.toJson = .object (present f.fields) := rfl

theorem Flag.stores (f : Flag) : Stores (n + 1) Flag.ofJson? f.toJson f := by
  have hname : Stores n Json.text? (.string f.name) f.name := Json.stores_string _
  have hstatus : Field.Holds n Json.text? "" f.status ⟨true, "status", .string f.status⟩ :=
    Json.holds_written (Json.stores_string _)
  have hn : (f.fields.map (·.key)).Nodup := by simp [fields]
  rw [toJson_eq]
  refine ⟨Json.legible_present ?_, ?_⟩
  · intro g hg
    simp only [fields, List.mem_cons, List.not_mem_nil, or_false] at hg
    rcases hg with rfl | rfl
    exacts [fun _ => hname.legible, hstatus.legible]
  · have hget : Document.required? (Json.lookupReread f.fields) "name" Json.text? = some f.name :=
      hname.required? hn (by simp [fields])
    rw [ofJson?, Json.fields?_reread_present hn]
    simp [hget, hstatus.defaulted? hn (by simp [fields])]

-- ---------------------------------------------------------------------------
-- Bugs
-- ---------------------------------------------------------------------------

namespace Bug

/-- A score that is read back: none, a string, or an integer of 64 bits. -/
inductive ScoreReadsBack : Option Json → Prop
  | none : ScoreReadsBack none
  | string (s : String) : ScoreReadsBack (some (.string s))
  | integer {k : Int} (hleast : Word.leastInt64 ≤ k) (hgreatest : k ≤ Word.greatest64) :
      ScoreReadsBack (some (.ofInt k))

def fields (b : Bug) : List Field :=
  [⟨true, "id", .ofNat b.id.toNat⟩,
    ⟨true, "summary", .string b.summary⟩,
    ⟨true, "status", .string b.status⟩,
    ⟨true, "severity", .string b.severity⟩,
    ⟨true, "priority", .string b.priority⟩,
    ⟨true, "assigned_to", .string b.assignedTo⟩,
    ⟨true, "component", .ofStrings b.components⟩,
    ⟨true, "sub_components", .ofMap Json.ofStrings b.subcomponents⟩,
    ⟨true, "target_release", .ofStrings b.targetReleases⟩,
    ⟨true, "keywords", .ofStrings b.keywords⟩,
    ⟨true, "flags", .array (b.flags.map Flag.toJson)⟩,
    ⟨true, "whiteboard", .string b.whiteboard⟩,
    ⟨b.reportedScore.isSome, "cf_pm_score", b.reportedScore.getD .null⟩]

theorem toJson_eq (b : Bug) : b.toJson = .object (present b.fields) := by
  rw [toJson, fields]
  cases b.reportedScore <;> rfl

theorem ScoreReadsBack.holds {score : Option Json} (h : ScoreReadsBack score) :
    Field.Holds n Json.any? Option.none score
      ⟨score.isSome, "cf_pm_score", score.getD .null⟩ := by
  cases h with
  | none => exact ⟨(nomatch ·), fun _ => rfl⟩
  | string s => exact Json.holds_written ⟨.string, rfl⟩
  | integer hleast hgreatest =>
    refine Json.holds_written ⟨Json.legible_ofInt hleast hgreatest, ?_⟩
    rw [Option.getD_some, Json.reread_ofInt hleast hgreatest]
    rfl

theorem stores {b : Bug} (h : ScoreReadsBack b.reportedScore) :
    Stores (n + 3) Bug.ofJson? b.toJson b := by
  have hid : Stores (n + 2) Document.uint64? (.ofNat b.id.toNat) b.id := Json.stores_uint64 _
  have htext (key s : String) : Field.Holds (n + 2) Json.text? "" s ⟨true, key, .string s⟩ :=
    Json.holds_written (Json.stores_string _)
  have hstrings (key : String) (l : List String) :
      Field.Holds (n + 2) Document.strings? [] l ⟨true, key, Json.ofStrings l⟩ :=
    Json.holds_written (Json.stores_strings _)
  have hsubs : Field.Holds (n + 2) (Document.map? Document.strings?) .empty b.subcomponents
      ⟨true, "sub_components", .ofMap Json.ofStrings b.subcomponents⟩ :=
    Json.holds_written (Json.stores_map fun l _ => Json.stores_strings l)
  have hflags : Field.Holds (n + 2) (Document.list? Flag.ofJson?) [] b.flags
      ⟨true, "flags", .array (b.flags.map Flag.toJson)⟩ :=
    Json.holds_written (Json.stores_list fun f _ => f.stores)
  have hscore := h.holds (n := n + 2)
  have hn : (b.fields.map (·.key)).Nodup := by simp [fields]
  rw [toJson_eq]
  refine ⟨Json.legible_present ?_, ?_⟩
  · intro f hf
    simp only [fields, List.mem_cons, List.not_mem_nil, or_false] at hf
    rcases hf with rfl | rfl | rfl | rfl | rfl | rfl | rfl | rfl | rfl | rfl | rfl | rfl | rfl
    exacts [fun _ => hid.legible, (htext _ _).legible, (htext _ _).legible, (htext _ _).legible,
      (htext _ _).legible, (htext _ _).legible, (hstrings _ _).legible, hsubs.legible,
      (hstrings _ _).legible, (hstrings _ _).legible, hflags.legible, (htext _ _).legible,
      hscore.legible]
  · have hget : Document.required? (Json.lookupReread b.fields) "id" Document.uint64? = some b.id :=
      hid.required? hn (by simp [fields])
    -- Rewriting and not `simp`, which would enter the body of every bind anew.
    rw [ofJson?, Json.fields?_reread_present hn, Option.bind_eq_bind, Option.bind_some, hget,
      (htext "summary" b.summary).defaulted? hn (by simp [fields]),
      (htext "status" b.status).defaulted? hn (by simp [fields]),
      (htext "severity" b.severity).defaulted? hn (by simp [fields]),
      (htext "priority" b.priority).defaulted? hn (by simp [fields]),
      (htext "assigned_to" b.assignedTo).defaulted? hn (by simp [fields]),
      (hstrings "component" b.components).defaulted? hn (by simp [fields]),
      hsubs.defaulted? hn (by simp [fields]),
      (hstrings "target_release" b.targetReleases).defaulted? hn (by simp [fields]),
      (hstrings "keywords" b.keywords).defaulted? hn (by simp [fields]),
      hflags.defaulted? hn (by simp [fields]),
      (htext "whiteboard" b.whiteboard).defaulted? hn (by simp [fields]),
      hscore.defaulted? hn (by simp [fields])]
    rfl

-- ---------------------------------------------------------------------------
-- Answers with bugs
-- ---------------------------------------------------------------------------

def answer (bugs : List Bug) : Json := .object (present [⟨true, "bugs", .array (bugs.map toJson)⟩])

theorem stores_answer {bugs : List Bug} (h : ∀ b ∈ bugs, ScoreReadsBack b.reportedScore) :
    Stores (n + 5) recordOfJson? (answer bugs) bugs := by
  have hbugs : Field.Holds (n + 4) listOfJson? [] bugs ⟨true, "bugs", .array (bugs.map toJson)⟩ :=
    Json.holds_written (Json.stores_list fun b hb => stores (h b hb))
  have hn : ([⟨true, "bugs", .array (bugs.map toJson)⟩].map Field.key).Nodup := by simp
  refine ⟨Json.legible_present ?_, ?_⟩
  · intro f hf
    obtain rfl := List.mem_singleton.mp hf
    exact hbugs.legible
  · rw [answer, recordOfJson?, Json.fields?_reread_present hn]
    exact hbugs.defaulted? hn (List.mem_singleton.mpr rfl)

end Bug

end Parts

end Triage
