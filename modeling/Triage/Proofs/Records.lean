import Triage.BugQuery.Json
import Triage.BugUpdate.Json
import Triage.Proofs.Bug

/-!
# Bugs, queries and updates are read back

What is said to a tracker and what it keeps is written in JSON and read back as
it was. An update writes only the parts that are set, and an empty part is
still written, so no two updates have the same text.
-/

namespace Triage

open Json (Stores Field present)

variable {n : Nat}

-- ---------------------------------------------------------------------------
-- Queries
-- ---------------------------------------------------------------------------

def Term.fields (t : Term) : List Field :=
  [⟨true, "field", .string t.field⟩, ⟨true, "op", .string t.op⟩, ⟨true, "value", .string t.value⟩,
    ⟨true, "negate", .bool t.negate⟩]

theorem Term.toJson_eq (t : Term) : t.toJson = .object (present t.fields) := rfl

theorem Term.stores (t : Term) : Stores (n + 1) Term.ofJson? t.toJson t := by
  have htext (s : String) : Stores n Json.text? (.string s) s := Json.stores_string s
  have hvalue : Field.Holds n Json.text? "" t.value ⟨true, "value", .string t.value⟩ :=
    Json.holds_written (htext t.value)
  have hnegate : Field.Holds n Json.flag? false t.negate ⟨true, "negate", .bool t.negate⟩ :=
    Json.holds_written ⟨.bool, rfl⟩
  have hn : (t.fields.map (·.key)).Nodup := by simp [fields]
  have hfield : Document.required? (Json.lookupReread t.fields) "field" Json.text? =
      some t.field := (htext t.field).required? hn (by simp [fields])
  have hop : Document.required? (Json.lookupReread t.fields) "op" Json.text? = some t.op :=
    (htext t.op).required? hn (by simp [fields])
  rw [toJson_eq]
  refine ⟨Json.legible_present ?_, ?_⟩
  · intro f hf
    simp only [fields, List.mem_cons, List.not_mem_nil, or_false] at hf
    rcases hf with rfl | rfl | rfl | rfl
    exacts [fun _ => (htext _).legible, fun _ => (htext _).legible, hvalue.legible, hnegate.legible]
  · rw [ofJson?, Json.fields?_reread_present hn]
    simp [hfield, hop, hvalue.defaulted? hn (by simp [fields]),
      hnegate.defaulted? hn (by simp [fields])]

namespace BugQuery

def fields (q : BugQuery) : List Field :=
  [⟨true, "classification", .ofStrings q.classifications⟩,
    ⟨true, "product", .ofStrings q.products⟩,
    ⟨true, "status", .ofStrings q.statuses⟩,
    ⟨true, "severity", .ofStrings q.severities⟩,
    ⟨true, "component", .ofStrings q.components⟩,
    ⟨true, "target_release", .ofStrings q.targetReleases⟩,
    ⟨true, "include_fields", .ofStrings q.includeFields⟩,
    ⟨true, "advanced", .array (q.advanced.map Term.toJson)⟩]

theorem toJson_eq (q : BugQuery) : q.toJson = .object (present q.fields) := rfl

theorem stores (q : BugQuery) : Stores (n + 3) BugQuery.ofJson? q.toJson q := by
  have hstrings (key : String) (l : List String) :
      Field.Holds (n + 2) Document.strings? [] l ⟨true, key, .ofStrings l⟩ :=
    Json.holds_written (Json.stores_strings l)
  have hterms : Field.Holds (n + 2) (Document.list? Term.ofJson?) [] q.advanced
      ⟨true, "advanced", .array (q.advanced.map Term.toJson)⟩ :=
    Json.holds_written (Json.stores_list fun t _ => t.stores)
  have hn : (q.fields.map (·.key)).Nodup := by simp [fields]
  rw [toJson_eq]
  refine ⟨Json.legible_present ?_, ?_⟩
  · intro f hf
    simp only [fields, List.mem_cons, List.not_mem_nil, or_false] at hf
    rcases hf with rfl | rfl | rfl | rfl | rfl | rfl | rfl | rfl
    exacts [(hstrings _ _).legible, (hstrings _ _).legible, (hstrings _ _).legible,
      (hstrings _ _).legible, (hstrings _ _).legible, (hstrings _ _).legible,
      (hstrings _ _).legible, hterms.legible]
  · rw [ofJson?, Json.fields?_reread_present hn, Option.bind_eq_bind, Option.bind_some,
      (hstrings "classification" q.classifications).defaulted? hn (by simp [fields]),
      (hstrings "product" q.products).defaulted? hn (by simp [fields]),
      (hstrings "status" q.statuses).defaulted? hn (by simp [fields]),
      (hstrings "severity" q.severities).defaulted? hn (by simp [fields]),
      (hstrings "component" q.components).defaulted? hn (by simp [fields]),
      (hstrings "target_release" q.targetReleases).defaulted? hn (by simp [fields]),
      (hstrings "include_fields" q.includeFields).defaulted? hn (by simp [fields]),
      hterms.defaulted? hn (by simp [fields])]
    rfl

end BugQuery

-- ---------------------------------------------------------------------------
-- Updates
-- ---------------------------------------------------------------------------

namespace KeywordChange

def fields (k : KeywordChange) : List Field :=
  [⟨!k.add.isEmpty, "add", .ofStrings k.add⟩, ⟨!k.remove.isEmpty, "remove", .ofStrings k.remove⟩]

theorem toJson_eq (k : KeywordChange) : k.toJson = .object (present k.fields) := by
  simp [toJson, present, fields]

theorem stores (k : KeywordChange) : Stores (n + 2) KeywordChange.ofJson? k.toJson k := by
  have hstrings (key : String) (l : List String) :
      Field.Holds (n + 1) Document.strings? [] l ⟨!l.isEmpty, key, .ofStrings l⟩ :=
    Json.holds_list (Json.stores_strings l)
  have hn : (k.fields.map (·.key)).Nodup := by simp [fields]
  rw [toJson_eq]
  refine ⟨Json.legible_present ?_, ?_⟩
  · intro f hf
    simp only [fields, List.mem_cons, List.not_mem_nil, or_false] at hf
    rcases hf with rfl | rfl <;> exact (hstrings _ _).legible
  · rw [ofJson?, Json.fields?_reread_present hn]
    simp [(hstrings "add" k.add).defaulted? hn (by simp [fields]),
      (hstrings "remove" k.remove).defaulted? hn (by simp [fields])]

end KeywordChange

namespace BugUpdate

def commentFields (body : String) : List Field := [⟨true, "body", .string body⟩]

theorem commentToJson_eq (body : String) :
    commentToJson body = .object (present (commentFields body)) := rfl

theorem stores_comment (body : String) :
    Stores (n + 1) commentOfJson? (commentToJson body) body := by
  have hbody : Stores n Json.text? (.string body) body := Json.stores_string body
  have hn : ((commentFields body).map (·.key)).Nodup := by simp [commentFields]
  rw [commentToJson_eq]
  refine ⟨Json.legible_present ?_, ?_⟩
  · intro f hf
    obtain rfl := List.mem_singleton.mp hf
    exact fun _ => hbody.legible
  · rw [commentOfJson?, Json.fields?_reread_present hn]
    exact hbody.required? hn (List.mem_singleton.mpr rfl)

def fields (u : BugUpdate) : List Field :=
  [⟨u.status.isSome, "status", .ofOption .string u.status⟩,
    ⟨u.resolution.isSome, "resolution", .ofOption .string u.resolution⟩,
    ⟨u.targetRelease.isSome, "target_release", .ofOption .string u.targetRelease⟩,
    ⟨u.keywords.isSome, "keywords", .ofOption KeywordChange.toJson u.keywords⟩,
    ⟨u.whiteboard.isSome, "whiteboard", .ofOption .string u.whiteboard⟩,
    ⟨u.comment.isSome, "comment", .ofOption commentToJson u.comment⟩]

theorem memberOf_eq {α : Type} (key : String) (f : α → Json) (x : Option α) :
    memberOf key f x = Json.memberIf x.isSome key (.ofOption f x) := by
  cases x <;> rfl

theorem toJson_eq (u : BugUpdate) : u.toJson = .object (present u.fields) := by
  simp [toJson, present, fields, memberOf_eq]

theorem stores (u : BugUpdate) : Stores (n + 3) BugUpdate.ofJson? u.toJson u := by
  have htext (key : String) (s : Option String) : Field.Holds (n + 2)
      (Document.optional? Json.text?) none s ⟨s.isSome, key, .ofOption .string s⟩ :=
    Json.holds_optional (fun a _ => Json.stores_string a) fun _ _ => rfl
  have hkeywords : Field.Holds (n + 2) (Document.optional? KeywordChange.ofJson?) none u.keywords
      ⟨u.keywords.isSome, "keywords", .ofOption KeywordChange.toJson u.keywords⟩ := by
    refine Json.holds_optional (fun k _ => k.stores) fun k _ => ?_
    rw [k.toJson_eq]
    rfl
  have hcomment : Field.Holds (n + 2) (Document.optional? commentOfJson?) none u.comment
      ⟨u.comment.isSome, "comment", .ofOption commentToJson u.comment⟩ :=
    Json.holds_optional (fun body _ => stores_comment body) fun _ _ => rfl
  have hn : (u.fields.map (·.key)).Nodup := by simp [fields]
  rw [toJson_eq]
  refine ⟨Json.legible_present ?_, ?_⟩
  · intro f hf
    simp only [fields, List.mem_cons, List.not_mem_nil, or_false] at hf
    rcases hf with rfl | rfl | rfl | rfl | rfl | rfl
    exacts [(htext _ _).legible, (htext _ _).legible, (htext _ _).legible, hkeywords.legible,
      (htext _ _).legible, hcomment.legible]
  · rw [ofJson?, Json.fields?_reread_present hn, Option.bind_eq_bind, Option.bind_some,
      (htext "status" u.status).defaulted? hn (by simp [fields]),
      (htext "resolution" u.resolution).defaulted? hn (by simp [fields]),
      (htext "target_release" u.targetRelease).defaulted? hn (by simp [fields]),
      hkeywords.defaulted? hn (by simp [fields]),
      (htext "whiteboard" u.whiteboard).defaulted? hn (by simp [fields]),
      hcomment.defaulted? hn (by simp [fields])]
    rfl

end BugUpdate

-- ---------------------------------------------------------------------------
-- Texts
-- ---------------------------------------------------------------------------

theorem Json.Stores.read?_compact {α : Type} {read : Json → Option α} {v : Json} {x : α}
    (h : Stores Json.deepest read v x) : (Json.read? v.compact).bind read = some x := by
  rw [h.legible.read?_compact, Option.bind_some, h.read_eq]

theorem BugUpdate.compact_injective : Function.Injective fun u : BugUpdate => u.toJson.compact := by
  intro u v huv
  have hu := u.stores.read?_compact
  have hv := v.stores.read?_compact
  dsimp only at huv
  rw [huv, hv] at hu
  exact (Option.some.inj hu).symm

/-- Every bug with such a score, every query and every update is read back from its
own text. An update is told apart by its text from one in which a part that is set
but empty is not set at all. -/
theorem records_read_back :
    (∀ b : Bug, Bug.ScoreReadsBack b.reportedScore →
      (Json.read? b.toJson.compact).bind Bug.ofJson? = some b) ∧
    (∀ q : BugQuery, (Json.read? q.toJson.compact).bind BugQuery.ofJson? = some q) ∧
    (∀ u : BugUpdate, (Json.read? u.toJson.compact).bind BugUpdate.ofJson? = some u) ∧
    ∀ u : BugUpdate,
      { u with keywords := some {} }.toJson.compact ≠ { u with keywords := none }.toJson.compact ∧
      { u with status := some "" }.toJson.compact ≠ { u with status := none }.toJson.compact ∧
      { u with resolution := some "" }.toJson.compact ≠
        { u with resolution := none }.toJson.compact ∧
      { u with targetRelease := some "" }.toJson.compact ≠
        { u with targetRelease := none }.toJson.compact ∧
      { u with whiteboard := some "" }.toJson.compact ≠
        { u with whiteboard := none }.toJson.compact ∧
      { u with comment := some "" }.toJson.compact ≠ { u with comment := none }.toJson.compact := by
  refine ⟨fun b h => (Bug.stores h).read?_compact, fun q => q.stores.read?_compact,
    fun u => u.stores.read?_compact, fun u => ⟨?_, ?_, ?_, ?_, ?_, ?_⟩⟩
  all_goals
    intro h
    cases BugUpdate.compact_injective h

theorem records_read_back_escaped :
    let b : Bug := {
      id := 18446744073709551615
      summary := "a \"quoted\" line\r\n\\ \u0001é"
      subcomponents := (SortedMap.empty.insert "" []).insert "Node" ["Kubelet", ""]
      flags := [⟨"blocker", ""⟩]
      reportedScore := some (.ofInt (-9223372036854775808)) }
    Bug.ScoreReadsBack b.reportedScore ∧
      (Json.read? b.toJson.compact).bind Bug.ofJson? = some b := by
  intro b
  have hscore : Bug.ScoreReadsBack b.reportedScore := .integer (by decide) (by decide)
  exact ⟨hscore, records_read_back.1 b hscore⟩

end Triage
