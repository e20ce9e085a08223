import Triage.BugQuery
import Triage.Proofs.Text

/-!
# Queries are read back from their parameters

The parameters of a request are one flat list: keys repeated for each of several
values, keys with the number of a term, and one key with joined names.
`ofParams` reads a query from such a list by the keys alone. A query is read back
as it was exactly when no field that it asks for has a comma in its name
(`ofParams_toParams_iff`), so two such queries with the same parameters are equal.
-/

namespace Triage.BugQuery

-- ---------------------------------------------------------------------------
-- Reading parameters
-- ---------------------------------------------------------------------------

def valuesOf (key : String) (params : List (String × String)) : List String :=
  params.filterMap fun p => if p.1 = key then some p.2 else none

/-- The number behind the letter of a part. -/
def termNumber? (part : Char) (key : String) : Option Nat :=
  match key.toList with
  | c :: digits => if c = part then Text.natural? digits else none
  | [] => none

def partOf? (params : List (String × String)) (part : Char) (n : Nat) : Option String :=
  params.findSome? fun p => if termNumber? part p.1 = some n then some p.2 else none

def readTerm? (params : List (String × String)) (n : Nat) : Option Term := do
  some {
    field := ← partOf? params 'f' n
    op := ← partOf? params 'o' n
    value := (partOf? params 'v' n).getD ""
    negate := partOf? params 'n' n == some "1" }

/-- The terms by their numbers, of which there are no more than parameters. -/
def readTerms (params : List (String × String)) : List Term :=
  (List.range params.length).filterMap fun i => readTerm? params (i + 1)

def readNames (joined : String) : List String :=
  (Text.splitOn ',' joined.toList).map String.ofList

def ofParams (params : List (String × String)) : BugQuery where
  classifications := valuesOf "classification" params
  products := valuesOf "product" params
  statuses := valuesOf "bug_status" params
  severities := valuesOf "bug_severity" params
  components := valuesOf "component" params
  targetReleases := valuesOf "target_release" params
  includeFields := (valuesOf "include_fields" params).flatMap readNames
  advanced := readTerms params

-- ---------------------------------------------------------------------------
-- Keys
-- ---------------------------------------------------------------------------

variable {key : String} {part : Char} {n m : Nat}

/-- What stands behind the first letter of the key is no number. -/
def Unnumbered (key : String) : Prop := Text.natural? (key.toList.drop 1) = none

instance : Decidable (Unnumbered key) := inferInstanceAs (Decidable (_ = _))

theorem Unnumbered.termNumber?_eq_none (h : Unnumbered key) : termNumber? part key = none := by
  unfold termNumber?
  cases hkey : key.toList with
  | nil => rfl
  | cons c digits =>
    simp only [Unnumbered, hkey, List.drop_succ_cons, List.drop_zero] at h
    simp [h]

theorem termNumber?_termKey (part other : Char) (n : Nat) :
    termNumber? part (termKey other n) = if other = part then some n else none := by
  simp [termNumber?, termKey, Text.natural?_digits]

theorem Unnumbered.ne_termKey (h : Unnumbered key) : termKey part n ≠ key := by
  rintro rfl
  have hnumber : termNumber? part (termKey part n) = none := h.termNumber?_eq_none
  rw [termNumber?_termKey, if_pos rfl] at hnumber
  cases hnumber

-- ---------------------------------------------------------------------------
-- Values under a key
-- ---------------------------------------------------------------------------

@[simp] theorem valuesOf_append (params more : List (String × String)) :
    valuesOf key (params ++ more) = valuesOf key params ++ valuesOf key more :=
  List.filterMap_append

@[simp] theorem valuesOf_repeated (key other : String) (values : List String) :
    valuesOf key (repeated other values) = if other = key then values else [] := by
  unfold valuesOf repeated
  induction values with
  | nil => simp
  | cons value rest ih =>
    by_cases h : other = key
    · rw [if_pos h] at ih ⊢
      rw [List.map_cons, List.filterMap_cons, ih]
      simp [h]
    · simp [h]

def sent (t : Term) : List (Char × String) :=
  [('f', t.field), ('o', t.op)] ++ (if t.value = "" then [] else [('v', t.value)])
    ++ (if t.negate then [('n', "1")] else [])

theorem termParams_eq_map (m : Nat) (t : Term) :
    termParams m t = (sent t).map fun p => (termKey p.1 m, p.2) := by
  unfold termParams sent
  split <;> split <;> rfl

theorem mem_termsParams {terms : List Term} {p : String × String}
    (h : p ∈ termsParams n terms) : ∃ part m, p.1 = termKey part m := by
  induction terms generalizing n with
  | nil => cases h
  | cons t rest ih =>
    rcases List.mem_append.mp h with h | h
    · rw [termParams_eq_map] at h
      obtain ⟨p, -, rfl⟩ := List.mem_map.mp h
      exact ⟨_, _, rfl⟩
    · exact ih h

theorem Unnumbered.valuesOf_termsParams (h : Unnumbered key) (terms : List Term) :
    valuesOf key (termsParams n terms) = [] := by
  unfold valuesOf
  rw [List.filterMap_eq_nil_iff]
  intro p hp
  obtain ⟨part, m, hkey⟩ := mem_termsParams hp
  rw [hkey, if_neg h.ne_termKey]

-- ---------------------------------------------------------------------------
-- Parts under a number
-- ---------------------------------------------------------------------------

theorem partOf?_append (params more : List (String × String)) :
    partOf? (params ++ more) part n = (partOf? params part n).or (partOf? more part n) :=
  List.findSome?_append

theorem partOf?_eq_none {params : List (String × String)} (h : ∀ p ∈ params, Unnumbered p.1) :
    partOf? params part n = none := by
  unfold partOf?
  rw [List.findSome?_eq_none_iff]
  intro p hp
  simp [(h p hp).termNumber?_eq_none]

theorem partOf?_map_termKey (m : Nat) (parts : List (Char × String)) :
    partOf? (parts.map fun p => (termKey p.1 m, p.2)) part n =
      if m = n then parts.lookup part else none := by
  unfold partOf?
  induction parts with
  | nil => simp
  | cons p rest ih =>
    rw [List.map_cons, List.findSome?_cons, ih, termNumber?_termKey, List.lookup_cons]
    by_cases hpart : p.1 = part
    · by_cases hn : m = n
      · simp [hpart, hn]
      · simp [hpart, hn]
    · have hne : (part == p.1) = false := by simpa using fun h : part = p.1 => hpart h.symm
      simp [hpart, hne]

theorem partOf?_termsParams (first : Nat) (terms : List Term) :
    partOf? (termsParams first terms) part n =
      if first ≤ n then terms[n - first]?.bind fun t => (sent t).lookup part else none := by
  induction terms generalizing first with
  | nil => simp [termsParams, partOf?]
  | cons t rest ih =>
    rw [termsParams, partOf?_append, termParams_eq_map, partOf?_map_termKey, ih]
    rcases Nat.lt_trichotomy n first with hlt | rfl | hgt
    · have hne : ¬ first = n := by omega
      have hnot : ¬ first ≤ n ∧ ¬ first + 1 ≤ n := by omega
      simp [hne, hnot]
    · have hrest : ¬ n + 1 ≤ n := by omega
      simp [hrest]
    · obtain ⟨k, rfl⟩ := Nat.exists_eq_add_of_lt hgt
      have hne : ¬ first = first + k + 1 := by omega
      have hle : first ≤ first + k + 1 ∧ first + 1 ≤ first + k + 1 := by omega
      have hindex : first + k + 1 - first = k + 1 ∧ first + k + 1 - (first + 1) = k := by omega
      simp [hne, hle, hindex]

-- ---------------------------------------------------------------------------
-- Requests
-- ---------------------------------------------------------------------------

def valueParams (q : BugQuery) : List (String × String) :=
  repeated "classification" q.classifications
  ++ repeated "product" q.products
  ++ repeated "bug_status" q.statuses
  ++ repeated "bug_severity" q.severities
  ++ repeated "component" q.components
  ++ repeated "target_release" q.targetReleases

def nameParams (q : BugQuery) : List (String × String) :=
  if q.includeFields = [] then []
  else [("include_fields", String.intercalate "," q.includeFields)]

theorem toParams_eq (q : BugQuery) :
    q.toParams = q.valueParams ++ termsParams 1 q.advanced ++ q.nameParams := rfl

def plainKeys : List String :=
  ["classification", "product", "bug_status", "bug_severity", "component", "target_release",
    "include_fields"]

theorem unnumbered_of_mem_plainKeys : ∀ key ∈ plainKeys, Unnumbered key := by
  decide +kernel

theorem unnumbered_valueParams (q : BugQuery) : ∀ p ∈ q.valueParams, Unnumbered p.1 := by
  intro p hp
  refine unnumbered_of_mem_plainKeys p.1 ?_
  simp only [valueParams, repeated, List.mem_append, List.mem_map] at hp
  rcases hp with ((((h | h) | h) | h) | h) | h <;>
    (obtain ⟨_, -, rfl⟩ := h; simp [plainKeys])

theorem unnumbered_nameParams (q : BugQuery) : ∀ p ∈ q.nameParams, Unnumbered p.1 := by
  intro p hp
  unfold nameParams at hp
  split at hp
  · cases hp
  · obtain rfl := List.mem_singleton.mp hp
    exact unnumbered_of_mem_plainKeys _ (by simp [plainKeys])

theorem partOf?_toParams (q : BugQuery) (i : Nat) :
    partOf? q.toParams part (i + 1) = q.advanced[i]?.bind fun t => (sent t).lookup part := by
  simp [toParams_eq, partOf?_append, partOf?_eq_none q.unnumbered_valueParams,
    partOf?_eq_none q.unnumbered_nameParams, partOf?_termsParams]

theorem readTerm?_toParams (q : BugQuery) (i : Nat) :
    readTerm? q.toParams (i + 1) = q.advanced[i]? := by
  unfold readTerm?
  simp only [partOf?_toParams]
  cases q.advanced[i]? with
  | none => rfl
  | some t =>
    have hfield : (sent t).lookup 'f' = some t.field := rfl
    have hop : (sent t).lookup 'o' = some t.op := rfl
    have hvalue : ((sent t).lookup 'v').getD "" = t.value := by
      unfold sent
      split <;> split <;> simp_all [List.lookup_cons]
    have hnegate : ((sent t).lookup 'n' == some "1") = t.negate := by
      unfold sent
      split <;> split <;> simp_all [List.lookup_cons]
    simp [hfield, hop, hvalue, hnegate]

theorem length_le_termsParams (first : Nat) (terms : List Term) :
    terms.length ≤ (termsParams first terms).length := by
  induction terms generalizing first with
  | nil => exact Nat.zero_le _
  | cons t rest ih =>
    have hrest := ih (first + 1)
    simp only [termsParams, termParams, List.length_append, List.length_cons, List.length_nil]
    omega

theorem filterMap_range_getElem? {α : Type} (l : List α) (k : Nat) :
    (List.range k).filterMap (fun i => l[i]?) = l.take k := by
  induction k with
  | zero => rfl
  | succ k ih =>
    rw [List.range_succ, List.filterMap_append, ih, List.take_add_one]
    cases h : l[k]? <;> simp [h]

theorem readTerms_toParams (q : BugQuery) : readTerms q.toParams = q.advanced := by
  have hlength : q.advanced.length ≤ q.toParams.length := by
    have hterms := length_le_termsParams 1 q.advanced
    rw [toParams_eq, List.length_append, List.length_append]
    omega
  simp only [readTerms, readTerm?_toParams]
  rw [filterMap_range_getElem?, List.take_of_length_le hlength]

theorem valuesOf_toParams (q : BugQuery) (h : Unnumbered key) :
    valuesOf key q.toParams = valuesOf key q.valueParams ++ valuesOf key q.nameParams := by
  rw [toParams_eq, valuesOf_append, valuesOf_append, h.valuesOf_termsParams, List.append_nil]

theorem valuesOf_nameParams (q : BugQuery) (h : "include_fields" ≠ key) :
    valuesOf key q.nameParams = [] := by
  unfold nameParams valuesOf
  split <;> simp [h]

-- ---------------------------------------------------------------------------
-- Names of fields
-- ---------------------------------------------------------------------------

/-- No field that the query asks for has a comma in its name. -/
def NamesApart (q : BugQuery) : Prop := ∀ name ∈ q.includeFields, ',' ∉ name.toList

instance (q : BugQuery) : Decidable q.NamesApart :=
  inferInstanceAs (Decidable (∀ _ ∈ _, _))

theorem readNames_intercalate {names : List String} (hnames : names ≠ []) :
    readNames (String.intercalate "," names) = names ↔ ∀ name ∈ names, ',' ∉ name.toList := by
  unfold readNames
  constructor
  · intro h name hname
    rw [← h] at hname
    obtain ⟨part, hpart, rfl⟩ := List.mem_map.mp hname
    rw [String.toList_ofList]
    exact Text.not_mem_of_mem_splitOn hpart
  · intro h
    have hsplit : (List.intercalate [','] (names.map String.toList)).splitOn ',' =
        names.map String.toList :=
      List.splitOn_intercalate ',' (by simpa using h) (by simpa using hnames)
    rw [Text.splitOn_eq, String.toList_intercalate]
    change ((List.intercalate [','] (names.map String.toList)).splitOn ',').map String.ofList = names
    rw [hsplit]
    simp [Function.comp_def]

/-- What becomes of the names of fields when they are joined and taken apart. -/
def rereadFields (q : BugQuery) : List String :=
  (valuesOf "include_fields" q.nameParams).flatMap readNames

theorem rereadFields_eq_iff (q : BugQuery) : q.rereadFields = q.includeFields ↔ q.NamesApart := by
  unfold rereadFields nameParams valuesOf NamesApart
  by_cases h : q.includeFields = []
  · simp [h]
  · simp [h, readNames_intercalate h]

-- ---------------------------------------------------------------------------
-- Whole queries
-- ---------------------------------------------------------------------------

theorem ofParams_toParams (q : BugQuery) :
    ofParams q.toParams = { q with includeFields := q.rereadFields } := by
  have hvalues : ∀ key ∈ plainKeys, valuesOf key q.toParams =
      valuesOf key q.valueParams ++ valuesOf key q.nameParams :=
    fun key hkey => q.valuesOf_toParams (unnumbered_of_mem_plainKeys key hkey)
  simp only [plainKeys, List.forall_mem_cons] at hvalues
  unfold ofParams
  simp [hvalues, readTerms_toParams, valueParams, valuesOf_nameParams, rereadFields]

theorem ofParams_toParams_iff (q : BugQuery) : ofParams q.toParams = q ↔ q.NamesApart := by
  rw [← rereadFields_eq_iff, ofParams_toParams]
  constructor
  · intro h
    exact congrArg includeFields h
  · intro h
    rw [h]

/-- Queries without commas in the names of fields are read back from their
parameters, term by term and value by value, so different ones are never asked
for in the same way. -/
theorem toParams_determine {q q' : BugQuery} (h : q.NamesApart) (h' : q'.NamesApart) :
    ofParams q.toParams = q ∧ (q.toParams = q'.toParams ↔ q = q') := by
  have hread : ofParams q.toParams = q := q.ofParams_toParams_iff.mpr h
  have hread' : ofParams q'.toParams = q' := q'.ofParams_toParams_iff.mpr h'
  refine ⟨hread, fun hparams => ?_, fun he => by rw [he]⟩
  calc q = ofParams q.toParams := hread.symm
    _ = ofParams q'.toParams := congrArg ofParams hparams
    _ = q' := hread'

/-- Two searches that differ in which of their terms is negated, one without a value. -/
theorem toParams_determine_negated :
    let q : BugQuery := {
      statuses := ["NEW", "NEW"]
      includeFields := ["id", ""]
      advanced := [⟨"whiteboard", "isempty", "", true⟩, ⟨"priority", "equals", "high", false⟩] }
    let q' : BugQuery := {
      statuses := ["NEW", "NEW"]
      includeFields := ["id", ""]
      advanced := [⟨"whiteboard", "isempty", "", false⟩, ⟨"priority", "equals", "high", true⟩] }
    q.NamesApart ∧ q'.NamesApart ∧ ofParams q.toParams = q ∧ q.toParams ≠ q'.toParams := by
  intro q q'
  have h : q.NamesApart := by decide
  have h' : q'.NamesApart := by decide
  obtain ⟨hread, hiff⟩ := toParams_determine h h'
  have hne : q ≠ q' := by decide
  exact ⟨h, h', hread, fun hparams => hne (hiff.mp hparams)⟩

end Triage.BugQuery
