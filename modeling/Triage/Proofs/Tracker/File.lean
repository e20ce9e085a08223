import Mathlib.Data.List.Forall2
import Triage.Proofs.Bug
import Triage.Tracker.File

/-!
# What a tracker in a file holds

Which documents bugs are read from: the two forms a file of bugs may have (`Dump`),
and those that are taken for the second form because its only field may be left out
or be given by its position (`Stray`). Everything else is refused.

What is taken for the second form without being it is in neither (`Stray.not_dump`).
-/

namespace Triage

theorem Files.readText_ofList {path place : String} (hplace : place? path = some place)
    (text : String) : (ofList [(path, text.toUTF8)]).readText path = .ok text := by
  have hcontents : (ofList [(path, text.toUTF8)]).contents.get? place = some text.toUTF8 := by
    simp only [ofList, List.foldl_cons, List.foldl_nil, hplace]
    rw [SortedMap.get?_insert, if_pos rfl]
  have hread : (ofList [(path, text.toUTF8)]).read path = .ok text.toUTF8 := by
    rw [read, hplace]
    simp only [hcontents]
  have hutf8 : String.fromUTF8? text.toUTF8 = some text := dif_pos text.isValidUTF8
  simp only [readText, hread, bind, Except.bind, hutf8]

namespace FileTracker

-- ---------------------------------------------------------------------------
-- Documents
-- ---------------------------------------------------------------------------

def Records (items : List Json) (bugs : List Bug) : Prop :=
  List.Forall₂ (fun v b => Bug.ofJson? v = some b) items bugs

/-- A document in one of the two forms: a list of records, or a record with such a list
as its one member of this name. -/
inductive Dump : Json → List Bug → Prop
  | bare {items : List Json} {bugs : List Bug} (h : Records items bugs) : Dump (.array items) bugs
  | wrapped {before after : List (String × Json)} {items : List Json} {bugs : List Bug}
      (hone : ∀ m ∈ before ++ after, m.1 ≠ "bugs") (h : Records items bugs) :
      Dump (.object (before ++ ("bugs", .array items) :: after)) bugs

/-- A document in neither form that is read all the same: no member has the name of the
list, or the list stands where the only field of a record would. -/
inductive Stray : Json → List Bug → Prop
  | unnamed {members : List (String × Json)} (h : ∀ m ∈ members, m.1 ≠ "bugs") :
      Stray (.object members) []
  | positional {items : List Json} {bugs : List Bug} (h : Records items bugs) :
      Stray (.array [.array items]) bugs

section Documents

variable {v : Json} {items : List Json} {members : List (String × Json)} {bugs : List Bug} {b : Bug}

theorem mapM_eq_some_iff {α β : Type} {f : α → Option β} {l : List α} {xs : List β} :
    l.mapM f = some xs ↔ List.Forall₂ (fun x y => f x = some y) l xs := by
  induction l generalizing xs with
  | nil => cases xs <;> simp
  | cons x rest ih =>
    simp only [List.mapM_cons, Option.bind_eq_bind, Option.bind_eq_some_iff, Option.pure_def,
      Option.some.injEq, ih, List.forall₂_cons_left_iff]
    constructor
    · rintro ⟨y, hy, ys, hys, rfl⟩
      exact ⟨y, ys, hy, hys, rfl⟩
    · rintro ⟨y, ys, hy, hys, rfl⟩
      exact ⟨y, hy, ys, hys, rfl⟩

theorem listOfJson?_eq_some_iff :
    Bug.listOfJson? v = some bugs ↔ ∃ items, v = .array items ∧ Records items bugs := by
  rw [Bug.listOfJson?, Document.list?, Option.bind_eq_some_iff]
  constructor
  · rintro ⟨items, hitems, h⟩
    cases v with
    | array _ =>
      cases hitems
      exact ⟨items, rfl, mapM_eq_some_iff.mp h⟩
    | _ => cases hitems
  · rintro ⟨items, rfl, h⟩
    exact ⟨items, rfl, mapM_eq_some_iff.mpr h⟩

theorem listOfJson?_eq_none_of_ofJson? (h : Bug.ofJson? v = some b) : Bug.listOfJson? v = none := by
  cases v with
  | array items =>
    rw [Bug.ofJson?, Option.bind_eq_bind, Option.bind_eq_some_iff] at h
    obtain ⟨get, hget, h⟩ := h
    rw [Option.bind_eq_bind, Option.bind_eq_some_iff] at h
    obtain ⟨id, hid, -⟩ := h
    rw [Json.fields?, Option.ite_none_right_eq_some, Option.some.injEq] at hget
    obtain ⟨-, rfl⟩ := hget
    cases items with
    | nil => cases hid
    | cons first rest =>
      have hfirst : Document.uint64? first = some id := hid
      cases first with
      | number n => rfl
      | _ => cases hfirst
  | _ => rfl

theorem lookup_eq_none_iff : members.lookup "bugs" = none ↔ ∀ m ∈ members, m.1 ≠ "bugs" := by
  simp only [List.lookup_eq_none_iff, bne_iff_ne, ne_comm]

theorem countKey_split_le_one_iff {before after : List (String × Json)} {w : Json} :
    Json.countKey "bugs" (before ++ ("bugs", w) :: after) ≤ 1 ↔
      ∀ m ∈ before ++ after, m.1 ≠ "bugs" := by
  rw [← Json.countKey_eq_zero_iff]
  simp only [Json.countKey, List.countP_append, List.countP_cons, beq_self_eq_true, if_true]
  omega

theorem recordOfJson?_object_iff :
    Bug.recordOfJson? (.object members) = some bugs ↔
      Dump (.object members) bugs ∨ Stray (.object members) bugs := by
  have hrecord : Bug.recordOfJson? (.object members) = some bugs ↔
      Json.countKey "bugs" members ≤ 1 ∧
        Document.defaulted? (members.lookup ·) "bugs" [] Bug.listOfJson? = some bugs := by
    simp [Bug.recordOfJson?, Json.fields?, Option.bind_eq_some_iff, and_assoc]
  rw [hrecord, Document.defaulted?]
  constructor
  · rintro ⟨hone, hbugs⟩
    cases hlookup : members.lookup "bugs" with
    | none =>
      rw [hlookup] at hbugs
      obtain rfl := Option.some.inj hbugs
      exact .inr (.unnamed (lookup_eq_none_iff.mp hlookup))
    | some w =>
      rw [hlookup] at hbugs
      obtain ⟨items, rfl, hrecords⟩ := listOfJson?_eq_some_iff.mp hbugs
      obtain ⟨before, after, rfl, -⟩ := List.lookup_eq_some_iff.mp hlookup
      exact .inl (.wrapped (countKey_split_le_one_iff.mp hone) hrecords)
  · rintro (hdump | hstray)
    · cases hdump with
      | @wrapped before after items _ hone hrecords =>
        have hbefore : before.lookup "bugs" = none :=
          lookup_eq_none_iff.mpr fun m hm => hone m (List.mem_append_left _ hm)
        have hlookup : (before ++ ("bugs", Json.array items) :: after).lookup "bugs" =
            some (.array items) := by
          rw [List.lookup_append, hbefore]
          simp
        rw [hlookup]
        exact ⟨countKey_split_le_one_iff.mpr hone,
          listOfJson?_eq_some_iff.mpr ⟨items, rfl, hrecords⟩⟩
    · cases hstray with
      | unnamed hnone =>
        rw [lookup_eq_none_iff.mpr hnone]
        exact ⟨by simp [Json.countKey_eq_zero_iff.mpr hnone], rfl⟩

theorem recordOfJson?_array_iff :
    Bug.recordOfJson? (.array items) = some bugs ↔
      (items = [] ∧ bugs = []) ∨ Stray (.array items) bugs := by
  constructor
  · intro hrecord
    match items with
    | [] => exact .inl ⟨rfl, (Option.some.inj hrecord).symm⟩
    | [w] =>
      obtain ⟨items, rfl, hrecords⟩ := listOfJson?_eq_some_iff.mp hrecord
      exact .inr (.positional hrecords)
    | _ :: _ :: _ => simp [Bug.recordOfJson?, Json.fields?] at hrecord
  · rintro (⟨rfl, rfl⟩ | hstray)
    · rfl
    · cases hstray with
      | positional hrecords => exact listOfJson?_eq_some_iff.mpr ⟨_, rfl, hrecords⟩

/-- What slips through is in neither form. -/
theorem Stray.not_dump (h : Stray v bugs) (bugs' : List Bug) : ¬ Dump v bugs' := by
  intro hdump
  cases h with
  | unnamed hnone =>
    cases hdump with
    | wrapped hone hrecords =>
      exact hnone _ (List.mem_append_right _ List.mem_cons_self) rfl
  | positional hrecords =>
    cases hdump with
    | bare hrecords' =>
      obtain ⟨b, rest, hb, -, -⟩ := List.forall₂_cons_left_iff.mp hrecords'
      have hlist := listOfJson?_eq_some_iff.mpr ⟨_, rfl, hrecords⟩
      rw [listOfJson?_eq_none_of_ofJson? hb] at hlist
      cases hlist

theorem readBugs?_eq_some_iff :
    readBugs? v = some bugs ↔ v.sound = true ∧ (Dump v bugs ∨ Stray v bugs) := by
  rw [readBugs?, Option.ite_none_right_eq_some, Option.or_eq_some_iff]
  refine and_congr_right fun _ => ?_
  cases v with
  | object members =>
    have hlist : Bug.listOfJson? (.object members) = none := rfl
    simp [recordOfJson?_object_iff, hlist]
  | array items =>
    constructor
    · rintro (hrecord | ⟨-, hlist⟩)
      · obtain ⟨rfl, rfl⟩ | hstray := recordOfJson?_array_iff.mp hrecord
        · exact .inl (.bare .nil)
        · exact .inr hstray
      · obtain ⟨_, ⟨⟩, hrecords⟩ := listOfJson?_eq_some_iff.mp hlist
        exact .inl (.bare hrecords)
    · rintro (hdump | hstray)
      · cases hrecord : Bug.recordOfJson? (.array items) with
        | none =>
          cases hdump with
          | bare hrecords => exact .inr ⟨rfl, listOfJson?_eq_some_iff.mpr ⟨items, rfl, hrecords⟩⟩
        | some found =>
          obtain ⟨rfl, rfl⟩ | hstray := recordOfJson?_array_iff.mp hrecord
          · cases hdump with
            | bare hrecords =>
              cases hrecords
              exact .inl rfl
          · exact absurd hdump (hstray.not_dump bugs)
      · exact .inl (recordOfJson?_array_iff.mpr (.inr hstray))
  | _ =>
    constructor
    · rintro (hrecord | ⟨-, hlist⟩)
      · cases hrecord
      · cases hlist
    · rintro (hdump | hstray)
      · cases hdump
      · cases hstray

end Documents

-- ---------------------------------------------------------------------------
-- Files
-- ---------------------------------------------------------------------------

/-- The file at a path is the text of a value that means something in all its parts. -/
def Contains (fs : Files) (path : String) (v : Json) : Prop :=
  v.sound = true ∧ ∃ text, fs.readText path = .ok text ∧ Json.read? text = some v

section Loading

variable {fs : Files} {path : String} {v : Json} {bugs : List Bug}

theorem ofText?_eq_some_iff {text : String} :
    ofText? text = some bugs ↔
      ∃ v, Json.read? text = some v ∧ v.sound = true ∧ (Dump v bugs ∨ Stray v bugs) := by
  simp only [ofText?, Option.bind_eq_some_iff, readBugs?_eq_some_iff]

theorem exists_dump {w : Json} (hw : w = .array (bugs.map Bug.toJson) ∨ w = Bug.answer bugs)
    (hscores : ∀ b ∈ bugs, Bug.ScoreReadsBack b.reportedScore)
    (htext : fs.readText path = .ok w.compact) : ∃ v, Contains fs path v ∧ Dump v bugs := by
  have hbugs : Json.Stores 126 Bug.listOfJson? (.array (bugs.map Bug.toJson)) bugs :=
    Json.stores_list fun b hb => Bug.stores (hscores b hb)
  have hlegible : Json.Legible Json.deepest w := by
    rcases hw with rfl | rfl
    · exact (Json.stores_list fun b hb => Bug.stores (hscores b hb)).legible
    · exact (Bug.stores_answer hscores).legible
  refine ⟨w.reread, ⟨hlegible.sound_reread, w.compact, htext, hlegible.read?_compact⟩, ?_⟩
  obtain ⟨items, hitems, hrecords⟩ := listOfJson?_eq_some_iff.mp hbugs.read_eq
  rcases hw with rfl | rfl
  · rw [hitems]
    exact .bare hrecords
  · have hanswer : (Bug.answer bugs).reread =
        .object ([] ++ ("bugs", .array items) :: []) := by
      rw [← hitems]
      rfl
    rw [hanswer]
    exact .wrapped (by simp) hrecords

theorem load_of_readText {text : String} (h : fs.readText path = .ok text) :
    load fs path = (ofText? text).elim (.error .json) .ok := by
  rw [load, h]
  rfl

theorem load_of_unreadable {cause : IoError} (h : fs.readText path = .error cause) :
    load fs path = .error (.io cause) := by
  rw [load, h]
  rfl

theorem load_eq_ok_iff :
    load fs path = .ok bugs ↔ ∃ v, Contains fs path v ∧ (Dump v bugs ∨ Stray v bugs) := by
  cases htext : fs.readText path with
  | error cause => simp [load_of_unreadable htext, Contains, htext]
  | ok text =>
    have hload : load fs path = .ok bugs ↔ ofText? text = some bugs := by
      rw [load_of_readText htext]
      cases ofText? text <;> simp
    simp only [hload, ofText?_eq_some_iff, Contains, htext, Except.ok.injEq]
    constructor
    · rintro ⟨v, hv, hsound, hform⟩
      exact ⟨v, ⟨hsound, text, rfl, hv⟩, hform⟩
    · rintro ⟨v, ⟨hsound, _, rfl, hv⟩, hform⟩
      exact ⟨v, hv, hsound, hform⟩

/-- Bugs are loaded from a file exactly when it holds a document in one of the two forms,
which gives its records in their order, or one in neither that slips through as the second.
Everything else is an error: that of the file, or that of its text. -/
theorem load_documents (fs : Files) (path : String) :
    (∀ bugs, load fs path = .ok bugs ↔
      ∃ v, Contains fs path v ∧ (Dump v bugs ∨ Stray v bugs)) ∧
    (∀ v bugs, Stray v bugs → ∀ bugs', ¬ Dump v bugs') ∧
    ∀ e, load fs path = .error e ↔
      (∃ cause, e = .io cause ∧ fs.readText path = .error cause) ∨
      e = .json ∧ (∃ text, fs.readText path = .ok text) ∧
        ∀ v, Contains fs path v → ∀ bugs, ¬ Dump v bugs ∧ ¬ Stray v bugs := by
  refine ⟨fun bugs => load_eq_ok_iff, fun v bugs h => h.not_dump, fun e => ?_⟩
  cases htext : fs.readText path with
  | error cause => simp [load_of_unreadable htext, eq_comm]
  | ok text =>
    have hnone : (∀ v, Contains fs path v → ∀ bugs, ¬ Dump v bugs ∧ ¬ Stray v bugs) ↔
        ∀ bugs, load fs path ≠ .ok bugs := by
      simp only [ne_eq, load_eq_ok_iff, not_exists, not_and, not_or]
      exact ⟨fun h bugs v hv => h v hv bugs, fun h v hv bugs => h bugs v hv⟩
    rw [hnone, load_of_readText htext]
    cases ofText? text <;> simp [eq_comm]

/-- A file that is no list of bugs at all, such as the answer of another service, counts as
one without bugs. -/
theorem load_foreign :
    let fs : Files := .ofList [("bugs.json", "\x7b\"results\":[\x7b\"id\":1\x7d]\x7d".toUTF8)]
    (∃ v, Contains fs "bugs.json" v ∧ ∀ bugs, ¬ Dump v bugs) ∧ load fs "bugs.json" = .ok [] := by
  intro fs
  let w : Json := .object [("results", .array [.object [("id", .ofNat 1)]])]
  have hid : Json.Legible 124 (.ofNat 1) := Json.legible_ofInt (by decide) (by decide)
  have hlegible : Json.Legible Json.deepest w :=
    .object (List.forall_mem_singleton.mpr (.array (List.forall_mem_singleton.mpr
      (.object (List.forall_mem_singleton.mpr hid)))))
  have hcompact : w.compact = "\x7b\"results\":[\x7b\"id\":1\x7d]\x7d" := by decide +kernel
  have hplace : Files.place? "bugs.json" = some "bugs.json" := by decide +kernel
  have hfile : Contains fs "bugs.json" w.reread :=
    ⟨hlegible.sound_reread, _, Files.readText_ofList hplace _, hcompact ▸ hlegible.read?_compact⟩
  have hstray : Stray w.reread [] := .unnamed (List.forall_mem_singleton.mpr (by decide))
  exact ⟨⟨w.reread, hfile, hstray.not_dump⟩, load_eq_ok_iff.mpr ⟨_, hfile, .inr hstray⟩⟩

end Loading

end FileTracker

end Triage
