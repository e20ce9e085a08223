import Mathlib.Data.List.Nodup
import Triage.Proofs.Json.Integers
import Triage.Proofs.Json.Values
import Triage.Proofs.SortedMap

/-!
# Records read back

A value stores `x` for a reader when its text is legible and reads as `x`
(`Stores`). Texts, lists, maps and records of stored parts are stored: one
lemma for each way to put parts together.

A record is written as its fields in order, some of which are left out
(`present`). A field that is left out has to have the reader's default
(`Field.Holds`); then the reader finds every field as it was.
-/

namespace Triage

namespace Json

/-- The text of `v`, nested at most `n` deep, is read as `x`. -/
structure Stores {α : Type} (n : Nat) (read : Json → Option α) (v : Json) (x : α) : Prop where
  legible : Legible n v
  read_eq : read v.reread = some x

section Parts

variable {α : Type} {n : Nat} {read : Json → Option α}

theorem stores_string (s : String) : Stores n Document.text? (.string s) s := ⟨.string, rfl⟩

theorem stores_true : Stores n Document.flag? (.bool true) true := ⟨.bool, rfl⟩

theorem legible_ofInt {k : Int} (hleast : Word.leastInt64 ≤ k) (hgreatest : k ≤ Word.greatest64) :
    Legible n (.ofInt k) :=
  .number (literalNumber?_writeInt hleast hgreatest)

theorem reread_ofInt {k : Int} (hleast : Word.leastInt64 ≤ k) (hgreatest : k ≤ Word.greatest64) :
    (ofInt k).reread = .ofInt k := by
  have hnumber : literalNumber? (Number.integer k).write = some (.integer k) :=
    literalNumber?_writeInt hleast hgreatest
  rw [ofInt, reread, hnumber]
  rfl

theorem stores_natural {m : Nat} (h : m ≤ Word.greatest64) :
    Stores n Document.natural? (.ofNat m) m := by
  have hleast : Word.leastInt64 ≤ (m : Int) := by
    simp only [Word.leastInt64]
    omega
  have hgreatest : (m : Int) ≤ Word.greatest64 := Int.ofNat_le.mpr h
  refine ⟨legible_ofInt hleast hgreatest, ?_⟩
  have hread : (ofNat m).reread = .ofInt m := reread_ofInt hleast hgreatest
  change natural? _ = _
  rw [hread, ofInt, natural?, if_pos (Int.natCast_nonneg _), Int.toNat_natCast]

theorem stores_ofNat (m : UInt32) : Stores n Document.uint32? (.ofNat m.toNat) m := by
  have hm : m.toNat ≤ Word.greatest32 := Nat.le_of_lt_succ m.toNat_lt
  obtain ⟨hlegible, hread⟩ := stores_natural (n := n) (m := m.toNat) (by
    simp only [Word.greatest32, Word.greatest64] at hm ⊢
    omega)
  refine ⟨hlegible, ?_⟩
  rw [Document.uint32?, Document.atMost?, hread, Option.filter_some_pos (by simpa using hm),
    Option.map_some, UInt32.ofNat_toNat]

theorem stores_uint64 (m : UInt64) : Stores n Document.uint64? (.ofNat m.toNat) m := by
  have hm : m.toNat ≤ Word.greatest64 := Nat.le_of_lt_succ m.toNat_lt
  obtain ⟨hlegible, hread⟩ := stores_natural (n := n) hm
  refine ⟨hlegible, ?_⟩
  rw [Document.uint64?, Document.atMost?, hread, Option.filter_some_pos (by simpa using hm),
    Option.map_some, UInt64.ofNat_toNat]

theorem stores_single {x : Binary32} (h : (read? (ofSingle x).compact).bind single? = some x) :
    Stores n Document.single? (.ofSingle x) x := by
  obtain ⟨hx, y, hy, hsingle⟩ := literalNumber?_of_read? h
  rw [hx]
  refine ⟨.number hy, ?_⟩
  rw [reread, hy]
  exact congrArg some hsingle

theorem stores_list {value : α → Json} {l : List α} (h : ∀ x ∈ l, Stores n read (value x) x) :
    Stores (n + 1) (Document.list? read) (.array (l.map value)) l := by
  refine ⟨.array ?_, ?_⟩
  · rintro _ hv
    obtain ⟨x, hx, rfl⟩ := List.mem_map.mp hv
    exact (h x hx).legible
  · rw [reread, rereadItems_eq_map, List.map_map]
    exact mapM_map_eq_some fun x hx => (h x hx).read_eq

theorem stores_strings (l : List String) :
    Stores (n + 1) Document.strings? (.ofStrings l) l :=
  stores_list fun s _ => stores_string s

/-- Something optional that is there and not written as null. -/
theorem Stores.optional {v : Json} {x : α} (h : Stores n read v x)
    (hnull : Document.isNull v.reread = false) :
    Stores n (Document.optional? read) v (some x) := by
  refine ⟨h.legible, ?_⟩
  rw [Document.optional?, if_neg (by simp [hnull]), h.read_eq]
  rfl

theorem stores_map {value : α → Json} {m : SortedMap String α}
    (h : ∀ x ∈ m.values, Stores n read (value x) x) :
    Stores (n + 1) (Document.map? read) (.ofMap value m) m := by
  have hvalue : ∀ e ∈ m.entries, Stores n read (value e.2) e.2 :=
    fun e he => h e.2 (List.mem_map_of_mem he)
  refine ⟨.object ?_, ?_⟩
  · intro u hu
    obtain ⟨e, he, rfl⟩ := List.mem_map.mp hu
    exact (hvalue e he).legible
  · have hmembers : Document.entries? (ofMap value m).reread =
        some (m.entries.map fun e => (e.1, (value e.2).reread)) := by
      rw [ofMap, reread, rereadMembers_eq_map, SortedMap.mapValues, List.map_map]
      rfl
    rw [Document.map?, hmembers, Option.bind_eq_bind, Option.bind_some, mapM_map_eq_some]
    · exact congrArg some m.ofList_entries
    · intro e he
      dsimp only
      rw [(hvalue e he).read_eq]
      rfl

end Parts

-- ---------------------------------------------------------------------------
-- Fields
-- ---------------------------------------------------------------------------

structure Field where
  written : Bool
  key : String
  value : Json

def present (fields : List Field) : List (String × Json) :=
  fields.flatMap fun f => memberIf f.written f.key f.value

/-- What stands for a field when the text of the record is read. -/
def lookupReread (fields : List Field) (name : String) : Option Json :=
  ((present fields).lookup name).map reread

section Fields

variable {α : Type} {n : Nat} {read : Json → Option α} {fields : List Field} {f : Field}

theorem keys_present_sublist (fields : List Field) :
    ((present fields).map (·.1)).Sublist (fields.map (·.key)) := by
  induction fields with
  | nil => exact List.Sublist.refl _
  | cons f rest ih =>
    rw [present, List.flatMap_cons, ← present, List.map_append, List.map_cons, memberIf]
    split
    · exact ih.cons_cons f.key
    · exact ih.cons f.key

theorem lookup_present_of_notMem {name : String} (h : name ∉ fields.map (·.key)) :
    (present fields).lookup name = none := by
  rw [List.lookup_eq_none_iff]
  intro m hm
  have hkey : m.1 ∈ fields.map (·.key) :=
    (keys_present_sublist fields).subset (List.mem_map_of_mem hm)
  rw [bne_iff_ne]
  rintro rfl
  exact h hkey

theorem lookup_present (hn : (fields.map (·.key)).Nodup) (hf : f ∈ fields) :
    (present fields).lookup f.key = if f.written then some f.value else none := by
  induction fields with
  | nil => cases hf
  | cons g rest ih =>
    obtain ⟨hfresh, hrest⟩ := List.nodup_cons.mp hn
    rw [present, List.flatMap_cons, ← present, List.lookup_append]
    rcases List.mem_cons.mp hf with rfl | hf
    · rw [lookup_present_of_notMem hfresh, Option.or_none, memberIf]
      split <;> simp
    · have hne : f.key ≠ g.key := by
        intro he
        exact hfresh (List.mem_map.mpr ⟨f, hf, he⟩)
      have hskip : (memberIf g.written g.key g.value).lookup f.key = none := by
        rw [memberIf]
        split
        · rw [SortedMap.lookup_cons_eq, if_neg hne]
          rfl
        · rfl
      rw [ih hrest hf, hskip, Option.none_or]

theorem countKey_le_one {members : List (String × Json)} (h : (members.map (·.1)).Nodup)
    (name : String) : countKey name members ≤ 1 := by
  have hcount := List.nodup_iff_count_le_one.mp h name
  rwa [List.count, List.countP_map] at hcount

theorem countKey_eq_zero_iff {key : String} {members : List (String × Json)} :
    countKey key members = 0 ↔ ∀ m ∈ members, m.1 ≠ key := by
  simp [countKey, List.countP_eq_zero]

theorem lookup_map_reread (members : List (String × Json)) (name : String) :
    (members.map fun m => (m.1, m.2.reread)).lookup name = (members.lookup name).map reread := by
  induction members with
  | nil => rfl
  | cons m rest ih =>
    rw [List.map_cons, SortedMap.lookup_cons_eq, SortedMap.lookup_cons_eq, ih]
    split <;> rfl

/-- The text of a record is taken for a record by every reader, whatever fields it asks for. -/
theorem fields?_present (hn : (fields.map (·.key)).Nodup) (names : List String) :
    Document.fields? names (Json.object (present fields)).reread =
      some (lookupReread fields) := by
  have hkeys : (((present fields).map fun m => (m.1, m.2.reread)).map (·.1)).Nodup := by
    rw [List.map_map]
    exact (keys_present_sublist fields).nodup hn
  rw [reread, rereadMembers_eq_map]
  change (if _ then _ else _) = _
  rw [if_pos (List.all_eq_true.mpr fun name _ => decide_eq_true (countKey_le_one hkeys name))]
  exact congrArg some (funext fun name => lookup_map_reread _ name)

theorem fields?_reread_present (hn : (fields.map (·.key)).Nodup) (names : List String) :
    (Json.object (present fields)).reread.fields? names = some (lookupReread fields) :=
  fields?_present hn names

/-- The field stands for `x`: it is written as `x`, or left out where `x` is the default. -/
structure Field.Holds (n : Nat) (read : Json → Option α) (default x : α) (f : Field) : Prop where
  stores : f.written = true → Stores n read f.value x
  default_eq : f.written = false → x = default

theorem holds_written {default x : α} {key : String} {v : Json} (h : Stores n read v x) :
    Field.Holds n read default x ⟨true, key, v⟩ :=
  ⟨fun _ => h, (nomatch ·)⟩

theorem holds_text {key : String} (s : String) :
    Field.Holds n Document.text? "" s ⟨s != "", key, .string s⟩ :=
  ⟨fun _ => stores_string s, fun hw => by simpa using hw⟩

theorem holds_list {l : List α} {read : Json → Option (List α)} {key : String} {v : Json}
    (h : Stores n read v l) : Field.Holds n read [] l ⟨!l.isEmpty, key, v⟩ :=
  ⟨fun _ => h, fun hw => by simpa using hw⟩

theorem holds_map {m : SortedMap String α} {read : Json → Option (SortedMap String α)}
    {key : String} {v : Json} (h : Stores n read v m) :
    Field.Holds n read .empty m ⟨!m.isEmpty, key, v⟩ := by
  refine ⟨fun _ => h, fun hw => SortedMap.eq_of_entries_eq ?_⟩
  have hempty : m.entries = [] := by simpa [SortedMap.isEmpty] using hw
  exact hempty

theorem holds_optional {value : α → Json} {key : String} {x : Option α}
    (h : ∀ a ∈ x, Stores n read (value a) a)
    (hnull : ∀ a ∈ x, Document.isNull (value a).reread = false) :
    Field.Holds n (Document.optional? read) none x ⟨x.isSome, key, .ofOption value x⟩ := by
  cases x with
  | none => exact ⟨(nomatch ·), fun _ => rfl⟩
  | some a => exact holds_written ((h a rfl).optional (hnull a rfl))

theorem Field.Holds.legible {default x : α} (h : f.Holds n read default x)
    (hw : f.written = true) : Legible n f.value :=
  (h.stores hw).legible

theorem Field.Holds.defaulted? {default x : α} (h : f.Holds n read default x)
    (hn : (fields.map (·.key)).Nodup) (hf : f ∈ fields) :
    Document.defaulted? (lookupReread fields) f.key default read = some x := by
  rw [Document.defaulted?, lookupReread, lookup_present hn hf]
  cases hw : f.written with
  | true => exact (h.stores hw).read_eq
  | false => exact congrArg some (h.default_eq hw).symm

theorem Stores.required? {key : String} {v : Json} {x : α} (h : Stores n read v x)
    (hn : (fields.map (·.key)).Nodup) (hf : ⟨true, key, v⟩ ∈ fields) :
    Document.required? (lookupReread fields) key read = some x := by
  rw [Document.required?, lookupReread, lookup_present hn hf]
  exact h.read_eq

theorem legible_present (h : ∀ f ∈ fields, f.written = true → Legible n f.value) :
    Legible (n + 1) (.object (present fields)) := by
  refine .object fun m hm => ?_
  obtain ⟨f, hf, hm⟩ := List.mem_flatMap.mp hm
  rw [memberIf] at hm
  split at hm
  · rename_i hw
    obtain rfl := List.mem_singleton.mp hm
    exact h f hf hw
  · cases hm

end Fields

end Json

end Triage
