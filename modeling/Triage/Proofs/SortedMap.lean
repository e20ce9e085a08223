import Mathlib.Algebra.GroupWithZero.Nat
import Mathlib.Data.List.Nodup
import Triage.SortedMap

/-!
# Maps filled one entry at a time

A map is built by inserting the entries of a list (`ofList`), by laying another
map over it (`extend`), or by filing values under keys, each behind those that
are there already. The lemmas here say what is found under a key afterwards;
nothing else has to reason about the folds.
-/

namespace Triage.SortedMap

-- ---------------------------------------------------------------------------
-- Lists of entries with distinct keys
-- ---------------------------------------------------------------------------

section Entries

variable {κ α : Type} [DecidableEq κ] {l l' : List (κ × α)} {key : κ} {value : α}

theorem mem_of_lookup (h : l.lookup key = some value) : (key, value) ∈ l := by
  obtain ⟨before, after, rfl, -⟩ := List.lookup_eq_some_iff.mp h
  simp

theorem lookup_eq_some_iff_mem (hl : (l.map (·.1)).Nodup) :
    l.lookup key = some value ↔ (key, value) ∈ l := by
  refine ⟨mem_of_lookup, fun h => ?_⟩
  induction l with
  | nil => simp at h
  | cons e rest ih =>
    obtain ⟨hne, hrest⟩ := List.nodup_cons.mp hl
    rw [lookup_cons_eq]
    rcases List.mem_cons.mp h with rfl | h
    · simp
    · have hk : key ≠ e.1 := by
        rintro rfl
        exact hne (List.mem_map.mpr ⟨_, h, rfl⟩)
      rw [if_neg hk]
      exact ih hrest h

theorem lookup_perm (hl : (l.map (·.1)).Nodup) (hp : l.Perm l') :
    l.lookup key = l'.lookup key := by
  have hl' : (l'.map (·.1)).Nodup := (hp.map _).nodup_iff.mp hl
  ext value
  rw [lookup_eq_some_iff_mem hl, lookup_eq_some_iff_mem hl', hp.mem_iff]

end Entries

section Keys

variable {κ α : Type} [LT κ] [LE κ] [Std.LawfulOrderLT κ]

theorem keys_nodup (m : SortedMap κ α) : m.keys.Nodup := by
  refine m.keys_pairwise.imp ?_
  rintro a _ h rfl
  exact Std.lt_irrefl h

variable [DecidableEq κ]

theorem entries_eq_map_keys (m : SortedMap κ (List α)) :
    m.entries = m.keys.map fun k => (k, (m.get? k).getD []) := by
  have hentry : ∀ e ∈ m.entries, (e.1, (m.get? e.1).getD []) = e := fun e he => by
    rw [m.mem_entries_iff.mp he, Option.getD_some]
  rw [keys, List.map_map]
  exact (List.map_id _).symm.trans (List.map_congr_left fun e he => (hentry e he).symm)

theorem values_eq_map_keys (m : SortedMap κ (List α)) :
    m.values = m.keys.map fun k => (m.get? k).getD [] := by
  have hvalues := congrArg (List.map (·.2)) m.entries_eq_map_keys
  rwa [List.map_map] at hvalues

end Keys

-- ---------------------------------------------------------------------------
-- Inserted entries
-- ---------------------------------------------------------------------------

section Inserted

variable {κ α : Type} [LT κ] [LE κ] [DecidableLT κ] [DecidableEq κ]
variable [Std.IsLinearOrder κ] [Std.LawfulOrderLT κ]

theorem get?_foldl_insert (l : List (κ × α)) (m : SortedMap κ α) (key : κ) :
    (l.foldl (fun acc e => acc.insert e.1 e.2) m).get? key =
      (l.reverse.lookup key).or (m.get? key) := by
  induction l generalizing m with
  | nil => simp
  | cons e rest ih =>
    rw [List.foldl_cons, ih, get?_insert, List.reverse_cons, List.lookup_append, Option.or_assoc,
      lookup_cons_eq]
    split <;> simp

theorem get?_ofList (l : List (κ × α)) (key : κ) : (ofList l).get? key = l.reverse.lookup key := by
  rw [ofList, get?_foldl_insert, get?_empty, Option.or_none]

theorem get?_extend (m n : SortedMap κ α) (key : κ) :
    (m.extend n).get? key = (n.get? key).or (m.get? key) := by
  rw [extend, get?_foldl_insert, ← lookup_perm n.keys_nodup (List.reverse_perm n.entries).symm]
  rfl

theorem ofList_entries (m : SortedMap κ α) : ofList m.entries = m := by
  refine ext_get? fun key => ?_
  rw [get?_ofList, ← lookup_perm m.keys_nodup (List.reverse_perm m.entries).symm]
  rfl

theorem extend_assoc (a b c : SortedMap κ α) : (a.extend b).extend c = a.extend (b.extend c) :=
  ext_get? fun key => by simp [get?_extend, Option.or_assoc]

theorem extend_self (m : SortedMap κ α) : m.extend m = m :=
  ext_get? fun key => by rw [get?_extend, Option.or_self]

theorem mem_of_mem_ofList {l : List (κ × α)} {e : κ × α} (h : e ∈ (ofList l).entries) : e ∈ l := by
  have hget := (ofList l).mem_entries_iff.mp h
  rw [get?_ofList] at hget
  exact List.mem_reverse.mp (mem_of_lookup hget)

theorem get?_ofList_eq_some_iff {l : List (κ × α)} (hl : (l.map (·.1)).Nodup) {key : κ}
    {value : α} : (ofList l).get? key = some value ↔ (key, value) ∈ l := by
  rw [get?_ofList, ← lookup_perm hl (List.reverse_perm l).symm, lookup_eq_some_iff_mem hl]

theorem entries_ofList_perm {l : List (κ × α)} (hl : (l.map (·.1)).Nodup) :
    (ofList l).entries.Perm l := by
  have hentries : (ofList l).entries.Nodup := List.Nodup.of_map _ (keys_nodup _)
  refine (List.perm_ext_iff_of_nodup hentries (List.Nodup.of_map _ hl)).mpr ?_
  rintro ⟨key, value⟩
  rw [mem_entries_iff, get?_ofList_eq_some_iff hl]

theorem ofList_perm {l l' : List (κ × α)} (hl : (l.map (·.1)).Nodup) (hp : l'.Perm l) :
    ofList l' = ofList l := by
  have hl' : (l'.map (·.1)).Nodup := (hp.map _).nodup_iff.mpr hl
  refine ext_get? fun key => Option.ext fun value => ?_
  rw [get?_ofList_eq_some_iff hl', get?_ofList_eq_some_iff hl, hp.mem_iff]

theorem mem_keys_ofList_iff {l : List (κ × α)} {key : κ} :
    key ∈ (ofList l).keys ↔ ∃ e ∈ l, e.1 = key := by
  rw [mem_keys_iff, get?_ofList, List.lookup_isSome_iff]
  constructor
  · rintro ⟨e, he, hk⟩
    exact ⟨e, List.mem_reverse.mp he, (eq_of_beq hk).symm⟩
  · rintro ⟨e, he, rfl⟩
    exact ⟨e, List.mem_reverse.mpr he, beq_self_eq_true _⟩

end Inserted

-- ---------------------------------------------------------------------------
-- Filed values
-- ---------------------------------------------------------------------------

section Filed

variable {κ α β : Type} [LT κ] [LE κ] [DecidableLT κ] [DecidableEq κ]
variable [Std.IsLinearOrder κ] [Std.LawfulOrderLT κ]

/-- The map with `value x` filed last under `key x`, for every `x` of the list in turn. -/
def fileAll (key : β → κ) (value : β → α) (l : List β) (m : SortedMap κ (List α)) :
    SortedMap κ (List α) :=
  l.foldl (fun acc x => acc.alter (key x) fun old => old.getD [] ++ [value x]) m

variable (key : β → κ) (value : β → α) (l : List β) (m : SortedMap κ (List α)) (k : κ)

/-- Under a key stand the values that were there and behind them, in the order
of the list, those filed under it. -/
theorem getD_get?_fileAll :
    ((fileAll key value l m).get? k).getD [] =
      (m.get? k).getD [] ++ (l.filter (key · == k)).map value := by
  induction l generalizing m with
  | nil => simp [fileAll]
  | cons x rest ih =>
    rw [fileAll, List.foldl_cons, ← fileAll, ih, get?_alter, List.filter_cons]
    by_cases hk : k = key x
    · simp [hk]
    · have hk' : (key x == k) = false := by simpa using Ne.symm hk
      simp [hk, hk']

theorem mem_keys_fileAll_iff :
    k ∈ (fileAll key value l m).keys ↔ k ∈ m.keys ∨ ∃ x ∈ l, key x = k := by
  induction l generalizing m with
  | nil => simp [fileAll]
  | cons x rest ih =>
    rw [fileAll, List.foldl_cons, ← fileAll, ih, mem_keys_iff, get?_alter, mem_keys_iff]
    by_cases hk : k = key x
    · simp [hk]
    · simp [hk, Ne.symm hk]

end Filed

-- ---------------------------------------------------------------------------
-- Altered entries
-- ---------------------------------------------------------------------------

section Altered

variable {κ α : Type} [LT κ] [LE κ] [DecidableLT κ] [DecidableEq κ]
variable [Std.IsLinearOrder κ] [Std.LawfulOrderLT κ]

theorem get?_foldl_alter (f : Option α → α) {keys : List κ} (hkeys : keys.Nodup)
    (m : SortedMap κ α) (k : κ) :
    (keys.foldl (fun acc key => acc.alter key f) m).get? k =
      if k ∈ keys then some (f (m.get? k)) else m.get? k := by
  induction keys generalizing m with
  | nil => simp
  | cons key rest ih =>
    obtain ⟨hkey, hrest⟩ := List.nodup_cons.mp hkeys
    rw [List.foldl_cons, ih hrest, get?_alter]
    by_cases hk : k = key
    · simp [hk, hkey]
    · simp [hk]

omit [DecidableEq κ] in
theorem sum_values_alter_succ (m : SortedMap κ Nat) (key : κ) :
    (m.alter key fun n => n.getD 0 + 1).values.sum = m.values.sum + 1 := by
  obtain ⟨l, hl⟩ := m
  show ((alterEntries key _ l).map (·.2)).sum = (l.map (·.2)).sum + 1
  clear hl
  induction l with
  | nil => rfl
  | cons e rest ih =>
    rw [alterEntries]
    split
    · simp [Nat.add_comm]
    · split
      · simp [ih, Nat.add_assoc]
      · simp [Nat.add_right_comm]

end Altered

end Triage.SortedMap
