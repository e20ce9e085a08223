/-!
# Sorted maps

A finite map held as the list of its entries in strictly increasing key order.
The order is part of the type, so a map is printed in key order without
sorting, and two maps with the same look-ups are equal (`ext_get?`).

Inserting replaces an entry of the same key: `get?_insert` says what a look-up
finds afterwards, `get?_extend` the same for one map laid over another.
-/

namespace Triage

/-- A map from `κ` to `α`; `entries` lists it by strictly increasing key. -/
structure SortedMap (κ : Type) (α : Type) [LT κ] where
  entries : List (κ × α)
  sorted : entries.Pairwise (fun a b => a.1 < b.1)

namespace SortedMap

section Basic

variable {κ α β : Type} [LT κ]

instance [DecidableEq κ] [DecidableEq α] : DecidableEq (SortedMap κ α) := fun a b =>
  match a, b with
  | ⟨x, _⟩, ⟨y, _⟩ =>
    if h : x = y then .isTrue (by subst h; rfl) else .isFalse (by intro e; cases e; exact h rfl)

instance [Repr κ] [Repr α] : Repr (SortedMap κ α) := ⟨fun m n => reprPrec m.entries n⟩

def empty : SortedMap κ α := ⟨[], .nil⟩

instance : EmptyCollection (SortedMap κ α) := ⟨empty⟩
instance : Inhabited (SortedMap κ α) := ⟨empty⟩

def isEmpty (m : SortedMap κ α) : Bool := m.entries.isEmpty

def size (m : SortedMap κ α) : Nat := m.entries.length

def keys (m : SortedMap κ α) : List κ := m.entries.map (·.1)

def values (m : SortedMap κ α) : List α := m.entries.map (·.2)

def get? [BEq κ] (m : SortedMap κ α) (key : κ) : Option α := m.entries.lookup key

def contains [BEq κ] (m : SortedMap κ α) (key : κ) : Bool := (m.get? key).isSome

def mapValues (m : SortedMap κ α) (f : κ → α → β) : SortedMap κ β where
  entries := m.entries.map fun e => (e.1, f e.1 e.2)
  sorted := by
    rw [List.pairwise_map]
    exact m.sorted

@[simp] theorem keys_mapValues (m : SortedMap κ α) (f : κ → α → β) :
    (m.mapValues f).keys = m.keys := by
  simp [keys, mapValues, Function.comp_def]

theorem eq_of_entries_eq {m n : SortedMap κ α} (h : m.entries = n.entries) : m = n := by
  cases m; cases n; cases h; rfl

theorem keys_pairwise (m : SortedMap κ α) : m.keys.Pairwise (· < ·) := by
  rw [keys, List.pairwise_map]
  exact m.sorted

end Basic

-- ---------------------------------------------------------------------------
-- Insertion
-- ---------------------------------------------------------------------------

section Insert

variable {κ α : Type} [LT κ] [DecidableLT κ]

/-- The entry of `key` made to hold `f` of what it held, at the place its key gives it. -/
def alterEntries (key : κ) (f : Option α → α) : List (κ × α) → List (κ × α)
  | [] => [(key, f none)]
  | e :: rest =>
    if key < e.1 then (key, f none) :: e :: rest
    else if e.1 < key then e :: alterEntries key f rest
    else (key, f (some e.2)) :: rest

theorem mem_alterEntries {key : κ} {f : Option α → α} {l : List (κ × α)} {x : κ × α} :
    x ∈ alterEntries key f l → x.1 = key ∨ x ∈ l := by
  induction l with
  | nil => intro h; left; simp only [alterEntries, List.mem_singleton] at h; rw [h]
  | cons e rest ih =>
    rw [alterEntries]
    split
    · grind
    · split
      · grind
      · grind

end Insert

section Ordered

variable {κ α : Type} [LT κ] [LE κ] [DecidableLT κ] [Std.IsLinearOrder κ] [Std.LawfulOrderLT κ]

omit [DecidableLT κ] in
theorem eq_of_not_lt {a b : κ} (h : ¬ a < b) (h' : ¬ b < a) : a = b :=
  Std.le_antisymm (Std.not_lt.mp h') (Std.not_lt.mp h)

theorem pairwise_alterEntries (key : κ) (f : Option α → α) {l : List (κ × α)}
    (h : l.Pairwise (fun a b => a.1 < b.1)) :
    (alterEntries key f l).Pairwise (fun a b => a.1 < b.1) := by
  induction l with
  | nil => simp [alterEntries]
  | cons e rest ih =>
    have hr := (List.pairwise_cons.mp h).1
    rw [alterEntries]
    split
    · rename_i hk
      refine List.pairwise_cons.mpr ⟨?_, h⟩
      intro x hx
      rcases List.mem_cons.mp hx with rfl | hx
      · exact hk
      · exact Std.lt_trans hk (hr x hx)
    · rename_i hk
      split
      · rename_i hk'
        refine List.pairwise_cons.mpr ⟨?_, ih (List.pairwise_cons.mp h).2⟩
        intro x hx
        rcases mem_alterEntries hx with hx | hx
        · rw [hx]; exact hk'
        · exact hr x hx
      · rename_i hk'
        refine List.pairwise_cons.mpr ⟨?_, (List.pairwise_cons.mp h).2⟩
        intro x hx
        rw [eq_of_not_lt hk hk']
        exact hr x hx

def alter (m : SortedMap κ α) (key : κ) (f : Option α → α) : SortedMap κ α :=
  ⟨alterEntries key f m.entries, pairwise_alterEntries key f m.sorted⟩

def insert (m : SortedMap κ α) (key : κ) (value : α) : SortedMap κ α :=
  m.alter key fun _ => value

/-- `n` laid over `m`: an entry of `n` replaces the one of its key. -/
def extend (m n : SortedMap κ α) : SortedMap κ α :=
  n.entries.foldl (fun acc e => acc.insert e.1 e.2) m

/-- The map of a list of entries; of entries with one key the last counts. -/
def ofList (l : List (κ × α)) : SortedMap κ α :=
  l.foldl (fun acc e => acc.insert e.1 e.2) empty

end Ordered

-- ---------------------------------------------------------------------------
-- Look-ups
-- ---------------------------------------------------------------------------

section Lookup

variable {κ α : Type} [LT κ] [DecidableEq κ]

omit [LT κ] in
theorem lookup_cons_eq (key : κ) (e : κ × α) (rest : List (κ × α)) :
    (e :: rest).lookup key = if key = e.1 then some e.2 else rest.lookup key := by
  obtain ⟨k, v⟩ := e
  rw [List.lookup_cons]
  by_cases h : key = k
  · simp [h]
  · have : (key == k) = false := by simpa using h
    simp [this, h]

@[simp] theorem get?_empty (key : κ) : (empty : SortedMap κ α).get? key = none := rfl

variable [LE κ] [Std.IsLinearOrder κ] [Std.LawfulOrderLT κ]

omit [Std.IsLinearOrder κ] in
theorem lookup_eq_none_of_lt {l : List (κ × α)} {key : κ} (h : ∀ e ∈ l, key < e.1) :
    l.lookup key = none := by
  induction l with
  | nil => rfl
  | cons e rest ih =>
    have hne : key ≠ e.1 := fun he => Std.lt_irrefl (he ▸ h e (by simp))
    rw [lookup_cons_eq, if_neg hne]
    exact ih fun x hx => h x (List.mem_cons_of_mem _ hx)

theorem lookup_eq_none_of_lt_head {e : κ × α} {rest : List (κ × α)} {key : κ}
    (hs : (e :: rest).Pairwise (fun a b => a.1 < b.1)) (h : key < e.1) :
    (e :: rest).lookup key = none := by
  refine lookup_eq_none_of_lt fun x hx => ?_
  rcases List.mem_cons.mp hx with rfl | hx
  · exact h
  · exact Std.lt_trans h ((List.pairwise_cons.mp hs).1 x hx)

omit [Std.IsLinearOrder κ] in
theorem mem_entries_iff (m : SortedMap κ α) {key : κ} {value : α} :
    (key, value) ∈ m.entries ↔ m.get? key = some value := by
  obtain ⟨l, hl⟩ := m
  show (key, value) ∈ l ↔ l.lookup key = some value
  induction l with
  | nil => simp
  | cons e rest ih =>
    have hr := (List.pairwise_cons.mp hl).1
    rw [lookup_cons_eq, List.mem_cons, ih (List.pairwise_cons.mp hl).2]
    by_cases hk : key = e.1
    · subst hk
      rw [lookup_eq_none_of_lt hr, if_pos rfl]
      constructor
      · rintro (h | h)
        · rw [← h]
        · cases h
      · intro h
        exact .inl (Prod.ext rfl (Option.some.inj h).symm)
    · rw [if_neg hk]
      constructor
      · rintro (h | h)
        · exact absurd (Prod.ext_iff.mp h).1 hk
        · exact h
      · exact .inr

omit [Std.IsLinearOrder κ] in
theorem mem_keys_iff (m : SortedMap κ α) {key : κ} : key ∈ m.keys ↔ (m.get? key).isSome := by
  rw [keys, List.mem_map, Option.isSome_iff_exists]
  constructor
  · rintro ⟨⟨k, v⟩, hm, rfl⟩
    exact ⟨v, m.mem_entries_iff.mp hm⟩
  · rintro ⟨v, hv⟩
    exact ⟨(key, v), m.mem_entries_iff.mpr hv, rfl⟩

theorem ext_get? {m n : SortedMap κ α} (h : ∀ key, m.get? key = n.get? key) : m = n := by
  apply eq_of_entries_eq
  obtain ⟨l, hl⟩ := m
  obtain ⟨l', hl'⟩ := n
  replace h : ∀ key, l.lookup key = l'.lookup key := h
  show l = l'
  induction l generalizing l' with
  | nil =>
    cases l' with
    | nil => rfl
    | cons e rest =>
      have := h e.1
      rw [lookup_cons_eq, if_pos rfl] at this
      cases this
  | cons e rest ih =>
    cases l' with
    | nil =>
      have := h e.1
      rw [lookup_cons_eq, if_pos rfl] at this
      cases this
    | cons e' rest' =>
      have hkey : e.1 = e'.1 := by
        apply eq_of_not_lt
        · intro hlt
          have := h e.1
          rw [lookup_eq_none_of_lt_head hl' hlt, lookup_cons_eq, if_pos rfl] at this
          cases this
        · intro hlt
          have := h e'.1
          rw [lookup_eq_none_of_lt_head hl hlt, lookup_cons_eq, if_pos rfl] at this
          cases this
      have hval : e.2 = e'.2 := by
        have := h e.1
        rw [lookup_cons_eq, lookup_cons_eq, if_pos rfl, if_pos hkey] at this
        exact Option.some.inj this
      obtain rfl : e = e' := Prod.ext hkey hval
      congr 1
      refine ih (List.pairwise_cons.mp hl).2 rest' (List.pairwise_cons.mp hl').2 fun key => ?_
      by_cases hk : key = e.1
      · rw [hk, lookup_eq_none_of_lt (List.pairwise_cons.mp hl).1,
          lookup_eq_none_of_lt (List.pairwise_cons.mp hl').1]
      · have := h key
        rwa [lookup_cons_eq, lookup_cons_eq, if_neg hk, if_neg hk] at this

variable [DecidableLT κ]

theorem lookup_alterEntries (key other : κ) (f : Option α → α) {l : List (κ × α)}
    (h : l.Pairwise (fun a b => a.1 < b.1)) :
    (alterEntries key f l).lookup other =
      if other = key then some (f (l.lookup key)) else l.lookup other := by
  induction l with
  | nil => simp [alterEntries, lookup_cons_eq]
  | cons e rest ih =>
    replace ih := ih (List.pairwise_cons.mp h).2
    rw [alterEntries]
    split
    · rename_i hk
      rw [lookup_cons_eq, lookup_eq_none_of_lt_head h hk]
    · rename_i hk
      split
      · rename_i hk'
        have hne : key ≠ e.1 := fun he => Std.lt_irrefl (he ▸ hk')
        rw [lookup_cons_eq, ih, lookup_cons_eq other, lookup_cons_eq key, if_neg hne]
        by_cases ho : other = key
        · rw [if_pos ho, if_pos ho, if_neg (ho ▸ hne)]
        · rw [if_neg ho, if_neg ho]
      · rename_i hk'
        have he : key = e.1 := eq_of_not_lt hk hk'
        subst he
        rw [lookup_cons_eq, lookup_cons_eq e.1, lookup_cons_eq other, if_pos rfl]
        by_cases ho : other = e.1
        · rw [if_pos ho, if_pos ho]
        · rw [if_neg ho, if_neg ho, if_neg ho]

theorem get?_alter (m : SortedMap κ α) (key other : κ) (f : Option α → α) :
    (m.alter key f).get? other = if other = key then some (f (m.get? key)) else m.get? other :=
  lookup_alterEntries key other f m.sorted

theorem get?_insert (m : SortedMap κ α) (key other : κ) (value : α) :
    (m.insert key value).get? other = if other = key then some value else m.get? other :=
  get?_alter m key other _

end Lookup

end SortedMap

end Triage
