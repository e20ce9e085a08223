import Triage.Json.Document
import Triage.Proofs.Json.Numbers
import Triage.Proofs.Json.Strings

/-!
# Values read back

A value printed on one line is read as itself, up to its numbers: the text of a
number is read as the number its literal denotes (`reread`). That needs every
number to be printed as a literal, and no more nesting than the reader follows
(`Legible`).

Reading is followed along the value, not along the text: what an item of an
array contributes is a prefix of the text, and the reader stops where it ends.
-/

namespace Triage.Json

mutual
def reread : Json → Json
  | .number n => ((literalNumber? n.write).map .number).getD .void
  | .array items => .array (rereadItems items)
  | .object members => .object (rereadMembers members)
  | .void => .null
  | v => v
termination_by structural v => v

def rereadItems : List Json → List Json
  | [] => []
  | v :: rest => v.reread :: rereadItems rest
termination_by structural l => l

def rereadMembers : List (String × Json) → List (String × Json)
  | [] => []
  | m :: rest => rereadMember m :: rereadMembers rest
termination_by structural l => l

def rereadMember : String × Json → String × Json
  | (key, v) => (key, v.reread)
termination_by structural m => m
end

theorem rereadItems_eq_map (items : List Json) : rereadItems items = items.map reread := by
  induction items with
  | nil => rfl
  | cons v rest ih => rw [rereadItems, ih, List.map_cons]

theorem rereadMembers_eq_map (members : List (String × Json)) :
    rereadMembers members = members.map fun m => (m.1, m.2.reread) := by
  induction members with
  | nil => rfl
  | cons m rest ih => rw [rereadMembers, ih, List.map_cons, rereadMember]

theorem soundItems_eq_all (items : List Json) : soundItems items = items.all sound := by
  induction items with
  | nil => rfl
  | cons v rest ih => rw [soundItems, ih, List.all_cons]

theorem soundMembers_eq_all (members : List (String × Json)) :
    soundMembers members = members.all fun m => m.2.sound := by
  induction members with
  | nil => rfl
  | cons m rest ih => rw [soundMembers, ih, List.all_cons, soundMember]

/-- The value is nested at most `n` deep, and its numbers are printed as literals. -/
inductive Legible : Nat → Json → Prop
  | null {n : Nat} : Legible n .null
  | bool {n : Nat} {b : Bool} : Legible n (.bool b)
  | number {n : Nat} {x y : Number} (h : literalNumber? x.write = some y) : Legible n (.number x)
  | string {n : Nat} {s : String} : Legible n (.string s)
  | array {n : Nat} {items : List Json} (h : ∀ v ∈ items, Legible n v) :
    Legible (n + 1) (.array items)
  | object {n : Nat} {members : List (String × Json)} (h : ∀ m ∈ members, Legible n m.2) :
    Legible (n + 1) (.object members)

theorem Legible.sound_reread {n : Nat} {v : Json} (h : Legible n v) : v.reread.sound = true := by
  induction h with
  | number h =>
    rw [reread, h]
    rfl
  | array _ ih =>
    rw [reread, rereadItems_eq_map, sound, soundItems_eq_all, List.all_map]
    exact List.all_eq_true.mpr ih
  | object _ ih =>
    rw [reread, rereadMembers_eq_map, sound, soundMembers_eq_all, List.all_map]
    exact List.all_eq_true.mpr ih
  | _ => rfl

-- ---------------------------------------------------------------------------
-- What a value contributes to the text
-- ---------------------------------------------------------------------------

theorem suffix_writeString (s : String) (k : List Char) : k <:+ writeString s k :=
  (List.suffix_cons _ _).trans ((List.suffix_append _ _).trans (List.suffix_cons _ _))

mutual
theorem suffix_write : (v : Json) → (k : List Char) → k <:+ v.write k
  | .null, k => List.suffix_append ['n', 'u', 'l', 'l'] k
  | .bool true, k => List.suffix_append ['t', 'r', 'u', 'e'] k
  | .bool false, k => List.suffix_append ['f', 'a', 'l', 's', 'e'] k
  | .number n, k => List.suffix_append n.write k
  | .string s, k => suffix_writeString s k
  | .array items, k =>
    ((List.suffix_cons _ k).trans (suffix_writeItems items _)).trans (List.suffix_cons _ _)
  | .object members, k =>
    ((List.suffix_cons _ k).trans (suffix_writeMembers members _)).trans (List.suffix_cons _ _)
  | .void, k => List.suffix_append ['n', 'u', 'l', 'l'] k

theorem suffix_writeItems : (items : List Json) → (k : List Char) → k <:+ writeItems items k
  | [], k => List.suffix_refl k
  | v :: rest, k => by
    rw [writeItems]
    refine List.IsSuffix.trans ?_ (suffix_write v _)
    split
    · exact List.suffix_refl k
    · exact (suffix_writeItems rest k).trans (List.suffix_cons _ _)

theorem suffix_writeMembers :
    (members : List (String × Json)) → (k : List Char) → k <:+ writeMembers members k
  | [], k => List.suffix_refl k
  | m :: rest, k => by
    rw [writeMembers]
    refine List.IsSuffix.trans ?_ (suffix_writeMember m _)
    split
    · exact List.suffix_refl k
    · exact (suffix_writeMembers rest k).trans (List.suffix_cons _ _)

theorem suffix_writeMember : (m : String × Json) → (k : List Char) → k <:+ writeMember m k
  | (key, v), k =>
    ((suffix_write v k).trans (List.suffix_cons _ _)).trans (suffix_writeString key _)
end

theorem skipBlanks_cons {c : Char} (h : isBlank c = false) (text : List Char) :
    skipBlanks (c :: text) = c :: text := by
  rw [skipBlanks, List.dropWhile_cons_of_neg (by simp [h])]

theorem Legible.exists_cons {n : Nat} {v : Json} (h : Legible n v) (k : List Char) :
    ∃ c text, v.write k = c :: text ∧ isBlank c = false ∧ c ≠ ']' := by
  cases h with
  | null => exact ⟨_, _, rfl, by decide, by decide⟩
  | @bool _ b => cases b <;> exact ⟨_, _, rfl, by decide, by decide⟩
  | @number _ x _ h =>
    obtain ⟨l, hl, -⟩ := literalNumber?_eq_some_iff.mp h
    obtain ⟨c, text, hc, hstart⟩ := exists_cons_of_readLiteral hl
    refine ⟨c, text ++ k, by rw [write, hc, List.cons_append], ?_⟩
    rcases hstart with rfl | hdigit
    · exact ⟨by decide, by decide⟩
    · refine ⟨isBlank_eq_false_of_isDigit hdigit, ?_⟩
      rintro rfl
      exact absurd hdigit (by decide)
  | string => exact ⟨_, _, rfl, by decide, by decide⟩
  | array => exact ⟨_, _, rfl, by decide, by decide⟩
  | object => exact ⟨_, _, rfl, by decide, by decide⟩

-- ---------------------------------------------------------------------------
-- Reading along the value
-- ---------------------------------------------------------------------------

/-- Before any text that does not continue it, the text of the value is read
when there is fuel for twice its length. -/
def ReadsBack (levels : Nat) (v : Json) : Prop :=
  ∀ {fuel : Nat} {k : List Char}, Stops k → 2 * (v.write k).length ≤ fuel →
    readValue levels (fuel + 1) (v.write k) = some (v.reread, k)

theorem readItems_writeItems {levels fuel : Nat} {items : List Json} {k : List Char}
    (hne : items ≠ []) (h : ∀ v ∈ items, ReadsBack levels v)
    (hfuel : 2 * (writeItems items (']' :: k)).length ≤ fuel) :
    readItems levels (fuel + 2) (writeItems items (']' :: k)) = some (items.map reread, k) := by
  induction items generalizing fuel with
  | nil => exact absurd rfl hne
  | cons v rest ih =>
    have hv : ReadsBack levels v := h v List.mem_cons_self
    cases rest with
    | nil =>
      rw [writeItems, List.isEmpty_nil, if_pos rfl] at hfuel ⊢
      rw [readItems, hv (stops_cons (by decide)) hfuel]
      rfl
    | cons w rest =>
      rw [writeItems, List.isEmpty_cons, if_neg Bool.false_ne_true] at hfuel ⊢
      have hlength := (suffix_write v (',' :: writeItems (w :: rest) (']' :: k))).length_le
      rw [List.length_cons] at hlength
      have hrest : readItems levels (fuel + 1) (writeItems (w :: rest) (']' :: k)) =
          some ((w :: rest).map reread, k) := by
        obtain ⟨fuel, rfl⟩ : ∃ f, fuel = f + 1 := ⟨fuel - 1, by omega⟩
        exact ih (List.cons_ne_nil _ _) (fun u hu => h u (List.mem_cons_of_mem _ hu)) (by omega)
      rw [readItems, hv (stops_cons (by decide)) hfuel]
      simp only [Option.bind_eq_bind, Option.bind_some, skipBlanks_cons (c := ',') (by decide),
        hrest]
      rfl

theorem readMembers_writeString (levels fuel : Nat) (key : String) (text : List Char) :
    readMembers levels (fuel + 1) (writeString key (':' :: text)) =
      (readValue levels fuel text).bind fun p =>
        match skipBlanks p.2 with
        | ',' :: rest =>
          (readMembers levels fuel rest).bind fun q => some ((some key, p.1) :: q.1, q.2)
        | '\x7d' :: rest => some ([(some key, p.1)], rest)
        | _ => none := by
  rw [writeString, readMembers, skipBlanks_cons (by decide)]
  simp only [readString_writeString, Option.bind_eq_bind, Option.bind_some]
  rfl

theorem readMembers_writeMembers {levels fuel : Nat} {members : List (String × Json)}
    {k : List Char} (hne : members ≠ []) (h : ∀ m ∈ members, ReadsBack levels m.2)
    (hfuel : 2 * (writeMembers members ('\x7d' :: k)).length ≤ fuel) :
    readMembers levels (fuel + 2) (writeMembers members ('\x7d' :: k)) =
      some (members.map fun m => (some m.1, m.2.reread), k) := by
  induction members generalizing fuel with
  | nil => exact absurd rfl hne
  | cons m rest ih =>
    obtain ⟨key, v⟩ := m
    have hv : ReadsBack levels v := h (key, v) List.mem_cons_self
    cases rest with
    | nil =>
      rw [writeMembers, List.isEmpty_nil, if_pos rfl, writeMember] at hfuel ⊢
      have hkey := (suffix_writeString key (':' :: v.write ('\x7d' :: k))).length_le
      rw [List.length_cons] at hkey
      rw [readMembers_writeString, hv (stops_cons (by decide)) (by omega)]
      rfl
    | cons w rest =>
      rw [writeMembers, List.isEmpty_cons, if_neg Bool.false_ne_true, writeMember] at hfuel ⊢
      have hkey := (suffix_writeString key
        (':' :: v.write (',' :: writeMembers (w :: rest) ('\x7d' :: k)))).length_le
      have hlength := (suffix_write v (',' :: writeMembers (w :: rest) ('\x7d' :: k))).length_le
      rw [List.length_cons] at hkey hlength
      have hrest : readMembers levels (fuel + 1) (writeMembers (w :: rest) ('\x7d' :: k)) =
          some ((w :: rest).map fun m => (some m.1, m.2.reread), k) := by
        obtain ⟨fuel, rfl⟩ : ∃ f, fuel = f + 1 := ⟨fuel - 1, by omega⟩
        exact ih (List.cons_ne_nil _ _) (fun u hu => h u (List.mem_cons_of_mem _ hu)) (by omega)
      rw [readMembers_writeString, hv (stops_cons (by decide)) (by omega), Option.bind_some]
      simp only [skipBlanks_cons (c := ',') (by decide), hrest, Option.bind_some]
      rfl

theorem mapM_map_eq_some {α β : Type} {f : β → Option α} {g : α → β} {l : List α}
    (h : ∀ x ∈ l, f (g x) = some x) : (l.map g).mapM f = some l := by
  induction l with
  | nil => rfl
  | cons x rest ih =>
    obtain ⟨hx, hrest⟩ := List.forall_mem_cons.mp h
    rw [List.map_cons, List.mapM_cons, hx, ih hrest]
    rfl

theorem ofMembers_map (members : List (String × Json)) :
    ofMembers (members.map fun m => (some m.1, m.2)) = .object members := by
  rw [ofMembers, mapM_map_eq_some]
  intro m _
  rfl

theorem readValue_literal {levels fuel : Nat} {c : Char} {text : List Char}
    (h : c = '-' ∨ c.isDigit = true) :
    readValue levels (fuel + 1) (c :: text) = readNumber (c :: text) := by
  have hne : ∀ x : Char, x ≠ '-' → x.isDigit = false → c ≠ x := by
    rintro x hminus hdigit rfl
    rcases h with h | h
    · exact hminus h
    · rw [hdigit] at h
      cases h
  have hblank : isBlank c = false := by
    rcases h with rfl | h
    · decide
    · exact isBlank_eq_false_of_isDigit h
  rw [readValue, skipBlanks_cons hblank]
  split
  · rename_i he
    exact absurd (List.cons.inj he).1 (hne _ (by decide) (by decide))
  · rename_i he
    exact absurd (List.cons.inj he).1 (hne _ (by decide) (by decide))
  · rename_i he
    exact absurd (List.cons.inj he).1 (hne _ (by decide) (by decide))
  · rename_i he
    exact absurd (List.cons.inj he).1 (hne _ (by decide) (by decide))
  · rename_i he
    exact absurd (List.cons.inj he).1 (hne _ (by decide) (by decide))
  · rename_i he
    exact absurd (List.cons.inj he).1 (hne _ (by decide) (by decide))
  · rfl

theorem readValue_bracket {levels fuel : Nat} {c : Char} {text : List Char}
    (hc : isBlank c = false) (hne : c ≠ ']') :
    readValue levels (fuel + 1) ('[' :: c :: text) =
      (readItems (levels - 1) fuel (c :: text)).map fun p => (nested levels (.array p.1), p.2) := by
  rw [readValue, skipBlanks_cons (by decide)]
  simp only [skipBlanks_cons hc]
  split
  · rename_i he
    exact absurd (List.cons.inj he).1 hne
  · rfl

theorem readValue_brace {levels fuel : Nat} (text : List Char) :
    readValue levels (fuel + 1) ('\x7b' :: '"' :: text) =
      (readMembers (levels - 1) fuel ('"' :: text)).map fun p =>
        (nested levels (ofMembers p.1), p.2) := by
  rw [readValue, skipBlanks_cons (by decide)]
  simp only [skipBlanks_cons (c := '"') (by decide)]
  rfl

theorem nested_of_pos {levels : Nat} (h : 0 < levels) (v : Json) : nested levels v = v := by
  rw [nested, if_neg (by omega)]

/-- A legible value is read back before any text that does not continue it. -/
theorem Legible.readsBack {n levels : Nat} {v : Json} (h : Legible n v) (hn : n ≤ levels) :
    ReadsBack levels v := by
  induction h generalizing levels with
  | null =>
    intro fuel k _ _
    rfl
  | @bool _ b =>
    intro fuel k _ _
    cases b <;> rfl
  | @number _ x y h =>
    intro fuel k hk _
    obtain ⟨l, hl, -⟩ := literalNumber?_eq_some_iff.mp h
    obtain ⟨c, text, hc, hstart⟩ := exists_cons_of_readLiteral hl
    have hread := readNumber_append hk h
    rw [write, reread, h]
    rw [hc] at hread ⊢
    exact (readValue_literal hstart).trans hread
  | @string _ s =>
    intro fuel k _ _
    rw [write, writeString, readValue, skipBlanks_cons (by decide)]
    simp only [readString_writeString]
    rfl
  | @array n items hitems ih =>
    intro fuel k _ hfuel
    rw [reread, rereadItems_eq_map]
    cases items with
    | nil => exact congrArg (fun v => some (v, k)) (nested_of_pos (by omega) _)
    | cons v rest =>
      rw [write, List.length_cons] at hfuel
      obtain ⟨fuel, rfl⟩ : ∃ f, fuel = f + 2 := ⟨fuel - 2, by omega⟩
      have hitems' : ∀ u ∈ v :: rest, ReadsBack (levels - 1) u :=
        fun u hu => ih u hu (by omega : n ≤ levels - 1)
      have hread : readItems (levels - 1) (fuel + 2) (writeItems (v :: rest) (']' :: k)) =
          some ((v :: rest).map reread, k) :=
        readItems_writeItems (List.cons_ne_nil _ _) hitems' (by omega)
      obtain ⟨c, text, hc, hblank, hne⟩ := (hitems v List.mem_cons_self).exists_cons
        (if rest.isEmpty then ']' :: k else ',' :: writeItems rest (']' :: k))
      rw [write]
      rw [writeItems, hc] at hread ⊢
      rw [readValue_bracket hblank hne, hread, Option.map_some, nested_of_pos (by omega)]
  | @object n members hmembers ih =>
    intro fuel k _ hfuel
    rw [reread, rereadMembers_eq_map]
    cases members with
    | nil => exact congrArg (fun v => some (v, k)) (nested_of_pos (by omega) _)
    | cons m rest =>
      rw [write, List.length_cons] at hfuel
      obtain ⟨fuel, rfl⟩ : ∃ f, fuel = f + 2 := ⟨fuel - 2, by omega⟩
      have hmembers' : ∀ u ∈ m :: rest, ReadsBack (levels - 1) u.2 :=
        fun u hu => ih u hu (by omega : n ≤ levels - 1)
      have hread : readMembers (levels - 1) (fuel + 2) (writeMembers (m :: rest) ('\x7d' :: k)) =
          some ((m :: rest).map fun u => (some u.1, u.2.reread), k) :=
        readMembers_writeMembers (List.cons_ne_nil _ _) hmembers' (by omega)
      rw [write]
      rw [writeMembers, writeMember, writeString] at hread ⊢
      rw [readValue_brace, hread, Option.map_some, nested_of_pos (by omega), ← ofMembers_map,
        List.map_map]
      rfl

theorem Legible.read?_compact {v : Json} (h : Legible deepest v) :
    read? v.compact = some v.reread := by
  have hread := h.readsBack (Nat.le_refl _) stops_nil (Nat.le_succ _)
  rw [read?, compact, String.toList_ofList, hread]
  rfl

-- ---------------------------------------------------------------------------
-- Numbers of the 32-bit format
-- ---------------------------------------------------------------------------

theorem readNumber_eq_some_number {text rest : List Char} {n : Number}
    (h : readNumber text = some (.number n, rest)) :
    ∃ l, readLiteral text = some (l, rest) ∧ l.number? = some n := by
  rw [readNumber, Option.map_eq_some_iff] at h
  obtain ⟨⟨l, rest'⟩, hl, h⟩ := h
  dsimp only at h
  split at h
  · rename_i hn
    cases h
    exact ⟨l, hl, hn⟩
  · cases h

theorem eq_number_of_nested {levels : Nat} {v : Json} {n : Number}
    (h : nested levels v = .number n) : v = .number n := by
  rw [nested] at h
  split at h
  · cases h
  · exact h

theorem ofMembers_ne_number (members : List (Option String × Json)) (n : Number) :
    ofMembers members ≠ .number n := by
  rw [ofMembers]
  split
  · exact Json.noConfusion
  · exact Json.noConfusion

theorem readNumber_of_readValue {levels fuel : Nat} {text rest : List Char} {n : Number}
    (h : readValue levels fuel text = some (.number n, rest)) :
    readNumber (skipBlanks text) = some (.number n, rest) := by
  cases fuel with
  | zero => cases h
  | succ fuel =>
    rw [readValue] at h
    split at h
    · cases h
    · cases h
    · cases h
    · rw [Option.map_eq_some_iff] at h
      obtain ⟨⟨s, k⟩, -, h⟩ := h
      cases s <;> cases h
    · split at h
      · cases eq_number_of_nested (Prod.mk.inj (Option.some.inj h)).1
      · obtain ⟨p, -, h⟩ := Option.map_eq_some_iff.mp h
        cases eq_number_of_nested (Prod.mk.inj h).1
    · split at h
      · cases eq_number_of_nested (Prod.mk.inj (Option.some.inj h)).1
      · obtain ⟨p, -, h⟩ := Option.map_eq_some_iff.mp h
        exact absurd (eq_number_of_nested (Prod.mk.inj h).1) (ofMembers_ne_number _ _)
    · exact h

theorem skipBlanks_eq_self {text : List Char} (h : ∀ c ∈ text, isBlank c = false) :
    skipBlanks text = text := by
  cases text with
  | nil => rfl
  | cons c rest => exact skipBlanks_cons (h c List.mem_cons_self) rest

/-- A number whose text is read as that number is finite and printed as a
literal of it. -/
theorem literalNumber?_of_read? {x : Binary32}
    (h : (read? (ofSingle x).compact).bind single? = some x) :
    ofSingle x = .number (.single x) ∧
      ∃ n, literalNumber? (Number.single x).write = some n ∧ n.toSingle = x := by
  cases x with
  | finite s m e =>
    refine ⟨rfl, ?_⟩
    obtain ⟨v, hv, hx⟩ := Option.bind_eq_some_iff.mp h
    cases v with
    | number n =>
      refine ⟨n, ?_, Option.some.inj hx⟩
      have hplain : ∀ c ∈ (Number.single (.finite s m e)).write, isBlank c = false :=
        fun c => isBlank_of_mem_write_single
      rw [read?, compact, String.toList_ofList, ofSingle, write, List.append_nil] at hv
      split at hv
      · rename_i v rest hread
        split at hv
        · rename_i hend
          cases hv
          have hnumber := readNumber_of_readValue hread
          rw [skipBlanks_eq_self hplain] at hnumber
          obtain ⟨l, hl, hn⟩ := readNumber_eq_some_number hnumber
          have hrest : rest = [] := by
            rw [← List.isEmpty_iff, ← hend, skipBlanks_eq_self]
            exact fun c hc => hplain c ((suffix_of_readLiteral hl).subset hc)
          rw [hrest] at hl
          exact literalNumber?_eq_some_iff.mpr ⟨l, hl, hn⟩
        · cases hv
      · cases hv
    | _ => cases hx
  | infinity s =>
    change (read? Json.null.compact).bind single? = _ at h
    rw [Legible.read?_compact .null] at h
    cases h
  | nan =>
    change (read? Json.null.compact).bind single? = _ at h
    rw [Legible.read?_compact .null] at h
    cases h

end Triage.Json
