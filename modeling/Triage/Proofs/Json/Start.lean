import Mathlib.Data.List.DropRight
import Triage.Json.Document
import Triage.Json.Reader

/-!
# What is read of a text before its end

A reader that takes the parts of an array or object one by one has seen some of them
when the text breaks off. In a text that holds a value it sees all of them, in order.
-/

namespace Triage.Json

section Blanks

variable (levels fuel : Nat) (text : List Char)

theorem skipBlanks_idem : skipBlanks (skipBlanks text) = skipBlanks text :=
  List.dropWhile_idempotent _ _

theorem readValue_skipBlanks :
    readValue levels fuel (skipBlanks text) = readValue levels fuel text := by
  cases fuel with
  | zero => rfl
  | succ fuel => rw [readValue, readValue, skipBlanks_idem]

theorem startOfItems_skipBlanks :
    startOfItems levels fuel (skipBlanks text) = startOfItems levels fuel text := by
  cases fuel with
  | zero => rfl
  | succ fuel => rw [startOfItems, startOfItems, readValue_skipBlanks]

theorem startOfMembers_skipBlanks :
    startOfMembers levels fuel (skipBlanks text) = startOfMembers levels fuel text := by
  cases fuel with
  | zero => rfl
  | succ fuel => rw [startOfMembers, startOfMembers, skipBlanks_idem]

end Blanks

section Parts

variable {levels fuel : Nat} {text rest : List Char}

theorem startOfItems_of_readItems {items : List Json}
    (h : readItems levels fuel text = some (items, rest)) :
    startOfItems levels fuel text = items := by
  induction fuel generalizing text items with
  | zero => cases h
  | succ fuel ih =>
    rw [readItems, Option.bind_eq_bind, Option.bind_eq_some_iff] at h
    obtain ⟨⟨v, after⟩, hv, h⟩ := h
    rw [startOfItems, hv]
    dsimp only at h ⊢
    split at h
    · rename_i next hnext
      rw [Option.bind_eq_bind, Option.bind_eq_some_iff] at h
      obtain ⟨⟨items, _⟩, hitems, ⟨⟩⟩ := h
      rw [hnext]
      exact congrArg (v :: ·) (ih hitems)
    · rename_i next hnext
      cases h
      rw [hnext]
      rfl
    · cases h

/-- The members of an object begin with one, behind which there are more or the end. -/
theorem readMembers_cases {read : List (Option String × Json)}
    (h : readMembers levels (fuel + 1) text = some (read, rest)) :
    ∃ opened key keyed colon v valued, skipBlanks text = '"' :: opened ∧
      readString opened = some (key, keyed) ∧ skipBlanks keyed = ':' :: colon ∧
      readValue levels fuel colon = some (v, valued) ∧
      ((∃ next more, skipBlanks valued = ',' :: next ∧
        readMembers levels fuel next = some (more, rest) ∧ read = (key, v) :: more) ∨
      skipBlanks valued = '\x7d' :: rest ∧ read = [(key, v)]) := by
  rw [readMembers] at h
  split at h
  · rename_i opened hopened
    rw [Option.bind_eq_bind, Option.bind_eq_some_iff] at h
    obtain ⟨⟨key, keyed⟩, hkey, h⟩ := h
    dsimp only at h
    split at h
    · rename_i colon hcolon
      rw [Option.bind_eq_bind, Option.bind_eq_some_iff] at h
      obtain ⟨⟨v, valued⟩, hv, h⟩ := h
      dsimp only at h
      split at h
      · rename_i next hnext
        rw [Option.bind_eq_bind, Option.bind_eq_some_iff] at h
        obtain ⟨⟨more, _⟩, hmore, ⟨⟩⟩ := h
        exact ⟨opened, key, keyed, colon, v, valued, hopened, hkey, hcolon, hv,
          .inl ⟨next, more, hnext, hmore, rfl⟩⟩
      · rename_i next hnext
        cases h
        exact ⟨opened, key, keyed, colon, v, valued, hopened, hkey, hcolon, hv,
          .inr ⟨hnext, rfl⟩⟩
      · cases h
    · cases h
  · cases h

theorem startOfMembers_of_readMembers {read : List (Option String × Json)}
    {members : List (String × Json)} (h : readMembers levels fuel text = some (read, rest))
    (hkeys : read.mapM (fun (key, v) => key.map (·, v)) = some members) :
    startOfMembers levels fuel text = members := by
  induction fuel generalizing text read members with
  | zero => cases h
  | succ fuel ih =>
    obtain ⟨opened, key, keyed, colon, v, valued, hopened, hkey, hcolon, hv, hend⟩ :=
      readMembers_cases h
    cases key with
    | none => obtain ⟨_, _, _, _, rfl⟩ | ⟨_, rfl⟩ := hend <;> cases hkeys
    | some key =>
      obtain ⟨next, more, hnext, hmore, rfl⟩ | ⟨hnext, rfl⟩ := hend
      · rw [List.mapM_cons] at hkeys
        obtain ⟨_, ⟨⟩, hkeys⟩ := Option.bind_eq_some_iff.mp hkeys
        obtain ⟨rest', hrest, ⟨⟩⟩ := Option.bind_eq_some_iff.mp hkeys
        simp only [startOfMembers, hopened, hkey, hcolon, hv, hnext, ih hmore hrest]
      · cases hkeys
        simp only [startOfMembers, hopened, hkey, hcolon, hv, hnext]
        rfl

theorem startOfItems_closed (h : skipBlanks text = ']' :: rest) :
    startOfItems levels fuel text = [] := by
  cases fuel with
  | zero => rfl
  | succ fuel =>
    have hread : readValue levels fuel text = none := by
      cases fuel with
      | zero => rfl
      | succ fuel =>
        rw [readValue, h]
        rfl
    rw [startOfItems, hread]

theorem startOfMembers_closed (h : skipBlanks text = '\x7d' :: rest) :
    startOfMembers levels fuel text = [] := by
  cases fuel with
  | zero => rfl
  | succ fuel =>
    rw [startOfMembers, h]
    rfl

end Parts

theorem readNumber_eq_some {text rest : List Char} {v : Json}
    (h : readNumber text = some (v, rest)) : v = .void ∨ ∃ n, v = .number n := by
  obtain ⟨⟨l, _⟩, -, h⟩ := Option.map_eq_some_iff.mp h
  dsimp only at h
  cases hn : l.number? with
  | none =>
    rw [hn] at h
    exact .inl (Prod.mk.inj h).1.symm
  | some n =>
    rw [hn] at h
    exact .inr ⟨n, (Prod.mk.inj h).1.symm⟩

theorem ofMembers_ne_void {read : List (Option String × Json)} (h : ofMembers read ≠ .void) :
    ∃ members, read.mapM (fun (key, v) => key.map (·, v)) = some members ∧
      ofMembers read = .object members := by
  rw [ofMembers] at h ⊢
  split at h
  · rename_i members hmembers
    exact ⟨members, hmembers, rfl⟩
  · exact absurd rfl h

/-- The first character of a text tells whether its value is an array or object, and then
the value is what is seen behind that character. -/
theorem readValue_start {levels fuel : Nat} {text rest : List Char} {v : Json}
    (h : readValue (levels + 1) (fuel + 1) text = some (v, rest)) (hv : v ≠ .void) :
    match skipBlanks text with
    | '[' :: opened => v = .array (startOfItems levels fuel opened)
    | '\x7b' :: opened => v = .object (startOfMembers levels fuel opened)
    | _ => v.items? = none ∧ v.members? = none := by
  rw [readValue] at h
  split at h
  case h_1 hstart | h_2 hstart | h_3 hstart =>
    rw [hstart]
    cases h
    exact ⟨rfl, rfl⟩
  case h_4 hstart =>
    rw [hstart]
    obtain ⟨⟨s, _⟩, -, h⟩ := Option.map_eq_some_iff.mp h
    obtain rfl := (Prod.mk.inj h).1
    cases s with
    | none => exact absurd rfl hv
    | some s => exact ⟨rfl, rfl⟩
  case h_5 opened hstart =>
    rw [hstart]
    split at h
    · rename_i hclosed
      obtain rfl := (Prod.mk.inj (Option.some.inj h)).1
      exact congrArg Json.array (startOfItems_closed hclosed).symm
    · obtain ⟨⟨items, _⟩, hitems, h⟩ := Option.map_eq_some_iff.mp h
      obtain rfl := (Prod.mk.inj h).1
      rw [← startOfItems_of_readItems hitems, startOfItems_skipBlanks]
      rfl
  case h_6 opened hstart =>
    rw [hstart]
    split at h
    · rename_i hclosed
      obtain rfl := (Prod.mk.inj (Option.some.inj h)).1
      exact congrArg Json.object (startOfMembers_closed hclosed).symm
    · obtain ⟨⟨read, _⟩, hmembers, h⟩ := Option.map_eq_some_iff.mp h
      obtain rfl : ofMembers read = v := (Prod.mk.inj h).1
      obtain ⟨members, hkeys, hobject⟩ := ofMembers_ne_void hv
      rw [hobject, ← startOfMembers_of_readMembers hmembers hkeys, startOfMembers_skipBlanks]
      rfl
  case h_7 hbracket hbrace =>
    split
    · rename_i hstart
      exact absurd hstart (hbracket _)
    · rename_i hstart
      exact absurd hstart (hbrace _)
    · obtain rfl | ⟨n, rfl⟩ := readNumber_eq_some h
      · exact absurd rfl hv
      · exact ⟨rfl, rfl⟩

/-- In a text that holds a value with a meaning, all of it is seen if it is an array or
object, and nothing otherwise. -/
theorem readStart?_of_read? {text : String} {v : Json} (h : read? text = some v)
    (hv : v ≠ .void) :
    readStart? text = some v ∨ readStart? text = none ∧ v.items? = none ∧ v.members? = none := by
  rw [read?] at h
  split at h
  · rename_i v' rest hread
    split at h
    · obtain rfl := Option.some.inj h
      have hstart := readValue_start hread hv
      rw [readStart?]
      split
      · rename_i hbracket
        rw [hbracket] at hstart
        exact .inl (congrArg some hstart.symm)
      · rename_i hbrace
        rw [hbrace] at hstart
        exact .inl (congrArg some hstart.symm)
      · rename_i hbracket hbrace
        split at hstart
        · rename_i hopened
          exact absurd hopened (hbracket _)
        · rename_i hopened
          exact absurd hopened (hbrace _)
        · exact .inr ⟨rfl, hstart⟩
    · cases h
  · cases h

end Triage.Json
