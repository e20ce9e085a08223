import Mathlib.Data.List.DropRight
import Mathlib.Data.List.TakeWhile
import Triage.Text.Blank
import Triage.Text.Digits
import Triage.Text.Search

/-!
# Numbers and parts of a text

Which texts are read as numbers: digits with leading zeros allowed (`Spells`),
behind at most one sign (`SpellsSigned`), within a bound, and between white
space where that is taken off first (`Padded`). The parts of a text are those
of `List.splitOn`, and what is taken off the end of a text is all that
distinguishes it from another of which the same is left.
-/

namespace Triage.Text

variable {digits text : List Char} {n bound : Nat}

/-- The decimal digits, one at least, have the value `n`. -/
structure Spells (digits : List Char) (n : Nat) : Prop where
  ne_nil : digits ≠ []
  isDigit : ∀ c ∈ digits, c.isDigit = true
  value : Nat.ofDigitChars 10 digits 0 = n

theorem natural?_eq_some_iff : natural? digits = some n ↔ Spells digits n := by
  have hread : ofDigits 0 digits = Nat.ofDigitChars 10 digits 0 := rfl
  rw [natural?, hread]
  constructor
  · intro h
    split at h
    · cases h
    · rename_i hdigits
      simp only [Bool.or_eq_true, List.isEmpty_iff, Bool.not_eq_true', not_or,
        Bool.not_eq_false, List.all_eq_true] at hdigits
      exact ⟨hdigits.1, hdigits.2, Option.some.inj h⟩
  · rintro ⟨hne, hall, hvalue⟩
    rw [if_neg (by simpa [hne] using hall), hvalue]

theorem unsigned?_eq_some_iff : unsigned? bound text = some n ↔
    ∃ digits, (text = digits ∨ text = '+' :: digits) ∧ Spells digits n ∧ n ≤ bound := by
  rw [unsigned?.eq_def, Option.filter_eq_some_iff, natural?_eq_some_iff, decide_eq_true_eq]
  split
  · rename_i rest
    constructor
    · exact fun h => ⟨rest, .inr rfl, h⟩
    · rintro ⟨digits, rfl | hplus, hspells, hle⟩
      · exact absurd (hspells.isDigit '+' List.mem_cons_self) (by decide)
      · cases hplus
        exact ⟨hspells, hle⟩
  · rename_i hplus
    constructor
    · exact fun h => ⟨text, .inl rfl, h⟩
    · rintro ⟨digits, rfl | rfl, h⟩
      · exact h
      · exact absurd rfl (hplus digits)

theorem isDigit_of_mem_digits {c : Char} (h : c ∈ Text.digits n) : c.isDigit = true :=
  Nat.isDigit_of_mem_toDigits (by decide) (by decide) h

theorem not_mem_digits {c : Char} (hc : c.isDigit = false) (n : Nat) : c ∉ Text.digits n := by
  intro hmem
  rw [isDigit_of_mem_digits hmem] at hc
  cases hc

theorem spells_digits (n : Nat) : Spells (Text.digits n) n where
  ne_nil := Nat.toDigits_ne_nil
  isDigit _ := isDigit_of_mem_digits
  value := Nat.ofDigitChars_ten_toDigits

theorem natural?_digits (n : Nat) : natural? (Text.digits n) = some n :=
  natural?_eq_some_iff.mpr (spells_digits n)

theorem splitOn_eq (mark : Char) (text : List Char) : splitOn mark text = text.splitOn mark := by
  induction text with
  | nil => rw [splitOn, List.splitOn_nil]
  | cons c rest ih =>
    rw [splitOn, ih, List.splitOn_cons_eq_if_modifyHead]
    by_cases hc : c = mark
    · simp [hc]
    · obtain ⟨part, parts, hparts⟩ := List.exists_cons_of_ne_nil (List.splitOn_ne_nil mark rest)
      simp [hc, hparts]

theorem not_mem_of_mem_splitOn {mark : Char} {part : List Char} (h : part ∈ splitOn mark text) :
    mark ∉ part := by
  induction text generalizing part with
  | nil => simp_all [splitOn]
  | cons c rest ih =>
    rw [splitOn] at h
    split at h
    · rcases List.mem_cons.mp h with rfl | h
      · exact List.not_mem_nil
      · exact ih h
    · rename_i hc
      split at h
      · rename_i first parts hrest
        rw [hrest] at ih
        rcases List.mem_cons.mp h with rfl | h
        · have hfirst := ih List.mem_cons_self
          simp [hfirst, Ne.symm hc]
        · exact ih (List.mem_cons_of_mem _ h)
      · obtain rfl := List.mem_singleton.mp h
        simp [Ne.symm hc]

theorem not_mem_intercalate {c : Char} {mark : String} {parts : List String}
    (hmark : c ∉ mark.toList) (h : ∀ part ∈ parts, c ∉ part.toList) :
    c ∉ (String.intercalate mark parts).toList := by
  induction parts with
  | nil => simp
  | cons part parts ih =>
    obtain ⟨hpart, hparts⟩ := List.forall_mem_cons.mp h
    cases parts with
    | nil => simpa using hpart
    | cons next more => simpa [String.intercalate_cons_cons, hpart, hmark] using ih hparts

-- ---------------------------------------------------------------------------
-- Signed numbers
-- ---------------------------------------------------------------------------

/-- Decimal digits, behind at most one sign, denote the integer. -/
inductive SpellsSigned : List Char → Int → Prop
  | unsigned {digits : List Char} {n : Nat} (h : Spells digits n) : SpellsSigned digits n
  | plus {digits : List Char} {n : Nat} (h : Spells digits n) : SpellsSigned ('+' :: digits) n
  | minus {digits : List Char} {n : Nat} (h : Spells digits n) : SpellsSigned ('-' :: digits) (-n)

section Signed

variable {k : Int}

theorem SpellsSigned.int64? (h : SpellsSigned text k) (hk : Word.fitsInt64 k) :
    int64? text = some k := by
  cases h with
  | unsigned h =>
    have hsign : ∀ c, c.isDigit = false → ∀ rest, text ≠ c :: rest := by
      rintro c hc rest rfl
      exact absurd (h.isDigit c List.mem_cons_self) (by simp [hc])
    simp [Text.int64?, hsign '-' (by decide), hsign '+' (by decide), natural?_eq_some_iff.mpr h, hk]
  | plus h => simp [Text.int64?, natural?_eq_some_iff.mpr h, hk]
  | minus h => simp [Text.int64?, natural?_eq_some_iff.mpr h, hk]

theorem spellsSigned_of_int64? (h : int64? text = some k) :
    SpellsSigned text k ∧ Word.fitsInt64 k := by
  rw [int64?.eq_def] at h
  obtain ⟨h, hk⟩ := Option.filter_eq_some_iff.mp h
  refine ⟨?_, hk⟩
  simp only [Option.bind_eq_bind, Option.pure_def, Option.map_eq_some_iff,
    Option.bind_eq_some_iff, natural?_eq_some_iff, Option.some.injEq] at h
  obtain ⟨_, ⟨n, hn, rfl⟩, rfl⟩ := h
  split at hn
  · exact .minus hn
  · exact .plus hn
  · exact .unsigned hn

theorem int64?_eq_some_iff : int64? text = some k ↔ SpellsSigned text k ∧ Word.fitsInt64 k :=
  ⟨spellsSigned_of_int64?, fun ⟨h, hk⟩ => h.int64? hk⟩

end Signed

-- ---------------------------------------------------------------------------
-- Characters at the end of a text
-- ---------------------------------------------------------------------------

section Trailing

variable {p : Char → Bool} {text' after : List Char}

theorem trimRight_append (h : ∀ c ∈ after, p c = true) :
    trimRight p (text ++ after) = trimRight p text := by
  have hafter : ∀ c ∈ after.reverse, p c = true := by simpa using h
  rw [trimRight, List.reverse_append, List.dropWhile_append_of_pos hafter, trimRight]

theorem exists_eq_trimRight_append (p : Char → Bool) (text : List Char) :
    ∃ after, text = trimRight p text ++ after ∧ ∀ c ∈ after, p c = true :=
  ⟨text.rtakeWhile p, List.rdropWhile_append_rtakeWhile.symm, fun _ => List.mem_rtakeWhile_imp⟩

theorem trimRight_eq_iff : trimRight p text = trimRight p text' ↔
    ∃ base after after', text = base ++ after ∧ text' = base ++ after' ∧
      (∀ c ∈ after, p c = true) ∧ ∀ c ∈ after', p c = true := by
  constructor
  · intro h
    obtain ⟨after, htext, hafter⟩ := exists_eq_trimRight_append p text
    obtain ⟨after', htext', hafter'⟩ := exists_eq_trimRight_append p text'
    rw [← h] at htext'
    exact ⟨_, after, after', htext, htext', hafter, hafter'⟩
  · rintro ⟨base, after, after', rfl, rfl, hafter, hafter'⟩
    rw [trimRight_append hafter, trimRight_append hafter']

end Trailing

-- ---------------------------------------------------------------------------
-- White space around a text
-- ---------------------------------------------------------------------------

def Padded (core text : List Char) : Prop :=
  ∃ before after, text = before ++ core ++ after ∧
    (∀ c ∈ before, isBlank c = true) ∧ ∀ c ∈ after, isBlank c = true

theorem padded_trim (text : List Char) : Padded (trim text) text := by
  obtain ⟨after, htrim, hafter⟩ := exists_eq_trimRight_append isBlank (text.dropWhile isBlank)
  refine ⟨text.takeWhile isBlank, after, ?_, fun _ => List.mem_takeWhile_imp, hafter⟩
  rw [List.append_assoc, trim, ← htrim, List.takeWhile_append_dropWhile]

theorem dropWhile_append_eq_right {p : Char → Bool} {before rest : List Char}
    (hbefore : ∀ c ∈ before, p c = true) (hrest : ∀ c, rest.head? = some c → p c = false) :
    (before ++ rest).dropWhile p = rest := by
  rw [List.dropWhile_append_of_pos hbefore]
  cases rest with
  | nil => rfl
  | cons c rest => simp [hrest c rfl]

theorem Padded.trim_eq {core : List Char} (h : Padded core text)
    (hcore : ∀ c ∈ core, isBlank c = false) : trim text = core := by
  obtain ⟨before, after, rfl, hbefore, hafter⟩ := h
  have hstart : ∀ c, core.reverse.head? = some c → isBlank c = false := by
    intro c hc
    exact hcore c (List.mem_reverse.mp (List.mem_of_mem_head? hc))
  have hend : (core ++ after).reverse.dropWhile isBlank = core.reverse := by
    rw [List.reverse_append]
    exact dropWhile_append_eq_right (by simpa using hafter) hstart
  cases core with
  | nil =>
    have hnone : (before ++ after).dropWhile isBlank = [] := by
      rw [List.dropWhile_append_of_pos hbefore]
      exact List.dropWhile_eq_nil_iff.mpr hafter
    simp [trim, trimRight, hnone]
  | cons c rest =>
    have hfront : (before ++ (c :: rest ++ after)).dropWhile isBlank = c :: rest ++ after :=
      dropWhile_append_eq_right hbefore (by simp [hcore])
    rw [List.append_assoc, trim, hfront, trimRight, hend, List.reverse_reverse]

theorem isBlank_eq_false_of_isDigit {c : Char} (h : c.isDigit = true) : isBlank c = false := by
  have hrange : 48 ≤ c.toNat ∧ c.toNat ≤ 57 := by
    simpa [Char.isDigit, UInt32.le_iff_toNat_le] using h
  rw [Bool.eq_false_iff]
  simp only [isBlank, ne_eq, Bool.or_eq_true, Bool.and_eq_true, decide_eq_true_eq]
  omega

theorem SpellsSigned.isBlank_eq_false {k : Int} (h : SpellsSigned text k) :
    ∀ c ∈ text, isBlank c = false := by
  have hdigits {digits : List Char} {n : Nat} (h : Spells digits n) :
      ∀ c ∈ digits, isBlank c = false := 
    fun c hc => isBlank_eq_false_of_isDigit (h.isDigit c hc)
  cases h with
  | unsigned h => exact hdigits h
  | plus h => exact List.forall_mem_cons.mpr ⟨by decide, hdigits h⟩
  | minus h => exact List.forall_mem_cons.mpr ⟨by decide, hdigits h⟩

/-- A number is read between white space as it is read alone. -/
theorem int64?_trim_eq_some_iff {k : Int} : int64? (trim text) = some k ↔
    ∃ core, Padded core text ∧ SpellsSigned core k ∧ Word.fitsInt64 k := by
  rw [int64?_eq_some_iff]
  constructor
  · exact fun h => ⟨trim text, padded_trim text, h⟩
  · rintro ⟨core, hpadded, hspells, hk⟩
    rw [hpadded.trim_eq hspells.isBlank_eq_false]
    exact ⟨hspells, hk⟩

end Triage.Text
