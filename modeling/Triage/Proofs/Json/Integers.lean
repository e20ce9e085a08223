import Triage.Proofs.Json.Values

/-!
# Integer literals

A number literal is read as an integer when it is written as one, without
fraction and exponent, and 64 bits hold it: unsigned without a sign, signed
behind a minus. The negative zero is a literal of its own and no integer.
-/

namespace Triage.Json

/-- The literal is written as the integer: digits without leading zeros, behind
a minus if it is negative. -/
inductive IntegerLiteral : List Char → Int → Prop
  | natural {whole : List Char} {n : Nat} (hwhole : WholePart whole) (h : Text.Spells whole n) :
      IntegerLiteral whole n
  | negative {whole : List Char} {n : Nat} (hwhole : WholePart whole) (h : Text.Spells whole n)
      (hpos : 0 < n) : IntegerLiteral ('-' :: whole) (-n)

section Parts

variable {text digits : List Char}

-- ---------------------------------------------------------------------------
-- Digits in a word
-- ---------------------------------------------------------------------------

theorem le_ofDigits (start : Nat) (digits : List Char) : start ≤ Text.ofDigits start digits := by
  induction digits generalizing start with
  | nil => exact Nat.le_refl _
  | cons c rest ih =>
    have hnext := ih (10 * start + Text.digitValue c)
    rw [Text.ofDigits, List.foldl_cons, ← Text.ofDigits]
    omega

theorem gather_of_le {word : Nat} {digits : List Char}
    (h : Text.ofDigits word digits ≤ Word.greatest64) :
    gather word digits = (Text.ofDigits word digits, []) := by
  induction digits generalizing word with
  | nil => rfl
  | cons c rest ih =>
    have hnext := Nat.le_trans (le_ofDigits (10 * word + Text.digitValue c) rest) h
    rw [gather, if_pos hnext]
    exact ih h

theorem gather_eq_nil_iff {word n : Nat} (hword : word ≤ Word.greatest64) :
    gather word digits = (n, []) ↔ Text.ofDigits word digits = n ∧ n ≤ Word.greatest64 := by
  constructor
  · intro h
    induction digits generalizing word with
    | nil =>
      cases h
      exact ⟨rfl, hword⟩
    | cons c rest ih =>
      rw [gather] at h
      split at h
      · rename_i hnext
        exact ih hnext h
      · cases h
  · rintro ⟨rfl, hn⟩
    exact gather_of_le hn

-- ---------------------------------------------------------------------------
-- Literals that are read as integers
-- ---------------------------------------------------------------------------

theorem readFraction_eq_none {rest : List Char} (h : readFraction text = some (none, rest)) :
    rest = text := by
  rw [readFraction.eq_def] at h
  split at h
  · rename_i tail
    rcases hd : spanDigits tail with ⟨digits, after⟩
    simp only [hd] at h
    split at h <;> cases h
  · cases h
    rfl

theorem readExponent_eq_none {rest : List Char} (h : readExponent text = some (none, rest)) :
    rest = text := by
  rw [readExponent] at h
  split at h
  · rcases hs : readExponentSign (text.drop 1) with ⟨down, a⟩
    rcases hd : spanDigits a with ⟨digits, b⟩
    simp only [hs, hd] at h
    split at h <;> cases h
  · cases h
    rfl

theorem map_double_ne_integer (x : Option Binary64) (k : Int) :
    x.map Number.double ≠ some (.integer k) := by
  cases x <;> simp

theorem Literal.eq_none_of_number? {l : Literal} {k : Int} (h : l.number? = some (.integer k)) :
    l.fraction = none ∧ l.exponent = none := by
  rcases hg : gather 0 l.whole with ⟨word, left⟩
  simp only [number?, hg] at h
  split at h
  · rename_i hf he
    exact ⟨hf, he⟩
  · rcases hd : gather word (l.fraction.getD []) with ⟨word', rest⟩
    simp only [hd] at h
    split at h
    · exact absurd h (map_double_ne_integer _ _)
    · split at h
      · exact absurd h (map_double_ne_integer _ _)
      · split at h <;> cases h

theorem number?_whole_eq_integer_iff {negative : Bool} {whole : List Char} {k : Int} :
    (Literal.mk negative whole none none).number? = some (.integer k) ↔
      ∃ n, gather 0 whole = (n, []) ∧ (negative = false ∧ k = n ∨
        negative = true ∧ k = -(n : Int) ∧ 0 < n ∧ Word.leastInt64 ≤ k) := by
  rcases hg : gather 0 whole with ⟨word, left⟩
  simp only [Literal.number?, hg]
  cases left with
  | cons c left => simp
  | nil =>
    cases negative with
    | false => simp [eq_comm]
    | true =>
      by_cases hword : 0 < word ∧ Word.leastInt64 ≤ -(word : Int)
      · have hiff : -(word : Int) = k ↔ k = -(word : Int) ∧ Word.leastInt64 ≤ k := by
          constructor
          · rintro rfl
            exact ⟨rfl, hword.2⟩
          · exact fun h => h.1.symm
        simpa [hword] using hiff
      · have hnot : k = -(word : Int) → 0 < word → k < Word.leastInt64 := by
          rintro rfl hpos
          exact Int.not_le.mp fun hleast => hword ⟨hpos, hleast⟩
        simpa [hword] using hnot

theorem readLiteral_whole_iff {negative : Bool} {whole : List Char} :
    readLiteral text = some (⟨negative, whole, none, none⟩, []) ↔
      WholePart whole ∧ (∀ c ∈ whole, c.isDigit = true) ∧
        text = if negative then '-' :: whole else whole := by
  rw [readLiteral_eq_some_iff]
  constructor
  · rintro ⟨a, b, c, hs, hd, hwhole, hfraction, hexponent⟩
    obtain rfl := readExponent_eq_none hexponent
    obtain rfl := readFraction_eq_none hfraction
    rw [spanDigits_eq, Prod.mk.injEq] at hd
    obtain ⟨rfl, hend⟩ := hd
    have hall : ∀ c ∈ a, c.isDigit = true := List.dropWhile_eq_nil_iff.mp hend
    rw [List.takeWhile_eq_self_iff.mpr hall] at hwhole ⊢
    refine ⟨hwhole, hall, ?_⟩
    rw [readSign.eq_def] at hs
    split at hs <;> cases hs <;> rfl
  · rintro ⟨hwhole, hall, rfl⟩
    have hd : spanDigits whole = (whole, []) := by
      rw [spanDigits_eq, List.takeWhile_eq_self_iff.mpr hall, List.dropWhile_eq_nil_iff.mpr hall]
    refine ⟨_, _, _, ?_, hd, hwhole, rfl, rfl⟩
    cases negative with
    | true => rfl
    | false =>
      have hminus : ∀ rest, whole ≠ '-' :: rest := by
        rintro rest rfl
        exact absurd (hall '-' List.mem_cons_self) (by decide)
      exact readSign.eq_2 whole hminus

theorem integerLiteral_of_literalNumber? {k : Int}
    (h : literalNumber? text = some (.integer k)) :
    IntegerLiteral text k ∧ Word.leastInt64 ≤ k ∧ k ≤ Word.greatest64 := by
  obtain ⟨⟨negative, whole, fraction, exponent⟩, hl, hn⟩ := literalNumber?_eq_some_iff.mp h
  obtain ⟨rfl, rfl⟩ := Literal.eq_none_of_number? hn
  obtain ⟨hwhole, hall, rfl⟩ := readLiteral_whole_iff.mp hl
  obtain ⟨n, hg, hk⟩ := number?_whole_eq_integer_iff.mp hn
  obtain ⟨hvalue, hfits⟩ := (gather_eq_nil_iff (Nat.zero_le _)).mp hg
  have hspells : Text.Spells whole n := ⟨hwhole.1, hall, hvalue⟩
  obtain ⟨rfl, rfl⟩ | ⟨rfl, rfl, hpos, hleast⟩ := hk
  · refine ⟨.natural hwhole hspells, ?_, by exact_mod_cast hfits⟩
    simp only [Word.leastInt64]
    omega
  · refine ⟨.negative hwhole hspells hpos, hleast, ?_⟩
    omega

theorem literalNumber?_of_integerLiteral {k : Int} (h : IntegerLiteral text k)
    (hleast : Word.leastInt64 ≤ k) (hgreatest : k ≤ Word.greatest64) :
    literalNumber? text = some (.integer k) := by
  rw [literalNumber?_eq_some_iff]
  cases h with
  | @natural _ n hwhole h =>
    have hg : gather 0 text = (n, []) :=
      (gather_eq_nil_iff (Nat.zero_le _)).mpr ⟨h.value, by exact_mod_cast hgreatest⟩
    exact ⟨⟨false, text, none, none⟩, readLiteral_whole_iff.mpr ⟨hwhole, h.isDigit, rfl⟩,
      number?_whole_eq_integer_iff.mpr ⟨n, hg, .inl ⟨rfl, rfl⟩⟩⟩
  | @negative whole n hwhole h hpos =>
    have hg : gather 0 whole = (n, []) := by
      refine (gather_eq_nil_iff (Nat.zero_le _)).mpr ⟨h.value, ?_⟩
      simp only [Word.leastInt64, Word.greatest64] at hleast ⊢
      omega
    exact ⟨⟨true, whole, none, none⟩, readLiteral_whole_iff.mpr ⟨hwhole, h.isDigit, rfl⟩,
      number?_whole_eq_integer_iff.mpr ⟨n, hg, .inr ⟨rfl, rfl, hpos, hleast⟩⟩⟩

theorem literalNumber?_of_fitsInt64 {k : Int} (h : IntegerLiteral text k)
    (hfits : Word.fitsInt64 k) : literalNumber? text = some (.integer k) := by
  obtain ⟨hleast, hgreatest⟩ : Word.leastInt64 ≤ k ∧ k ≤ Word.greatestInt64 := by
    simpa [Word.fitsInt64] using hfits
  have hbound : Word.greatestInt64 ≤ Word.greatest64 := by decide
  exact literalNumber?_of_integerLiteral h hleast (Int.le_trans hgreatest hbound)

-- ---------------------------------------------------------------------------
-- Integers are printed as their own literals
-- ---------------------------------------------------------------------------

theorem head?_digits_ne {n : Nat} (h : 0 < n) : (Text.digits n).head? ≠ some '0' := by
  unfold Text.digits
  induction n using Nat.base_induction 10 (by decide) with
  | single m hm =>
    rw [Nat.toDigits_of_lt_base hm]
    revert h
    revert m
    decide
  | digit m k hk hm ih =>
    obtain ⟨c, tail, hct⟩ := List.exists_cons_of_ne_nil (Nat.toDigits_ne_nil (n := m) (b := 10))
    rw [← Nat.toDigits_append_toDigits (by decide) hm hk]
    rw [hct] at ih ⊢
    exact ih hm

theorem wholePart_digits (n : Nat) : WholePart (Text.digits n) := by
  refine ⟨Nat.toDigits_ne_nil, fun hhead => ?_⟩
  rcases Nat.eq_zero_or_pos n with rfl | hn
  · decide
  · exact absurd hhead (head?_digits_ne hn)

theorem integerLiteral_writeInt (k : Int) : IntegerLiteral (writeInt k) k := by
  rw [writeInt]
  split
  · rename_i hk
    have hneg : -(k.natAbs : Int) = k := by omega
    have h := IntegerLiteral.negative (wholePart_digits k.natAbs) (Text.spells_digits k.natAbs)
      (by omega)
    rwa [hneg] at h
  · rename_i hk
    have hnat : (k.natAbs : Int) = k := by omega
    have h := IntegerLiteral.natural (wholePart_digits k.natAbs) (Text.spells_digits k.natAbs)
    rwa [hnat] at h

theorem literalNumber?_writeInt {k : Int} (hleast : Word.leastInt64 ≤ k)
    (hgreatest : k ≤ Word.greatest64) : literalNumber? (writeInt k) = some (.integer k) :=
  literalNumber?_of_integerLiteral (integerLiteral_writeInt k) hleast hgreatest

theorem IntegerLiteral.spellsSigned {k : Int} (h : IntegerLiteral text k) :
    Text.SpellsSigned text k := by
  cases h with
  | natural _ h => exact .unsigned h
  | negative _ h => exact .minus h

theorem read?_literal {x : Number} (h : literalNumber? text = some x) :
    read? (String.ofList text) = some (.number x) := by
  obtain ⟨l, hl, -⟩ := literalNumber?_eq_some_iff.mp h
  obtain ⟨c, rest, rfl, hc⟩ := exists_cons_of_readLiteral hl
  have hread := readNumber_append stops_nil h
  rw [List.append_nil] at hread
  rw [read?, String.toList_ofList, readValue_literal hc, hread]
  rfl

end Parts

end Triage.Json
