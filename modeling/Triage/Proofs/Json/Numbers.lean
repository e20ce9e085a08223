import Mathlib.Data.List.TakeDrop
import Mathlib.Data.List.TakeWhile
import Triage.Json.Printer
import Triage.Json.Reader
import Triage.Proofs.Text

/-!
# Number literals in a text

A literal ends where the text after it begins with no character that could
continue it (`Stops`); then it is read as it is read alone.
-/

namespace Triage.Json

/-- The text does not begin with a character that could continue a number literal. -/
def Stops (text : List Char) : Prop :=
  ∀ c, text.head? = some c → c.isDigit = false ∧ c ≠ '.' ∧ c ≠ 'e' ∧ c ≠ 'E'

@[simp] theorem stops_nil : Stops [] := by
  intro c h
  cases h

theorem stops_cons {c : Char} {text : List Char}
    (h : c.isDigit = false ∧ c ≠ '.' ∧ c ≠ 'e' ∧ c ≠ 'E') : Stops (c :: text) := by
  intro c' h'
  cases h'
  exact h

-- ---------------------------------------------------------------------------
-- Literals before other text
-- ---------------------------------------------------------------------------

section Append

variable {text rest k : List Char}

theorem spanDigits_eq (text : List Char) :
    spanDigits text = (text.takeWhile Char.isDigit, text.dropWhile Char.isDigit) :=
  List.span_eq_takeWhile_dropWhile _ _

theorem spanDigits_append (hk : Stops k) (text : List Char) :
    spanDigits (text ++ k) = ((spanDigits text).1, (spanDigits text).2 ++ k) := by
  rw [spanDigits_eq, spanDigits_eq]
  induction text with
  | nil =>
    cases k with
    | nil => rfl
    | cons c k => simp [(hk c rfl).1]
  | cons c text ih =>
    cases hc : c.isDigit with
    | false => simp [hc]
    | true => simpa [hc] using ih

theorem readFraction_of_ne {c : Char} (hc : c ≠ '.') (text : List Char) :
    readFraction (c :: text) = some (none, c :: text) := by
  rw [readFraction]
  rintro rest he
  cases he
  exact hc rfl

theorem readFraction_append (hk : Stops k) {fraction : Option (List Char)}
    (h : readFraction text = some (fraction, rest)) :
    readFraction (text ++ k) = some (fraction, rest ++ k) := by
  cases text with
  | nil =>
    cases h
    cases k with
    | nil => rfl
    | cons c k => exact readFraction_of_ne (hk c rfl).2.1 k
  | cons c text =>
    by_cases hc : c = '.'
    · subst hc
      simp only [readFraction, List.cons_append, spanDigits_append hk] at h ⊢
      split at h
      · cases h
      · rename_i hdigits
        cases h
        rw [if_neg hdigits]
    · rw [readFraction_of_ne hc] at h
      cases h
      exact readFraction_of_ne hc _

theorem readExponentSign_append (h : text ≠ []) (k : List Char) :
    readExponentSign (text ++ k) = ((readExponentSign text).1, (readExponentSign text).2 ++ k) := by
  cases text with
  | nil => exact absurd rfl h
  | cons c text =>
    by_cases hplus : c = '+'
    · subst hplus; rfl
    by_cases hminus : c = '-'
    · subst hminus; rfl
    simp [readExponentSign, hplus, hminus]

theorem readExponent_append (hk : Stops k) {exponent : Option (Bool × List Char)}
    (h : readExponent text = some (exponent, rest)) :
    readExponent (text ++ k) = some (exponent, rest ++ k) := by
  cases text with
  | nil =>
    cases h
    cases k with
    | nil => rfl
    | cons c k => simp [readExponent, (hk c rfl).2.2]
  | cons c text =>
    rw [readExponent] at h
    rw [List.cons_append, readExponent]
    simp only [List.head?_cons, List.drop_succ_cons, List.drop_zero] at h ⊢
    split at h
    · rename_i hc
      rw [if_pos hc]
      have hne : text ≠ [] := by
        rintro rfl
        simp [readExponentSign, spanDigits_eq] at h
      rw [readExponentSign_append hne, spanDigits_append hk]
      dsimp only at h ⊢
      split at h
      · cases h
      · rename_i hdigits
        cases h
        rw [if_neg hdigits]
    · rename_i hc
      cases h
      rw [if_neg hc]
      rfl

theorem readSign_append (h : text ≠ []) (k : List Char) :
    readSign (text ++ k) = ((readSign text).1, (readSign text).2 ++ k) := by
  cases text with
  | nil => exact absurd rfl h
  | cons c text =>
    by_cases hminus : c = '-'
    · subst hminus; rfl
    simp [readSign, hminus]

/-- Digits that may stand before a point: at least one, and no leading zero. -/
def WholePart (whole : List Char) : Prop :=
  whole ≠ [] ∧ (whole.head? = some '0' → whole.length ≤ 1)

theorem readLiteral_eq_some_iff {l : Literal} :
    readLiteral text = some (l, rest) ↔ ∃ a b c, readSign text = (l.negative, a) ∧
      spanDigits a = (l.whole, b) ∧ WholePart l.whole ∧ readFraction b = some (l.fraction, c) ∧
        readExponent c = some (l.exponent, rest) := by
  obtain ⟨negative, whole, fraction, exponent⟩ := l
  rw [readLiteral]
  obtain ⟨negative', a⟩ := readSign text
  rcases hb : spanDigits a with ⟨whole', b⟩
  simp only [hb, WholePart]
  constructor
  · intro h
    split at h
    · cases h
    · rename_i hwhole
      simp only [Option.bind_eq_bind, Option.bind_eq_some_iff, Option.some.injEq, Prod.mk.injEq,
        Literal.mk.injEq, Prod.exists] at h
      obtain ⟨fraction', c, hf, exponent', rest', he, ⟨rfl, rfl, rfl, rfl⟩, rfl⟩ := h
      exact ⟨a, b, c, rfl, hb, by simpa using hwhole, hf, he⟩
  · rintro ⟨_, _, c, ⟨⟩, hb', hwhole, hf, he⟩
    rw [hb, Prod.mk.injEq] at hb'
    obtain ⟨rfl, rfl⟩ := hb'
    have hcheck : ¬ (whole'.isEmpty || (whole'.head? == some '0' && 1 < whole'.length)) := by
      simpa using hwhole
    rw [if_neg hcheck]
    simp [hf, he]

theorem readLiteral_append (hk : Stops k) {l : Literal} (h : readLiteral text = some (l, rest)) :
    readLiteral (text ++ k) = some (l, rest ++ k) := by
  obtain ⟨a, b, c, hs, hd, hwhole, hf, he⟩ := readLiteral_eq_some_iff.mp h
  have hne : text ≠ [] := by
    rintro rfl
    obtain ⟨-, rfl⟩ := Prod.mk.inj hs
    exact hwhole.1 (Prod.mk.inj hd).1.symm
  refine readLiteral_eq_some_iff.mpr ⟨a ++ k, b ++ k, c ++ k, ?_, ?_, hwhole,
    readFraction_append hk hf, readExponent_append hk he⟩
  · rw [readSign_append hne, hs]
  · rw [spanDigits_append hk, hd]

end Append

-- ---------------------------------------------------------------------------
-- Texts that are one literal
-- ---------------------------------------------------------------------------

def literalNumber? (text : List Char) : Option Number :=
  match readLiteral text with
  | some (l, []) => l.number?
  | _ => none

theorem literalNumber?_eq_some_iff {text : List Char} {n : Number} :
    literalNumber? text = some n ↔ ∃ l, readLiteral text = some (l, []) ∧ l.number? = some n := by
  rw [literalNumber?]
  constructor
  · intro h
    split at h
    · rename_i l hl
      exact ⟨l, hl, h⟩
    · cases h
  · rintro ⟨l, hl, hn⟩
    rw [hl]
    exact hn

theorem readNumber_append {text k : List Char} {n : Number} (hk : Stops k)
    (h : literalNumber? text = some n) : readNumber (text ++ k) = some (.number n, k) := by
  obtain ⟨l, hl, hn⟩ := literalNumber?_eq_some_iff.mp h
  rw [readNumber, readLiteral_append hk hl, Option.map_some]
  dsimp only
  rw [hn]
  rfl

theorem exists_cons_of_readLiteral {text rest : List Char} {l : Literal}
    (h : readLiteral text = some (l, rest)) :
    ∃ c tail, text = c :: tail ∧ (c = '-' ∨ c.isDigit = true) := by
  obtain ⟨a, b, c, hs, hd, hwhole, -, -⟩ := readLiteral_eq_some_iff.mp h
  cases text with
  | nil =>
    obtain ⟨-, rfl⟩ := Prod.mk.inj hs
    exact absurd (Prod.mk.inj hd).1.symm hwhole.1
  | cons x tail =>
    refine ⟨x, tail, rfl, ?_⟩
    by_cases hminus : x = '-'
    · exact .inl hminus
    · right
      rw [readSign, Prod.mk.injEq] at hs
      · obtain ⟨-, rfl⟩ := hs
        rw [spanDigits_eq] at hd
        by_contra hx
        rw [List.takeWhile_cons_of_neg hx] at hd
        exact hwhole.1 (Prod.mk.inj hd).1.symm
      · rintro _ ⟨⟩
        exact hminus rfl

theorem suffix_of_readSign {text rest : List Char} {negative : Bool}
    (h : readSign text = (negative, rest)) : rest <:+ text := by
  rw [readSign.eq_def] at h
  split at h
  · cases h
    exact List.suffix_cons _ _
  · cases h
    exact List.suffix_refl _

theorem suffix_of_spanDigits {text digits rest : List Char}
    (h : spanDigits text = (digits, rest)) : rest <:+ text := by
  rw [spanDigits_eq] at h
  cases h
  exact List.dropWhile_suffix _

theorem suffix_of_readFraction {text rest : List Char} {fraction : Option (List Char)}
    (h : readFraction text = some (fraction, rest)) : rest <:+ text := by
  rw [readFraction.eq_def] at h
  split at h
  · rename_i tail
    rcases hd : spanDigits tail with ⟨digits, rest'⟩
    simp only [hd] at h
    split at h
    · cases h
    · cases h
      exact (suffix_of_spanDigits hd).trans (List.suffix_cons _ _)
  · cases h
    exact List.suffix_refl _

theorem suffix_of_readExponentSign {text rest : List Char} {down : Bool}
    (h : readExponentSign text = (down, rest)) : rest <:+ text := by
  rw [readExponentSign.eq_def] at h
  split at h
  · cases h
    exact List.suffix_cons _ _
  · cases h
    exact List.suffix_cons _ _
  · cases h
    exact List.suffix_refl _

theorem suffix_of_readExponent {text rest : List Char} {exponent : Option (Bool × List Char)}
    (h : readExponent text = some (exponent, rest)) : rest <:+ text := by
  rw [readExponent] at h
  split at h
  · rcases hs : readExponentSign (text.drop 1) with ⟨down, a⟩
    rcases hd : spanDigits a with ⟨digits, b⟩
    simp only [hs, hd] at h
    split at h
    · cases h
    · cases h
      exact ((suffix_of_spanDigits hd).trans (suffix_of_readExponentSign hs)).trans
        (List.drop_suffix _ _)
  · cases h
    exact List.suffix_refl _

theorem suffix_of_readLiteral {text rest : List Char} {l : Literal}
    (h : readLiteral text = some (l, rest)) : rest <:+ text := by
  obtain ⟨a, b, c, hs, hd, -, hf, he⟩ := readLiteral_eq_some_iff.mp h
  have hb : rest <:+ b := (suffix_of_readExponent he).trans (suffix_of_readFraction hf)
  have ha : b <:+ text := (suffix_of_spanDigits hd).trans (suffix_of_readSign hs)
  exact hb.trans ha

-- ---------------------------------------------------------------------------
-- Numbers are printed without blanks
-- ---------------------------------------------------------------------------

theorem isBlank_eq_false_of_isDigit {c : Char} (h : c.isDigit = true) : isBlank c = false := by
  rw [Bool.eq_false_iff]
  intro hb
  simp only [isBlank, Bool.or_eq_true, decide_eq_true_eq] at hb
  rcases hb with ((rfl | rfl) | rfl) | rfl <;> exact absurd h (by decide)

theorem isBlank_of_mem {text : List Char} {c : Char} (h : text.all (!isBlank ·) = true)
    (hc : c ∈ text) : isBlank c = false := by
  rw [← Bool.not_eq_true']
  exact List.all_eq_true.mp h c hc

theorem isBlank_of_mem_render {layout : Binary.Layout} {d : Binary.Decimal} {c : Char}
    (h : c ∈ (d.render layout).toList) : isBlank c = false := by
  have hdigits : ∀ n, ∀ c ∈ Nat.toDigits 10 n, isBlank c = false := by
    intro n c hc
    exact isBlank_eq_false_of_isDigit (Text.isDigit_of_mem_digits hc)
  have hzeros : ∀ n, ∀ c ∈ List.replicate n '0', isBlank c = false := by
    intro n c hc
    obtain ⟨-, rfl⟩ := List.mem_replicate.mp hc
    decide
  rw [Binary.Decimal.render] at h
  split at h
  · split at h
    · rw [String.toList_ofList] at h
      simp only [List.mem_cons, List.mem_append] at h
      rcases h with rfl | rfl | h | h
      · decide
      · decide
      · exact hzeros _ c h
      · exact hdigits _ c h
    · have hpadded : ∀ m n, ∀ c ∈ Nat.toDigits 10 m ++ List.replicate n '0',
          isBlank c = false := by
        intro m n c hc
        rcases List.mem_append.mp hc with hc | hc
        · exact hdigits _ c hc
        · exact hzeros _ c hc
      rw [String.toList_ofList, List.mem_append, List.mem_cons] at h
      rcases h with h | rfl | h
      · exact hpadded _ _ c (List.mem_of_mem_take h)
      · decide
      · split at h
        · obtain rfl := List.mem_singleton.mp h
          decide
        · exact hpadded _ _ c (List.mem_of_mem_drop h)
  · rw [String.toList_ofList] at h
    simp only [List.mem_append, List.mem_cons] at h
    rcases h with (h | h) | rfl | rfl | h
    · exact hdigits _ c (List.mem_of_mem_take h)
    · split at h
      · cases h
      · rcases List.mem_cons.mp h with rfl | h
        · decide
        · exact hdigits _ c (List.mem_of_mem_drop h)
    · decide
    · split <;> decide
    · exact hdigits _ c h

theorem isBlank_of_mem_write_single {x : Binary32} {c : Char} (h : c ∈ (Number.single x).write) :
    isBlank c = false := by
  rw [Number.write] at h
  cases x with
  | finite s m e =>
    rw [Binary.text?, Option.getD_some] at h
    have hbody : ∀ c ∈ (if m = 0 then "0.0" else
        (Binary.shortest Binary.single m e).render singleLayout).toList, isBlank c = false := by
      intro c hc
      split at hc
      · exact isBlank_of_mem rfl hc
      · exact isBlank_of_mem_render hc
    split at h
    · rw [String.toList_append, List.mem_append] at h
      rcases h with h | h
      · exact isBlank_of_mem rfl h
      · exact hbody c h
    · exact hbody c h
  | infinity s =>
    change c ∈ "null".toList at h
    exact isBlank_of_mem rfl h
  | nan =>
    change c ∈ "null".toList at h
    exact isBlank_of_mem rfl h

end Triage.Json
