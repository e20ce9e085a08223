import Triage.Bug
import Triage.Proofs.Json.Integers

/-!
# The score of a bug

Trackers report the score as a number or as a string. Which values denote one
is said by `Denotes`, without the reader; the reader agrees with it, and any
other value counts as the baseline.
-/

namespace Triage.Bug

/-- The value denotes the score: an integer of signed 64 bits, or the text of one
between white space, with leading zeros and either sign allowed. -/
inductive Denotes : Json → Int → Prop
  | integer {n : Int} (hfits : Word.fitsInt64 n) : Denotes (.number (.integer n)) n
  | text {s : String} {core : List Char} {n : Int} (hpadded : Text.Padded core s.toList)
      (hcore : Text.SpellsSigned core n) (hfits : Word.fitsInt64 n) : Denotes (.string s) n

section Reading

variable {v : Json} {n : Int}

theorem Denotes.readScore? (h : Denotes v n) : readScore? v = some n := by
  cases h with
  | integer hfits => simp [Bug.readScore?, hfits]
  | text hpadded hcore hfits => exact Text.int64?_trim_eq_some_iff.mpr ⟨_, hpadded, hcore, hfits⟩

theorem denotes_of_readScore? (h : readScore? v = some n) : Denotes v n := by
  unfold readScore? at h
  split at h
  · obtain ⟨core, hpadded, hcore, hfits⟩ := Text.int64?_trim_eq_some_iff.mp h
    exact .text hpadded hcore hfits
  · split at h
    · rename_i hfits
      cases h
      exact .integer hfits
    · cases h
  · cases h

theorem readScore?_eq_some_iff : readScore? v = some n ↔ Denotes v n :=
  ⟨denotes_of_readScore?, Denotes.readScore?⟩

example : readScore? (.string "\u00a0-0042\t") = some (-42) := by decide +kernel

/-- A number denotes a score exactly when its literal is written as an integer. -/
theorem denotes_number_iff {text : List Char} {x : Json.Number}
    (h : Json.literalNumber? text = some x) :
    Denotes (.number x) n ↔ Json.IntegerLiteral text n ∧ Word.fitsInt64 n := by
  constructor
  · rintro ⟨hfits⟩
    exact ⟨(Json.integerLiteral_of_literalNumber? h).1, hfits⟩
  · rintro ⟨hliteral, hfits⟩
    rw [Json.literalNumber?_of_fitsInt64 hliteral hfits] at h
    cases h
    exact .integer hfits

end Reading

section Score

variable (b : Bug)

theorem score_of_denotes {v : Json} {n : Int} (hv : b.reportedScore = some v) (h : Denotes v n) :
    b.score = n := by
  rw [score, hv, Option.bind_some, readScore?_eq_some_iff.mpr h, Option.getD_some]

theorem score_of_not_denotes (h : ∀ v n, b.reportedScore = some v → ¬ Denotes v n) :
    b.score = baselineScore := by
  have hnone : b.reportedScore.bind readScore? = none := by
    rw [Option.bind_eq_none_iff]
    intro v hv
    rw [Option.eq_none_iff_forall_ne_some]
    intro n hn
    exact h v n hv (readScore?_eq_some_iff.mp hn)
  rw [score, hnone, Option.getD_none]

theorem score_eq_iff (n : Int) : b.score = n ↔
    (∃ v, b.reportedScore = some v ∧ Denotes v n) ∨
      n = baselineScore ∧ ∀ v m, b.reportedScore = some v → ¬ Denotes v m := by
  constructor
  · rintro rfl
    by_cases h : ∃ v n, b.reportedScore = some v ∧ Denotes v n
    · obtain ⟨v, n, hv, hn⟩ := h
      rw [score_of_denotes b hv hn]
      exact .inl ⟨v, hv, hn⟩
    · have hnone : ∀ v m, b.reportedScore = some v → ¬ Denotes v m :=
        fun v m hv hm => h ⟨v, m, hv, hm⟩
      exact .inr ⟨score_of_not_denotes b hnone, hnone⟩
  · rintro (⟨v, hv, hn⟩ | ⟨rfl, hnone⟩)
    · exact score_of_denotes b hv hn
    · exact score_of_not_denotes b hnone

theorem score_writeInt {n : Int} (hfits : Word.fitsInt64 n) :
    ∃ v, Json.read? (String.ofList (Json.writeInt n)) = some v ∧
      { b with reportedScore := some v }.score = n ∧
      ∀ text, Text.Padded (Json.writeInt n) text →
        { b with reportedScore := some (.string (String.ofList text)) }.score = n := by
  have hliteral := Json.integerLiteral_writeInt n
  refine ⟨_, Json.read?_literal (Json.literalNumber?_of_fitsInt64 hliteral hfits),
    score_of_denotes _ rfl (.integer hfits), ?_⟩
  intro text hpadded
  refine score_of_denotes _ rfl (.text ?_ hliteral.spellsSigned hfits)
  rwa [String.toList_ofList]

/-- The score is what the reported value denotes, and the baseline where it denotes none.
Numbers denote by how they are written, and it is all one whether an integer is reported
as a number or as a text. -/
theorem score_denoted_or_baseline :
    (∀ n, b.score = n ↔
      (∃ v, b.reportedScore = some v ∧ Denotes v n) ∨
        n = 1 ∧ ∀ v m, b.reportedScore = some v → ¬ Denotes v m) ∧
    (∀ text x n, Json.literalNumber? text = some x →
      Json.read? (String.ofList text) = some (.number x) ∧
        (Denotes (.number x) n ↔ Json.IntegerLiteral text n ∧ Word.fitsInt64 n)) ∧
    ∀ n, Word.fitsInt64 n →
      ∃ v, Json.read? (String.ofList (Json.writeInt n)) = some v ∧
        { b with reportedScore := some v }.score = n ∧
        ∀ text, Text.Padded (Json.writeInt n) text →
          { b with reportedScore := some (.string (String.ofList text)) }.score = n :=
  ⟨b.score_eq_iff, fun _ _ _ h => ⟨Json.read?_literal h, denotes_number_iff h⟩,
    fun _ => b.score_writeInt⟩

end Score

end Triage.Bug
