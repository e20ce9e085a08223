import Mathlib.Data.List.Basic
import Triage.BugUpdate

/-!
# What an update changes

Keywords to add are looked for in a list that grows with every one that is
missing, so of equal ones only the first is added (`changeKeywords_eq`). What was
removed and added again has moved to the end, so a second time an update may
still change the order; it does not when nothing is both added and removed
(`changeKeywords_again`).
-/

namespace Triage.BugUpdate

-- ---------------------------------------------------------------------------
-- Keywords
-- ---------------------------------------------------------------------------

section Keywords

variable (k : KeywordChange) (keywords : List String)

theorem foldl_appendNew (add : List String) :
    add.foldl appendNew keywords = keywords ++ (add.filter (· ∉ keywords)).eraseDups := by
  induction add generalizing keywords with
  | nil => simp
  | cons x rest ih =>
    rw [List.foldl_cons, ih]
    by_cases hx : x ∈ keywords
    · simp [appendNew, hx]
    · -- `x` goes to the end, and is there for the rest of the list.
      have hrest : rest.filter (· ∉ keywords ++ [x]) =
          (rest.filter (· ∉ keywords)).filter (fun y => !y == x) := by
        rw [List.filter_filter]
        refine List.filter_congr fun y _ => ?_
        by_cases hy : y = x <;> simp [hy]
      have happend : appendNew keywords x = keywords ++ [x] := by simp [appendNew, hx]
      rw [happend, hrest, List.filter_cons, if_pos (by simpa using hx), List.eraseDups_cons]
      simp

def kept : List String := keywords.filter (· ∉ k.remove)

theorem changeKeywords_eq :
    changeKeywords k keywords =
      kept k keywords ++ (k.add.filter (· ∉ kept k keywords)).eraseDups := by
  have hkept : keywords.filter (fun x => !k.remove.contains x) = kept k keywords :=
    List.filter_congr fun x _ => by simp
  rw [changeKeywords, hkept, foldl_appendNew]

variable {k keywords}

theorem mem_changeKeywords {x : String} :
    x ∈ changeKeywords k keywords ↔ x ∈ k.add ∨ x ∈ keywords ∧ x ∉ k.remove := by
  rw [changeKeywords_eq, List.mem_append, List.mem_eraseDups, List.mem_filter]
  simp only [kept, List.mem_filter, decide_eq_true_eq]
  tauto

theorem changeKeywords_eq_self (hadd : ∀ x ∈ k.add, x ∈ keywords)
    (hremove : ∀ x ∈ keywords, x ∉ k.remove) : changeKeywords k keywords = keywords := by
  have hkept : kept k keywords = keywords :=
    List.filter_eq_self.mpr fun x hx => by simpa using hremove x hx
  have hnone : k.add.filter (· ∉ keywords) = [] :=
    List.filter_eq_nil_iff.mpr fun x hx => by simpa using hadd x hx
  rw [changeKeywords_eq, hkept, hnone, List.eraseDups_nil, List.append_nil]

theorem changeKeywords_again (h : ∀ x ∈ k.add, x ∉ k.remove) :
    changeKeywords k (changeKeywords k keywords) = changeKeywords k keywords := by
  refine changeKeywords_eq_self (fun x hx => mem_changeKeywords.mpr (.inl hx)) fun x hx => ?_
  obtain hx | ⟨-, hx⟩ := mem_changeKeywords.mp hx
  · exact h x hx
  · exact hx

end Keywords

-- ---------------------------------------------------------------------------
-- Bugs
-- ---------------------------------------------------------------------------

variable (u : BugUpdate) (b : Bug)

theorem keywords_applyTo :
    (u.applyTo b).keywords = changeKeywords (u.keywords.getD {}) b.keywords := by
  cases hk : u.keywords with
  | none =>
    have hnone : changeKeywords {} b.keywords = b.keywords :=
      changeKeywords_eq_self (by simp) (by simp)
    simp [applyTo, hk, hnone]
  | some k => simp [applyTo, hk]

theorem hasKeyword_applyTo {x : String} :
    (u.applyTo b).hasKeyword x = true ↔
      x ∈ (u.keywords.getD {}).add ∨
        b.hasKeyword x = true ∧ x ∉ (u.keywords.getD {}).remove := by
  simp only [Bug.hasKeyword, List.contains_iff_mem, keywords_applyTo, mem_changeKeywords]

/-- What becomes of a bug by an update: the keywords that are not removed come first, those
added follow once each where they are missing, and other parts are replaced if they are set. -/
structure Changes (u : BugUpdate) (b b' : Bug) : Prop where
  keywords : b'.keywords = kept (u.keywords.getD {}) b.keywords ++
    ((u.keywords.getD {}).add.filter (· ∉ kept (u.keywords.getD {}) b.keywords)).eraseDups
  status : b'.status = u.status.getD b.status
  targetReleases : b'.targetReleases = u.targetRelease.elim b.targetReleases ([·])
  whiteboard : b'.whiteboard = u.whiteboard.getD b.whiteboard
  rest : b' = { b with
    keywords := b'.keywords
    status := b'.status
    targetReleases := b'.targetReleases
    whiteboard := b'.whiteboard }

theorem changes_applyTo : Changes u b (u.applyTo b) where
  keywords := (keywords_applyTo u b).trans (changeKeywords_eq _ b.keywords)
  status := rfl
  targetReleases := by
    rw [applyTo]
    cases u.targetRelease <;> rfl
  whiteboard := rfl
  rest := rfl

theorem Changes.id_eq {u : BugUpdate} {b b' : Bug} (h : Changes u b b') : b'.id = b.id := by
  rw [h.rest]

/-- A second time an update changes at most the keywords. -/
theorem applyTo_applyTo :
    u.applyTo (u.applyTo b) =
      { u.applyTo b with keywords := (u.applyTo (u.applyTo b)).keywords } := by
  obtain ⟨status, _, target, _, whiteboard, _⟩ := u
  cases status <;> cases target <;> cases whiteboard <;> rfl

/-- An update leaves the keywords that it does not remove and puts behind them, once each,
those it adds that are not among them; it sets the other parts that it has and
leaves all else alone. The same update again leaves the same keywords, and the
same bug when it adds none that it removes. -/
theorem applyTo_changes (u : BugUpdate) (b : Bug) :
    let k := u.keywords.getD {}
    let left := b.keywords.filter (· ∉ k.remove)
    let after := u.applyTo b
    after.keywords = left ++ (k.add.filter (· ∉ left)).eraseDups ∧
    (∀ x, after.hasKeyword x = true ↔ x ∈ k.add ∨ b.hasKeyword x = true ∧ x ∉ k.remove) ∧
    after.status = u.status.getD b.status ∧
    after.targetReleases = u.targetRelease.elim b.targetReleases ([·]) ∧
    after.whiteboard = u.whiteboard.getD b.whiteboard ∧
    after = { b with
      keywords := after.keywords
      status := after.status
      targetReleases := after.targetReleases
      whiteboard := after.whiteboard } ∧
    (∀ resolution comment, { u with resolution, comment }.applyTo b = after) ∧
    (∀ x, (u.applyTo after).hasKeyword x = after.hasKeyword x) ∧
    ((∀ x ∈ k.add, x ∉ k.remove) → u.applyTo after = after) := by
  intro k left after
  have h : Changes u b after := changes_applyTo u b
  refine ⟨h.keywords, fun x => hasKeyword_applyTo u b, h.status, h.targetReleases, h.whiteboard,
    h.rest, fun _ _ => rfl, ?_, ?_⟩
  · intro x
    rw [Bool.eq_iff_iff, hasKeyword_applyTo, hasKeyword_applyTo]
    tauto
  · intro h
    have hagain : (u.applyTo after).keywords = after.keywords := by
      simp only [after, keywords_applyTo]
      exact changeKeywords_again h
    rw [applyTo_applyTo u b, hagain]

theorem applyTo_changes_repeating :
    let k : KeywordChange := { add := ["New", "Kept", "New"], remove := ["Old", "Gone"] }
    let u : BugUpdate := { status := some "POST", keywords := some k, comment := some "done" }
    let b : Bug := { id := 1, status := "NEW", keywords := ["Old", "Kept", "Old", "Kept"] }
    (∀ x ∈ k.add, x ∉ k.remove) ∧ u.applyTo (u.applyTo b) = u.applyTo b ∧
      (u.applyTo b).keywords = ["Kept", "Kept", "New"] := by
  intro k u b
  have hdisjoint : ∀ x ∈ k.add, x ∉ k.remove := by decide
  obtain ⟨hkeywords, -, -, -, -, -, -, -, hagain⟩ := applyTo_changes u b
  exact ⟨hdisjoint, hagain hdisjoint, hkeywords.trans (by decide)⟩

end Triage.BugUpdate
