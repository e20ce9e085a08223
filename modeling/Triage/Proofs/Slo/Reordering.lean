import Mathlib.Algebra.Order.BigOperators.Group.List
import Mathlib.Algebra.Order.Ring.Int
import Triage.Proofs.Slo

/-!
# Reports on reordered bugs

Counts and obligations do not depend on the order of the bugs. The score sum is
held within 64 bits after every addition, and so it may: with scores of both
signs, one kind alone may leave that range and be cut off before the other kind
takes effect. `Steady` excludes that, and is exactly what it takes for the report
to be the same in every order of the bugs.
-/

namespace Triage.Slo

-- ---------------------------------------------------------------------------
-- Saturating sums
-- ---------------------------------------------------------------------------

def saturatingSum (scores : List Int) : Int := scores.foldl addSaturating 0

def isGain (score : Int) : Bool := 0 < score

def gains (scores : List Int) : Int := (scores.filter isGain).sum

def losses (scores : List Int) : Int := (scores.filter (!isGain ·)).sum

/-- The scores all have one sign, or those of neither sign leave the range by themselves. -/
def Steady (scores : List Int) : Prop :=
  (∀ x ∈ scores, 0 ≤ x) ∨ (∀ x ∈ scores, x ≤ 0) ∨
    (gains scores ≤ Word.greatestInt64 ∧ Word.leastInt64 ≤ losses scores)

instance (scores : List Int) : Decidable (Steady scores) := by
  unfold Steady
  infer_instance

section Sums

variable {scores scores' : List Int} {start : Int}

theorem gains_cons (x : Int) (scores : List Int) :
    gains (x :: scores) = max x 0 + gains scores := by
  rw [gains, gains, List.filter_cons]
  by_cases hx : 0 < x
  · simp [isGain, hx, hx.le]
  · simp [isGain, hx, not_lt.mp hx]

theorem losses_cons (x : Int) (scores : List Int) :
    losses (x :: scores) = min x 0 + losses scores := by
  rw [losses, losses, List.filter_cons]
  by_cases hx : 0 < x
  · simp [isGain, hx, hx.le]
  · simp [isGain, hx, not_lt.mp hx]

theorem nonneg_of_mem_gains {x : Int} (h : x ∈ scores.filter isGain) : 0 ≤ x :=
  (of_decide_eq_true (List.mem_filter.mp h).2).le

theorem nonpos_of_mem_losses {x : Int} (h : x ∈ scores.filter (!isGain ·)) : x ≤ 0 := by
  simpa [isGain] using (List.mem_filter.mp h).2

theorem sum_nonpos (h : ∀ x ∈ scores, x ≤ 0) : scores.sum ≤ 0 := by
  simpa using List.sum_le_card_nsmul scores 0 h

theorem gains_nonneg (scores : List Int) : 0 ≤ gains scores :=
  List.sum_nonneg fun _ => nonneg_of_mem_gains

theorem losses_nonpos (scores : List Int) : losses scores ≤ 0 :=
  sum_nonpos fun _ => nonpos_of_mem_losses

theorem gains_add_losses (scores : List Int) : gains scores + losses scores = scores.sum := by
  rw [gains, losses, ← List.sum_append]
  exact (List.filter_append_perm _ scores).sum_eq

theorem forall_nonpos_of_gains_eq_zero (h : gains scores = 0) : ∀ x ∈ scores, x ≤ 0 := by
  induction scores with
  | nil => exact nofun
  | cons x rest ih =>
    have hrest := gains_nonneg rest
    rw [gains_cons] at h
    exact List.forall_mem_cons.mpr ⟨by omega, ih (by omega)⟩

theorem forall_nonneg_of_losses_eq_zero (h : losses scores = 0) : ∀ x ∈ scores, 0 ≤ x := by
  induction scores with
  | nil => exact nofun
  | cons x rest ih =>
    have hrest := losses_nonpos rest
    rw [losses_cons] at h
    exact List.forall_mem_cons.mpr ⟨by omega, ih (by omega)⟩

theorem clampInt64_bounds (n : Int) :
    Word.leastInt64 ≤ Word.clampInt64 n ∧ Word.clampInt64 n ≤ Word.greatestInt64 := by
  simp only [Word.clampInt64, Word.leastInt64, Word.greatestInt64]
  omega

theorem foldl_addSaturating_of_sign
    (hsign : (∀ x ∈ scores, 0 ≤ x) ∨ (∀ x ∈ scores, x ≤ 0))
    (hleast : Word.leastInt64 ≤ start) (hgreatest : start ≤ Word.greatestInt64) :
    scores.foldl addSaturating start = Word.clampInt64 (start + scores.sum) := by
  induction scores generalizing start with
  | nil =>
    rw [List.foldl_nil, List.sum_nil, Int.add_zero, Word.clampInt64]
    omega
  | cons x rest ih =>
    simp only [List.forall_mem_cons] at hsign
    have hdirection : (0 ≤ x ∧ 0 ≤ rest.sum) ∨ (x ≤ 0 ∧ rest.sum ≤ 0) :=
      hsign.imp (fun h => ⟨h.1, List.sum_nonneg h.2⟩) (fun h => ⟨h.1, sum_nonpos h.2⟩)
    -- The rest goes on in the direction of `x`, so whatever is cut off after `x` would
    -- be cut off at the end as well.
    have hbounds := clampInt64_bounds (start + x)
    rw [List.foldl_cons, List.sum_cons, addSaturating,
      ih (hsign.imp And.right And.right) hbounds.1 hbounds.2]
    simp only [Word.leastInt64, Word.greatestInt64] at hleast hgreatest
    simp only [Word.clampInt64, Word.leastInt64, Word.greatestInt64]
    omega

theorem foldl_addSaturating_of_fits (hleast : Word.leastInt64 ≤ start + losses scores)
    (hgreatest : start + gains scores ≤ Word.greatestInt64) :
    scores.foldl addSaturating start = start + scores.sum := by
  induction scores generalizing start with
  | nil => simp
  | cons x rest ih =>
    have hgains := gains_nonneg rest
    have hlosses := losses_nonpos rest
    rw [gains_cons] at hgreatest
    rw [losses_cons] at hleast
    -- The gains and losses still ahead keep the sum in the range on either side.
    have hstep : addSaturating start x = start + x := by
      rw [addSaturating, Word.clampInt64]
      omega
    rw [List.foldl_cons, hstep, ih (by omega) (by omega), List.sum_cons, Int.add_assoc]

theorem saturatingSum_of_sign (hsign : (∀ x ∈ scores, 0 ≤ x) ∨ (∀ x ∈ scores, x ≤ 0)) :
    saturatingSum scores = Word.clampInt64 scores.sum := by
  rw [saturatingSum, foldl_addSaturating_of_sign hsign (by decide) (by decide), Int.zero_add]

theorem Steady.saturatingSum_eq (h : Steady scores) :
    saturatingSum scores = Word.clampInt64 scores.sum := by
  rcases h with h | h | ⟨hgains, hlosses⟩
  · exact saturatingSum_of_sign (.inl h)
  · exact saturatingSum_of_sign (.inr h)
  · have hsum := gains_add_losses scores
    have h0 := gains_nonneg scores
    have h1 := losses_nonpos scores
    rw [saturatingSum, foldl_addSaturating_of_fits (by omega) (by omega), Word.clampInt64]
    omega

theorem Steady.perm (h : Steady scores) (hp : scores'.Perm scores) : Steady scores' := by
  have hgains : gains scores' = gains scores := (hp.filter _).sum_eq
  have hlosses : losses scores' = losses scores := (hp.filter _).sum_eq
  rw [Steady, hgains, hlosses]
  exact h.imp (fun h x hx => h x (hp.mem_iff.mp hx))
    (fun h => h.imp (fun h x hx => h x (hp.mem_iff.mp hx)) id)

-- ---------------------------------------------------------------------------
-- The two extreme orders
-- ---------------------------------------------------------------------------

-- The scores of one sign all come before those of the other.
theorem saturatingSum_append_of_sign (h : (∀ x ∈ scores, 0 ≤ x) ∨ (∀ x ∈ scores, x ≤ 0))
    (h' : (∀ x ∈ scores', 0 ≤ x) ∨ (∀ x ∈ scores', x ≤ 0)) :
    saturatingSum (scores ++ scores') =
      Word.clampInt64 (Word.clampInt64 scores.sum + scores'.sum) := by
  have hbounds := clampInt64_bounds scores.sum
  rw [saturatingSum, List.foldl_append, ← saturatingSum, saturatingSum_of_sign h,
    foldl_addSaturating_of_sign h' hbounds.1 hbounds.2]

theorem steady_of_extremes_eq
    (h : saturatingSum (scores.filter isGain ++ scores.filter (!isGain ·)) =
      saturatingSum (scores.filter (!isGain ·) ++ scores.filter isGain)) : Steady scores := by
  have hup : ∀ x ∈ scores.filter isGain, 0 ≤ x := fun _ => nonneg_of_mem_gains
  have hdown : ∀ x ∈ scores.filter (!isGain ·), x ≤ 0 := fun _ => nonpos_of_mem_losses
  rw [saturatingSum_append_of_sign (.inl hup) (.inr hdown),
    saturatingSum_append_of_sign (.inr hdown) (.inl hup), ← gains, ← losses] at h
  have hgains := gains_nonneg scores
  have hlosses := losses_nonpos scores
  by_cases hg : gains scores = 0
  · exact .inr (.inl (forall_nonpos_of_gains_eq_zero hg))
  by_cases hl : losses scores = 0
  · exact .inl (forall_nonneg_of_losses_eq_zero hl)
  refine .inr (.inr ?_)
  simp only [Word.clampInt64, Word.leastInt64, Word.greatestInt64] at h ⊢
  omega

end Sums

-- ---------------------------------------------------------------------------
-- One metric, one team
-- ---------------------------------------------------------------------------

section Reports

variable (d : Directory) (release : String) (ci : PassRates) {bugs bugs' : BugSet}

def scoresOf (bugs : BugSet) (t : Team) : List Int :=
  (bugs.bugs.filter (d.ownerOf · == t.name)).map (·.score)

theorem recount_pmScore (bugs : BugSet) (t : Team) :
    recount d bugs release ci t .pmScore = saturatingSum (scoresOf d bugs t) := by
  rw [recount, saturatingSum, scoresOf, List.foldl_map]
  rfl

theorem evaluateMetric_perm (hp : bugs'.bugs.Perm bugs.bugs) (t : Team) {m : Metric}
    (hm : m ≠ .pmScore) :
    evaluateMetric d t (.build d bugs' release) ci m =
      evaluateMetric d t (.build d bugs release) ci m := by
  have hvalue : recount d bugs' release ci t m = recount d bugs release ci t m := by
    cases m with
    | urgent => simp only [recount, hp.countP_eq]
    | blocker => simp only [recount, hp.countP_eq]
    | pmScore => exact absurd rfl hm
    | ciFailRate => rfl
    | total => simp only [recount, hp.countP_eq]
  simp only [evaluateMetric, current_build, hvalue]

theorem metric?_evaluateTeam (maps : TeamBugMaps) (t : Team) (m : Metric) :
    (evaluateTeam d maps ci t).metric? m = some (evaluateMetric d t maps ci m) := by
  cases m <;> rfl

theorem evaluateTeam_eq_iff (hp : bugs'.bugs.Perm bugs.bugs) (t : Team) :
    evaluateTeam d (.build d bugs' release) ci t = evaluateTeam d (.build d bugs release) ci t ↔
      saturatingSum (scoresOf d bugs' t) = saturatingSum (scoresOf d bugs t) := by
  rw [← recount_pmScore d release ci, ← recount_pmScore d release ci]
  constructor
  · intro h
    have hmetric := congrArg (·.metric? .pmScore) h
    simp only [metric?_evaluateTeam, Option.some.injEq] at hmetric
    have hvalue := congrArg MetricResult.current hmetric
    simpa only [evaluateMetric, current_build] using hvalue
  · intro h
    have hmetric : evaluateMetric d t (.build d bugs' release) ci =
        evaluateMetric d t (.build d bugs release) ci := by
      funext m
      by_cases hm : m = .pmScore
      · simp only [hm, evaluateMetric, current_build, h]
      · exact evaluateMetric_perm d release ci hp t hm
    simp only [evaluateTeam, hmetric]

-- ---------------------------------------------------------------------------
-- All teams
-- ---------------------------------------------------------------------------

theorem evaluate_eq_iff (maps maps' : TeamBugMaps) :
    evaluate d maps' ci = evaluate d maps ci ↔
      ∀ t ∈ d.teams, evaluateTeam d maps' ci t = evaluateTeam d maps ci t := by
  constructor
  · intro h t ht
    have hget := get?_evaluate_of_mem d ci maps' ht
    rw [h, get?_evaluate_of_mem d ci maps ht] at hget
    exact (Option.some.inj hget).symm
  · intro h
    rw [evaluate, evaluate, List.map_congr_left fun t ht => by rw [h t ht]]

theorem evaluate_perm_iff (hp : bugs'.bugs.Perm bugs.bugs) :
    evaluate d (.build d bugs' release) ci = evaluate d (.build d bugs release) ci ↔
      ∀ t ∈ d.teams, saturatingSum (scoresOf d bugs' t) = saturatingSum (scoresOf d bugs t) := by
  simp only [evaluate_eq_iff, evaluateTeam_eq_iff d release ci hp]

theorem scoresOf_perm (hp : bugs'.bugs.Perm bugs.bugs) (t : Team) :
    (scoresOf d bugs' t).Perm (scoresOf d bugs t) :=
  (hp.filter _).map _

theorem scoresOf_filter (bugs : BugSet) (p : Int → Bool) (t : Team) :
    scoresOf d (bugs.filter fun b => p b.score) t = (scoresOf d bugs t).filter p := by
  rw [scoresOf, scoresOf, BugSet.filter, List.filter_map, List.filter_filter, List.filter_filter]
  simp only [Bool.and_comm, Function.comp_def]

theorem scoresOf_append (l l' : List Bug) (t : Team) :
    scoresOf d ⟨l ++ l'⟩ t = scoresOf d ⟨l⟩ t ++ scoresOf d ⟨l'⟩ t := by
  simp only [scoresOf, List.filter_append, List.map_append]

theorem steady_of_reports_eq
    (h : ∀ bugs' : BugSet, bugs'.bugs.Perm bugs.bugs →
      evaluate d (.build d bugs' release) ci = evaluate d (.build d bugs release) ci)
    {t : Team} (ht : t ∈ d.teams) : Steady (scoresOf d bugs t) := by
  -- All bugs with a positive score first, and all of them last.
  let up := bugs.filter fun b => isGain b.score
  let down := bugs.filter fun b => !isGain b.score
  have hup : scoresOf d up t = (scoresOf d bugs t).filter isGain := scoresOf_filter d bugs isGain t
  have hdown : scoresOf d down t = (scoresOf d bugs t).filter (!isGain ·) :=
    scoresOf_filter d bugs (!isGain ·) t
  have hgains : (up.bugs ++ down.bugs).Perm bugs.bugs := List.filter_append_perm _ _
  have hlosses : (down.bugs ++ up.bugs).Perm bugs.bugs := List.perm_append_comm.trans hgains
  have hfirst := (evaluate_perm_iff d release ci hgains).mp (h ⟨_⟩ hgains) t ht
  have hlast := (evaluate_perm_iff d release ci hlosses).mp (h ⟨_⟩ hlosses) t ht
  rw [scoresOf_append, hup, hdown] at hfirst hlast
  exact steady_of_extremes_eq (hfirst.trans hlast.symm)

/-- The results differ at most in what depends on the score sum. -/
structure Result.AgreesBeyondScores (r r' : Result) : Prop where
  name : r'.name = r.name
  members : r'.members = r.members
  metrics : ∀ m, m ≠ .pmScore → r'.metric? m = r.metric? m
  obligations : r'.results.map (fun x => (x.name, x.obligation, x.perMember)) =
    r.results.map fun x => (x.name, x.obligation, x.perMember)

/-- In another order of the bugs nothing changes but what depends on score sums,
and the report is the same in every order exactly when the scores of each
team's bugs are steady. -/
theorem evaluate_reordered (bugs : BugSet) :
    (∀ bugs' : BugSet, bugs'.bugs.Perm bugs.bugs → ∀ t ∈ d.teams, ∃ r r',
      (evaluate d (.build d bugs release) ci).get? t.name = some r ∧
      (evaluate d (.build d bugs' release) ci).get? t.name = some r' ∧
      r.AgreesBeyondScores r') ∧
    ((∀ bugs' : BugSet, bugs'.bugs.Perm bugs.bugs →
      evaluate d (.build d bugs' release) ci = evaluate d (.build d bugs release) ci) ↔
      ∀ t ∈ d.teams, Steady (scoresOf d bugs t)) := by
  refine ⟨fun bugs' hp t ht => ?_, fun h t ht => steady_of_reports_eq d release ci h ht,
    fun h bugs' hp => ?_⟩
  · refine ⟨_, _, (get?_evaluate_eq_some_iff d ci _).mpr ⟨t, ht, rfl, rfl⟩,
      (get?_evaluate_eq_some_iff d ci _).mpr ⟨t, ht, rfl, rfl⟩, rfl, rfl, fun m hm => ?_, rfl⟩
    rw [metric?_evaluateTeam, metric?_evaluateTeam, evaluateMetric_perm d release ci hp t hm]
  · rw [evaluate_perm_iff d release ci hp]
    intro t ht
    have hscores := scoresOf_perm d hp t
    rw [(h t ht).saturatingSum_eq, ((h t ht).perm hscores).saturatingSum_eq, hscores.sum_eq]

end Reports

def scoredDirectory : Directory where
  title := ""
  teams := [{ name := "Node", components := ["Node"] }]
  releases := []
  slo := SortedMap.empty.insert "total" { count := Binary.ofNat Binary.single 3 }
  names_nodup := List.nodup_singleton "Node"

def scoredBug (id : UInt64) (score : Int) : Bug where
  id := id
  severity := "low"
  components := ["Node"]
  reportedScore := some (.ofInt score)

theorem evaluate_reordered_mixed :
    let bugs : BugSet := ⟨[scoredBug 1 5, scoredBug 2 (-3)]⟩
    Steady (scoresOf scoredDirectory bugs { name := "Node", components := ["Node"] }) ∧
      ∀ bugs' : BugSet, bugs'.bugs.Perm bugs.bugs →
        evaluate scoredDirectory (.build scoredDirectory bugs' "4.9.0") {} =
          evaluate scoredDirectory (.build scoredDirectory bugs "4.9.0") {} := by
  intro bugs
  have hsteady :
      Steady (scoresOf scoredDirectory bugs { name := "Node", components := ["Node"] }) := by
    decide
  refine ⟨hsteady, (evaluate_reordered scoredDirectory "4.9.0" {} bugs).2.mpr fun t ht => ?_⟩
  rw [List.mem_singleton.mp ht]
  exact hsteady

/-- Swapping two bugs makes a team fail: the greatest score swallows one more, and
what is left after the least is zero or one. -/
theorem evaluate_swapped :
    let first : BugSet := ⟨[scoredBug 1 Word.greatestInt64, scoredBug 2 1,
      scoredBug 3 (-Word.greatestInt64)]⟩
    let second : BugSet := ⟨[scoredBug 1 Word.greatestInt64, scoredBug 3 (-Word.greatestInt64),
      scoredBug 2 1]⟩
    second.bugs.Perm first.bugs ∧
      (evaluate scoredDirectory (.build scoredDirectory first "4.9.0") {}).failingTeams = [] ∧
      (evaluate scoredDirectory (.build scoredDirectory second "4.9.0") {}).failingTeams =
        ["Node"] ∧
      evaluate scoredDirectory (.build scoredDirectory second "4.9.0") {} ≠
        evaluate scoredDirectory (.build scoredDirectory first "4.9.0") {} := by
  intro first second
  have hp : second.bugs.Perm first.bugs := (List.Perm.swap _ _ _).cons _
  exact ⟨hp, by decide, by decide, by decide⟩

end Triage.Slo
