import Mathlib.Data.List.Basic
import Triage.Proofs.Reconciler
import Triage.Reconciler.Loops

/-!
# The loops keep time

Three loops share a clock, and each may fail at any time. What they did and what
they wait for fit together in a `Chronicle`: one refresh keeps it, so everything
that is due at one moment does, and so does a whole run. A loop refreshes at its
first moment and then once per interval, up to its first failure and whatever the
other loops do.
-/

namespace Triage

-- ---------------------------------------------------------------------------
-- Intervals
-- ---------------------------------------------------------------------------

namespace Intervals

variable {i : Intervals}

theorem nonZero_eq_ok_iff {field : String} {period : Nat} :
    nonZero field period = .ok () ↔ 0 < period := by
  unfold nonZero
  split <;> simp <;> omega

theorem period_pos (h : i.validate = .ok ()) (kind : Refresh) : 0 < i.period kind := by
  simp only [validate, bind, Except.bind] at h
  split at h
  · cases h
  split at h
  · cases h
  rename_i hdirectory _ _ hbugs
  cases kind with
  | directory => exact nonZero_eq_ok_iff.mp hdirectory
  | bugs => exact nonZero_eq_ok_iff.mp hbugs
  | results => exact nonZero_eq_ok_iff.mp h

def first (i : Intervals) (start : Nat) : Refresh → Nat
  | .results => start
  | kind => start + i.period kind

def refreshes (i : Intervals) (elapsed : Nat) : Refresh → Nat
  | .results => 1 + elapsed / i.results
  | kind => elapsed / i.period kind

/-- These are all the moments of a loop in the stretch of time, and the next one is past it. -/
theorem refreshes_eq {start elapsed n : Nat} {kind : Refresh}
    (hpast : ∀ k < n, i.first start kind + k * i.period kind ≤ start + elapsed)
    (hnext : start + elapsed < i.first start kind + n * i.period kind) :
    n = i.refreshes elapsed kind := by
  have hdelayed (hfirst : i.first start kind = start + i.period kind) :
      n = elapsed / i.period kind := by
    refine (Nat.div_eq_of_lt_le ?_ ?_).symm
    · cases n with
      | zero => simp
      | succ n =>
        have := hpast n n.lt_succ_self
        rw [Nat.succ_mul]
        omega
    · rw [Nat.succ_mul]
      omega
  cases kind with
  | directory => exact hdelayed rfl
  | bugs => exact hdelayed rfl
  | results =>
    cases n with
    | zero => exact absurd hnext (by simp [first])
    | succ n =>
      have hdiv : elapsed / i.results = n := by
        refine Nat.div_eq_of_lt_le ?_ ?_
        · have := hpast n n.lt_succ_self
          simp only [first, period] at this
          omega
        · simp only [first, period] at hnext
          omega
      rw [refreshes, hdiv, Nat.add_comm]

end Intervals

-- ---------------------------------------------------------------------------
-- Refreshes made by loops
-- ---------------------------------------------------------------------------

structure Tick where
  moment : Nat
  kind : Refresh
  answer : SourceResult Nat

namespace Tick

def succeeded (t : Tick) : Bool := t.answer.isOk

def error? (t : Tick) : Option SourceError :=
  match t.answer with
  | .ok _ => none
  | .error e => some e

def ofKind (kind : Refresh) (ticks : List Tick) : List Tick := ticks.filter (·.kind = kind)

variable {t : Tick} {kind : Refresh} {ticks : List Tick} {e : SourceError} {n : Nat}

theorem error?_of_error (h : t.answer = .error e) : t.error? = some e := by simp [error?, h]

theorem failed_of_error (h : t.answer = .error e) : t.succeeded = false := by
  simp [succeeded, h, Except.isOk, Except.toBool]

theorem succeeded_of_ok (h : t.answer = .ok n) : t.succeeded = true := by
  simp [succeeded, h, Except.isOk, Except.toBool]

theorem error?_eq_none_iff : t.error? = none ↔ t.succeeded = true := by
  rcases t with ⟨_, _, _ | _⟩ <;> simp [error?, succeeded, Except.isOk, Except.toBool]

@[simp] theorem mem_ofKind : t ∈ ofKind kind ticks ↔ t ∈ ticks ∧ t.kind = kind := by
  simp [ofKind]

@[simp] theorem ofKind_append (before after : List Tick) :
    ofKind kind (before ++ after) = ofKind kind before ++ ofKind kind after := by
  simp [ofKind]

@[simp] theorem ofKind_cons_self (h : t.kind = kind) :
    ofKind kind (t :: ticks) = t :: ofKind kind ticks := by
  simp [ofKind, h]

@[simp] theorem ofKind_cons_of_ne (h : t.kind ≠ kind) :
    ofKind kind (t :: ticks) = ofKind kind ticks := by
  simp [ofKind, h]

@[simp] theorem ofKind_nil : ofKind kind [] = [] := rfl

end Tick

namespace Reconciler

def SameHeld (r r' : Reconciler) : Refresh → Prop
  | .directory => r'.directory = r.directory
  | .bugs => r'.bugs = r.bugs
  | .results => r'.results = r.results ∧ r'.published = r.published

namespace SameHeld

variable {r r₁ r₂ : Reconciler} {kind : Refresh}

theorem refl (r : Reconciler) (kind : Refresh) : SameHeld r r kind := by
  cases kind <;> simp [SameHeld]

theorem trans (h : SameHeld r r₁ kind) (h' : SameHeld r₁ r₂ kind) : SameHeld r r₂ kind := by
  cases kind <;> simp_all [SameHeld]

theorem generation_eq (h : SameHeld r r₁ kind) : r₁.generation kind = r.generation kind := by
  cases kind <;> simp_all [SameHeld, generation]

end SameHeld

section Performing

variable {σ : Type} {s : Sources (StateM σ)} {r r' r₁ : Reconciler} {w w' w₁ : σ}
variable {kind other : Refresh} {answer : SourceResult Nat}

theorem Refreshed.sameHeld {new : List Answer} (h : Refreshed r kind new answer r')
    (hother : answer.isOk = true → kind ≠ other) : SameHeld r r' other := by
  cases h with
  | directory d => cases other <;> simp_all [SameHeld, Except.isOk, Except.toBool]
  | bugs b => cases other <;> simp_all [SameHeld, Except.isOk, Except.toBool]
  | results version ci hversion => cases other <;> simp_all [SameHeld, Except.isOk, Except.toBool]
  | directoryFailed e => exact .refl r other
  | bugsFailed e => exact .refl r other
  | resultsFailed version e hversion => exact .refl r other
  | noRelease e hversion => exact .refl r other

theorem refresh_sameHeld (h : refresh s kind r w = ((answer, r'), w'))
    (hother : answer.isOk = true → kind ≠ other) : SameHeld r r' other := by
  obtain ⟨answer', r'', w'', new, hrun, -, hstep⟩ := refresh_recorded s kind r w []
  cases hrun.symm.trans h
  exact hstep.sameHeld hother

theorem refresh_generation (h : refresh s kind r w = ((answer, r'), w')) :
    r'.generation kind = r.generation kind + if answer.isOk then 1 else 0 := by
  obtain ⟨r'', w'', hrun, hgeneration⟩ | ⟨e, w'', hrun⟩ := refresh_cases s kind r w
  · cases hrun.symm.trans h
    simp [hgeneration, Except.isOk, Except.toBool]
  · cases hrun.symm.trans h
    simp [Except.isOk, Except.toBool]

/-- Refreshes made one after the other, with what each of them answers. -/
inductive Performs (s : Sources (StateM σ)) :
    List Tick → Reconciler → σ → Reconciler → σ → Prop
  | nil (r : Reconciler) (w : σ) : Performs s [] r w r w
  | cons {t : Tick} {rest : List Tick} {r r₁ r' : Reconciler} {w w₁ w' : σ}
      (hrun : refresh s t.kind r w = ((t.answer, r₁), w₁)) (hrest : Performs s rest r₁ w₁ r' w') :
      Performs s (t :: rest) r w r' w'

namespace Performs

variable {ticks before after : List Tick}

theorem append (h : Performs s before r w r₁ w₁) (h' : Performs s after r₁ w₁ r' w') :
    Performs s (before ++ after) r w r' w' := by
  induction h with
  | nil r w => exact h'
  | cons hrun hrest ih => exact .cons hrun (ih h')

theorem of_append (h : Performs s (before ++ after) r w r' w') :
    ∃ r₁ w₁, Performs s before r w r₁ w₁ ∧ Performs s after r₁ w₁ r' w' := by
  induction before generalizing r w with
  | nil => exact ⟨r, w, .nil r w, h⟩
  | cons t before ih =>
    cases h with
    | cons hrun hrest =>
      obtain ⟨r₁, w₁, hbefore, hafter⟩ := ih hrest
      exact ⟨r₁, w₁, .cons hrun hbefore, hafter⟩

theorem sameHeld (h : Performs s ticks r w r' w')
    (hfailed : ∀ t ∈ Tick.ofKind kind ticks, t.succeeded = false) : SameHeld r r' kind := by
  induction h with
  | nil r w => exact .refl r kind
  | @cons t rest r r₁ r' w w₁ w' hrun hrest ih =>
    refine .trans (refresh_sameHeld hrun fun hok hkind => ?_) (ih fun u hu => ?_)
    · have := hfailed t (by simp [hkind])
      exact absurd (hok.symm.trans this) (by decide)
    · refine hfailed u (Tick.mem_ofKind.mpr ⟨?_, (Tick.mem_ofKind.mp hu).2⟩)
      exact List.mem_cons_of_mem t (Tick.mem_ofKind.mp hu).1

theorem generation_eq (h : Performs s ticks r w r' w')
    (hok : ∀ t ∈ Tick.ofKind kind ticks, t.succeeded = true) :
    r'.generation kind = r.generation kind + (Tick.ofKind kind ticks).length := by
  induction h with
  | nil r w => rfl
  | @cons t rest r r₁ r' w w₁ w' hrun hrest ih =>
    by_cases hkind : t.kind = kind
    · rw [Tick.ofKind_cons_self hkind] at hok ⊢
      have hhead : t.answer.isOk = true := hok t List.mem_cons_self
      rw [ih fun u hu => hok u (List.mem_cons_of_mem t hu), ← hkind, refresh_generation hrun,
        if_pos hhead, List.length_cons]
      omega
    · rw [Tick.ofKind_cons_of_ne hkind] at hok ⊢
      rw [ih hok, (refresh_sameHeld hrun fun _ => hkind).generation_eq]

end Performs

end Performing

end Reconciler

-- ---------------------------------------------------------------------------
-- What the loops did and what they wait for
-- ---------------------------------------------------------------------------

namespace Loops

open Reconciler (Performs SameHeld)
open Tick (ofKind)

/-- Refreshes made by loops that began together. -/
structure Timely (i : Intervals) (start : Nat) (ticks : List Tick) : Prop where
  ordered : ticks.Pairwise (·.moment ≤ ·.moment)
  moments : ∀ kind, (ofKind kind ticks).map (·.moment) =
    (List.range (ofKind kind ticks).length).map fun k => i.first start kind + k * i.period kind
  /-- A loop that has failed makes no other refresh. -/
  stops : ∀ kind, ∀ t ∈ (ofKind kind ticks).dropLast, t.succeeded = true

/-- What a loop waits for that has made these refreshes, if it has not ended. -/
def next? (i : Intervals) (start : Nat) (kind : Refresh) (own : List Tick) : Option Nat :=
  if ∀ t ∈ own, t.succeeded = true then some (i.first start kind + own.length * i.period kind)
  else none

/-- The loops after the refreshes that they made since their start. -/
structure Chronicle (i : Intervals) (start : Nat) (ticks : List Tick) (l : Loops) : Prop
    extends Timely i start ticks where
  intervals : l.intervals = i
  errors : l.errors = ticks.filterMap Tick.error?
  waits : ∀ kind due,
    (kind, due) ∈ l.waiting ↔ next? i start kind (ofKind kind ticks) = some due
  nodup : (l.waiting.map (·.1)).Nodup
  count : l.waiting.length + l.errors.length = 3
  /-- Nothing that was done is later than what is due. -/
  ahead : ∀ t ∈ ticks, ∀ e ∈ l.waiting, t.moment ≤ e.2

section OneRefresh

variable {i : Intervals} {start : Nat} {ticks : List Tick} {kind : Refresh} {t : Tick}

theorem next?_of_failed (ht : t ∈ ofKind kind ticks) (hfailed : t.succeeded = false) :
    next? i start kind (ofKind kind ticks) = none :=
  if_neg fun hok => absurd ((hok t ht).symm.trans hfailed) (by decide)

theorem next?_eq_some_iff {due : Nat} {own : List Tick} :
    next? i start kind own = some due ↔ (∀ t ∈ own, t.succeeded = true) ∧
      due = i.first start kind + own.length * i.period kind := by
  rw [next?, Option.ite_none_right_eq_some, Option.some.injEq, eq_comm (a := due)]

theorem Timely.concat (h : Timely i start ticks) (hlast : ∀ u ∈ ticks, u.moment ≤ t.moment)
    (hdue : next? i start t.kind (ofKind t.kind ticks) = some t.moment) :
    Timely i start (ticks ++ [t]) := by
  obtain ⟨hok, hmoment⟩ := next?_eq_some_iff.mp hdue
  refine ⟨?_, fun kind => ?_, fun kind => ?_⟩
  · exact List.pairwise_append.mpr ⟨h.ordered, List.pairwise_singleton _ t, by simpa using hlast⟩
  · by_cases hkind : t.kind = kind
    · subst hkind
      simp [h.moments, List.range_succ, hmoment]
    · simp [hkind, h.moments]
  · by_cases hkind : t.kind = kind
    · subst hkind
      simpa using hok
    · simpa [hkind] using h.stops kind

theorem Timely.of_failed {before after : List Tick} (h : Timely i start (before ++ t :: after))
    (hfailed : t.succeeded = false) :
    (∀ u ∈ ofKind t.kind before, u.succeeded = true) ∧ ofKind t.kind after = [] := by
  have hstops := h.stops t.kind
  rw [Tick.ofKind_append, Tick.ofKind_cons_self rfl] at hstops
  cases hafter : ofKind t.kind after with
  | nil =>
    rw [hafter, List.dropLast_concat] at hstops
    exact ⟨hstops, rfl⟩
  | cons u rest =>
    -- then the failed one would not be the last
    have ht : t ∈ (ofKind t.kind before ++ t :: ofKind t.kind after).dropLast := by
      simp [hafter]
    exact absurd ((hstops t ht).symm.trans hfailed) (by decide)

end OneRefresh

theorem startOn?_eq_some {clockEnd : Nat} {i : Intervals} {start : Nat} {l : Loops}
    (h : startOn? clockEnd i start = some l) :
    l = {
      intervals := i
      now := start
      waiting := [.directory, .bugs, .results].map fun kind => (kind, i.first start kind) } := by
  simp only [startOn?, later?, Option.bind_eq_bind, Option.bind_eq_some_iff] at h
  obtain ⟨directory, hdirectory, bugs, hbugs, h⟩ := h
  obtain ⟨-, hdirectory⟩ := Option.ite_none_right_eq_some.mp hdirectory
  obtain ⟨-, hbugs⟩ := Option.ite_none_right_eq_some.mp hbugs
  cases hdirectory
  cases hbugs
  cases h
  rfl

theorem startOn?_eq_none_iff {clockEnd : Nat} {i : Intervals} {start : Nat} :
    startOn? clockEnd i start = none ↔ ∃ kind, clockEnd ≤ i.first start kind := by
  have hlater (period : Nat) :
      later? clockEnd start period = none ↔ clockEnd ≤ start + period := by
    rw [later?, ite_eq_right_iff, ← Nat.not_lt]
    exact ⟨fun h hlt => Option.some_ne_none _ (h hlt), fun h hlt => absurd hlt h⟩
  have hstart : startOn? clockEnd i start = none ↔
      clockEnd ≤ start + i.directory ∨ clockEnd ≤ start + i.bugs := by
    rw [← hlater, ← hlater, startOn?]
    cases later? clockEnd start i.directory with
    | none => simp
    | some directory => cases later? clockEnd start i.bugs <;> simp
  rw [hstart]
  constructor
  · rintro (h | h)
    · exact ⟨.directory, h⟩
    · exact ⟨.bugs, h⟩
  · rintro ⟨kind, h⟩
    cases kind with
    | directory => exact .inl h
    | bugs => exact .inr h
    | results => exact .inl (Nat.le_add_right_of_le h)

def answered (l : Loops) (t : Tick) : Loops :=
  match t.answer with
  | .ok _ => { l with waiting := l.waiting ++ [(t.kind, t.moment + l.intervals.period t.kind)] }
  | .error e => { l with errors := l.errors ++ [e] }

namespace Chronicle

variable {i : Intervals} {start moment : Nat} {ticks : List Tick} {l l' : Loops}
variable {kind : Refresh}

theorem of_start {clockEnd : Nat} (h : startOn? clockEnd i start = some l) :
    Chronicle i start [] l := by
  obtain rfl := startOn?_eq_some h
  exact {
    ordered := .nil
    moments := fun kind => rfl
    stops := fun kind t ht => by simp at ht
    intervals := rfl
    errors := rfl
    waits := fun kind due => by
      rw [next?_eq_some_iff]
      cases kind <;> simp [Intervals.first, Intervals.period]
    nodup := by simp
    count := rfl
    ahead := fun t ht => by simp at ht }

theorem reordered (h : Chronicle i start ticks l) (hintervals : l'.intervals = l.intervals)
    (herrors : l'.errors = l.errors) (hwaiting : l'.waiting.Perm l.waiting) :
    Chronicle i start ticks l' where
  toTimely := h.toTimely
  intervals := hintervals.trans h.intervals
  errors := herrors.trans h.errors
  waits kind due := hwaiting.mem_iff.trans (h.waits kind due)
  nodup := (hwaiting.map _).nodup_iff.mpr h.nodup
  count := by rw [hwaiting.length_eq, herrors, h.count]
  ahead t ht e he := h.ahead t ht e (hwaiting.mem_iff.mp he)

variable {waiting : List (Refresh × Nat)} {t : Tick}

section First

variable (h : Chronicle i start ticks { l with waiting := (t.kind, t.moment) :: waiting })
include h

theorem not_mem_rest (due : Nat) : (t.kind, due) ∉ waiting := fun hmem =>
  (List.nodup_cons.mp h.nodup).1 (List.mem_map.mpr ⟨_, hmem, rfl⟩)

theorem timely_concat : Timely i start (ticks ++ [t]) :=
  h.toTimely.concat (fun u hu => h.ahead u hu _ List.mem_cons_self)
    ((h.waits t.kind t.moment).mp List.mem_cons_self)

theorem waits_of_ne (hkind : t.kind ≠ kind) (due : Nat) : (kind, due) ∈ waiting ↔
    next? i start kind (ofKind kind (ticks ++ [t])) = some due := by
  have hwaits := h.waits kind due
  simpa [hkind, Ne.symm hkind] using hwaits

theorem ended {e : SourceError} (hnext : ∀ e ∈ waiting, t.moment ≤ e.2)
    (hanswer : t.answer = .error e) :
    Chronicle i start (ticks ++ [t])
      { l with waiting := waiting, errors := l.errors ++ [e] } where
  toTimely := h.timely_concat
  intervals := h.intervals
  errors := by simp [show l.errors = _ from h.errors, Tick.error?_of_error hanswer]
  waits kind due := by
    by_cases hkind : t.kind = kind
    · subst hkind
      have hown : t ∈ ofKind t.kind (ticks ++ [t]) := by simp
      rw [next?_of_failed hown (Tick.failed_of_error hanswer)]
      simp [h.not_mem_rest]
    · exact h.waits_of_ne hkind due
  nodup := (List.nodup_cons.mp h.nodup).2
  count := by
    have := h.count
    simp only [List.length_cons, List.length_append, List.length_nil] at this ⊢
    omega
  ahead u hu e he := by
    rcases List.mem_append.mp hu with hu | hu
    · exact h.ahead u hu e (List.mem_cons_of_mem _ he)
    · rw [List.mem_singleton.mp hu]
      exact hnext e he

theorem renewed (hnext : ∀ e ∈ waiting, t.moment ≤ e.2) (hok : t.succeeded = true) :
    Chronicle i start (ticks ++ [t])
      { l with waiting := waiting ++ [(t.kind, t.moment + l.intervals.period t.kind)] } := by
  have hintervals : l.intervals = i := h.intervals
  obtain ⟨hown, hmoment⟩ := next?_eq_some_iff.mp ((h.waits t.kind t.moment).mp List.mem_cons_self)
  refine reordered (l := { l with waiting := (t.kind, t.moment + i.period t.kind) :: waiting })
    ?_ rfl rfl (hintervals ▸ List.perm_append_singleton _ _)
  exact {
    toTimely := h.timely_concat
    intervals := hintervals
    errors := by simp [show l.errors = _ from h.errors, Tick.error?_eq_none_iff.mpr hok]
    waits := fun kind due => by
      by_cases hkind : t.kind = kind
      · subst hkind
        have hown' : ∀ u ∈ ofKind t.kind (ticks ++ [t]), u.succeeded = true := by
          simpa [or_imp, forall_and, hok] using hown
        have hdue : t.moment + i.period t.kind = i.first start t.kind +
            (ofKind t.kind (ticks ++ [t])).length * i.period t.kind := by
          simp [hmoment, Nat.succ_mul, Nat.add_assoc]
        rw [next?_eq_some_iff, and_iff_right hown', ← hdue]
        simp [h.not_mem_rest]
      · rw [← h.waits_of_ne hkind due]
        simp [Ne.symm hkind]
    nodup := h.nodup
    count := h.count
    ahead := fun u hu e he => by
      rcases List.mem_append.mp hu with hu | hu <;> rcases List.mem_cons.mp he with rfl | he
      · exact Nat.le_trans (h.ahead u hu _ List.mem_cons_self) (Nat.le_add_right _ _)
      · exact h.ahead u hu e (List.mem_cons_of_mem _ he)
      · rw [List.mem_singleton.mp hu]
        exact Nat.le_add_right _ _
      · rw [List.mem_singleton.mp hu]
        exact hnext e he }

end First

theorem answered {pending : List (Refresh × Nat)}
    (h : Chronicle i start ticks { l with waiting := (t.kind, t.moment) :: pending ++ l.waiting })
    (hnext : ∀ e ∈ pending ++ l.waiting, t.moment ≤ e.2) :
    Chronicle i start (ticks ++ [t])
      { l.answered t with waiting := pending ++ (l.answered t).waiting } := by
  rcases hanswer : t.answer with e | n
  · simpa [Loops.answered, hanswer] using h.ended hnext hanswer
  · simpa [Loops.answered, hanswer] using h.renewed hnext (Tick.succeeded_of_ok hanswer)

end Chronicle

-- ---------------------------------------------------------------------------
-- Whole runs
-- ---------------------------------------------------------------------------

section Horizon

variable {i : Intervals} {horizon : Nat} {l : Loops} {t : Tick}

theorem momentsOf_append (before after : List (Refresh × Nat)) :
    momentsOf i horizon (before ++ after) =
      momentsOf i horizon before + momentsOf i horizon after := by
  induction before with
  | nil => simp [momentsOf]
  | cons e before ih => rw [List.cons_append, momentsOf, momentsOf, ih, Nat.add_assoc]

theorem momentsOf_perm {waiting waiting' : List (Refresh × Nat)} (h : waiting.Perm waiting') :
    momentsOf i horizon waiting = momentsOf i horizon waiting' := by
  induction h with
  | nil => rfl
  | cons e h ih => rw [momentsOf, momentsOf, ih]
  | swap e e' waiting => simp only [momentsOf, Nat.add_left_comm]
  | trans h h' ih ih' => rw [ih, ih']

theorem momentsOf_renewed {kind : Refresh} {due : Nat} (hpos : 0 < i.period kind)
    (hdue : due ≤ horizon) :
    momentsOf i horizon [(kind, due + i.period kind)] + 1 = momentsOf i horizon [(kind, due)] := by
  simp only [momentsOf, Nat.add_zero]
  rw [if_pos hdue]
  by_cases hagain : due + i.period kind ≤ horizon
  · rw [if_pos hagain, Nat.sub_add_eq, ← Nat.div_eq_sub_div hpos (by omega)]
  · rw [if_neg hagain, Nat.div_eq_of_lt (by omega)]

theorem answered_moments (hpos : ∀ kind, 0 < i.period kind) (hintervals : l.intervals = i)
    (hdue : t.moment ≤ horizon) :
    momentsOf i horizon (l.answered t).waiting + 1 ≤
      momentsOf i horizon ((t.kind, t.moment) :: l.waiting) := by
  have hrenewed := momentsOf_renewed (hpos t.kind) hdue
  rw [← List.singleton_append, momentsOf_append]
  rcases hanswer : t.answer with e | n
  · simp only [answered, hanswer]
    omega
  · simp only [answered, hanswer, hintervals, momentsOf_append]
    omega

theorem answered_waiting (h : ∀ e ∈ l.waiting, t.moment ≤ e.2) :
    ∀ e ∈ (l.answered t).waiting, t.moment ≤ e.2 := by
  rcases hanswer : t.answer with e | n
  · simpa [answered, hanswer] using h
  · simpa [answered, hanswer, or_imp, forall_and] using h

theorem nextDue?_eq_none_iff : l.nextDue? horizon = none ↔ ∀ e ∈ l.waiting, horizon < e.2 := by
  simp only [nextDue?, List.min?_eq_none_iff, List.filter_eq_nil_iff, List.mem_map]
  constructor
  · intro h e he
    simpa using h e.2 ⟨e, he, rfl⟩
  · rintro h _ ⟨e, he, rfl⟩
    simpa using h e he

theorem nextDue?_eq_some {moment : Nat} (h : l.nextDue? horizon = some moment) :
    moment ≤ horizon ∧ (∃ e ∈ l.waiting, e.2 = moment) ∧ ∀ e ∈ l.waiting, moment ≤ e.2 := by
  obtain ⟨hmem, hleast⟩ := List.min?_eq_some_iff.mp h
  obtain ⟨hdue, hmoment⟩ := List.mem_filter.mp hmem
  have hmoment : moment ≤ horizon := by simpa using hmoment
  refine ⟨hmoment, List.mem_map.mp hdue, fun e he => ?_⟩
  rcases Nat.lt_or_ge horizon e.2 with hpast | hdue
  · omega
  · exact hleast e.2 (List.mem_filter.mpr ⟨List.mem_map_of_mem he, by simpa using hdue⟩)

end Horizon

section Runs

variable {σ : Type} (s : Sources (StateM σ)) {i : Intervals} {start moment horizon : Nat}
variable {ticks : List Tick}

theorem tick_run (moment : Nat) (kind : Refresh) (l : Loops) (r : Reconciler) (w : σ) :
    ∃ t r' w', t.moment = moment ∧ t.kind = kind ∧
      r.refresh s t.kind w = ((t.answer, r'), w') ∧
      tick s moment kind l r w = ((l.answered t, r'), w') := by
  rcases h : r.refresh s kind w with ⟨⟨answer, r'⟩, w'⟩
  refine ⟨⟨moment, kind, answer⟩, r', w', rfl, rfl, h, ?_⟩
  show (tick s moment kind l r).run w = _
  rw [tick, StateT.run_bind, StateT.run, h]
  cases answer <;> rfl

theorem tickEach_run (hpos : ∀ kind, 0 < i.period kind) (hmoment : moment ≤ horizon)
    (pending : List (Refresh × Nat)) (hpending : ∀ e ∈ pending, e.2 = moment) (l : Loops)
    (hwaiting : ∀ e ∈ l.waiting, moment ≤ e.2) (r : Reconciler) (w : σ)
    (h : Chronicle i start ticks { l with waiting := pending ++ l.waiting }) :
    ∃ l' r' w' new, tickEach s moment pending l r w = ((l', r'), w') ∧
      Performs s new r w r' w' ∧ Chronicle i start (ticks ++ new) l' ∧
      (∀ t ∈ new, t.moment = moment) ∧
      l'.moments horizon + pending.length ≤ momentsOf i horizon (pending ++ l.waiting) := by
  -- the loops still pending at this moment count among those that wait
  induction pending generalizing ticks l r w with
  | nil =>
    refine ⟨l, r, w, [], rfl, .nil r w, by simpa using h, by simp, ?_⟩
    simp [moments, show l.intervals = i from h.intervals]
  | cons e pending ih =>
    obtain ⟨kind, due⟩ := e
    obtain rfl : due = moment := hpending _ List.mem_cons_self
    obtain ⟨t, r₁, w₁, rfl, rfl, hrun, htick⟩ := tick_run s due kind l r w
    have hpending' : ∀ e ∈ pending, e.2 = t.moment := fun e he =>
      hpending e (List.mem_cons_of_mem _ he)
    have hnext : ∀ e ∈ pending ++ l.waiting, t.moment ≤ e.2 := fun e he =>
      (List.mem_append.mp he).elim (fun he => Nat.le_of_eq (hpending' e he).symm) (hwaiting e)
    obtain ⟨l', r', w', new, heach, hperforms, hchronicle, hnew, hleft⟩ :=
      ih hpending' (l.answered t) (answered_waiting hwaiting) r₁ w₁ (h.answered hnext)
    refine ⟨l', r', w', t :: new, ?_, .cons hrun hperforms, ?_, ?_, ?_⟩
    · show (tickEach s t.moment ((t.kind, t.moment) :: pending) l r).run w = _
      rw [tickEach, StateT.run_bind, StateT.run, htick]
      exact heach
    · simpa using hchronicle
    · simpa using hnew
    · have hfewer := answered_moments hpos (show l.intervals = i from h.intervals) hmoment
      rw [List.cons_append, List.length_cons]
      simp only [momentsOf_append, momentsOf] at hleft hfewer ⊢
      omega

theorem tickAll_run (hpos : ∀ kind, 0 < i.period kind) (hmoment : moment ≤ horizon) (l : Loops)
    (hleast : ∀ e ∈ l.waiting, moment ≤ e.2) (hdue : ∃ e ∈ l.waiting, e.2 = moment)
    (r : Reconciler) (w : σ) (h : Chronicle i start ticks l) :
    ∃ l' r' w' new, tickAll s moment l r w = ((l', r'), w') ∧
      Performs s new r w r' w' ∧ Chronicle i start (ticks ++ new) l' ∧
      (∀ t ∈ new, t.moment = moment) ∧ l'.moments horizon < l.moments horizon := by
  have hperm : (l.waiting.filter (·.2 == moment) ++ l.waiting.filter (·.2 != moment)).Perm
      l.waiting := List.filter_append_perm _ _
  have hpending : ∀ e ∈ l.waiting.filter (·.2 == moment), e.2 = moment := by simp
  have hwaiting : ∀ e ∈ l.waiting.filter (·.2 != moment), moment ≤ e.2 := fun e he =>
    hleast e (List.mem_filter.mp he).1
  obtain ⟨l', r', w', new, hrun, hperforms, hchronicle, hnew, hleft⟩ :=
    tickEach_run s hpos hmoment _ hpending
      { l with now := moment, waiting := l.waiting.filter (·.2 != moment) } hwaiting r w
      (h.reordered rfl rfl hperm)
  refine ⟨l', r', w', new, hrun, hperforms, hchronicle, hnew, ?_⟩
  have hsome : 0 < (l.waiting.filter (·.2 == moment)).length := by
    obtain ⟨e, he, hmoment⟩ := hdue
    exact List.length_pos_of_mem (List.mem_filter.mpr ⟨he, by simpa using hmoment⟩)
  rw [momentsOf_perm hperm] at hleft
  rw [moments, moments, h.intervals]
  rw [moments] at hleft
  omega

/-- A run to a horizon makes all refreshes that are due up to it and no others. -/
theorem advanceWithin_run (hpos : ∀ kind, 0 < i.period kind) (fuel : Nat) (l : Loops)
    (hfuel : l.moments horizon < fuel) (r : Reconciler) (w : σ) (h : Chronicle i start ticks l) :
    ∃ l' r' w' new, advanceWithin s horizon fuel l r w = ((l', r'), w') ∧
      Performs s new r w r' w' ∧ Chronicle i start (ticks ++ new) l' ∧
      (∀ t ∈ new, t.moment ≤ horizon) ∧ ∀ e ∈ l'.waiting, horizon < e.2 := by
  -- each moment leaves fewer to come, so the fuel lasts until none is left
  induction fuel generalizing ticks l r w with
  | zero => omega
  | succ fuel ih =>
    cases hnext : l.nextDue? horizon with
    | none =>
      refine ⟨{ l with now := horizon }, r, w, [], ?_, .nil r w, ?_, by simp, ?_⟩
      · show (advanceWithin s horizon (fuel + 1) l r).run w = _
        rw [advanceWithin, hnext]
        rfl
      · rw [List.append_nil]
        exact h.reordered rfl rfl (.refl _)
      · exact nextDue?_eq_none_iff.mp hnext
    | some moment =>
      obtain ⟨hmoment, hdue, hleast⟩ := nextDue?_eq_some hnext
      obtain ⟨l₁, r₁, w₁, new, hall, hperforms, hchronicle, hnew, hfewer⟩ :=
        tickAll_run s hpos hmoment l hleast hdue r w h
      obtain ⟨l', r', w', more, hrest, hperforms', hchronicle', hmore, hpast⟩ :=
        ih l₁ (by omega) r₁ w₁ hchronicle
      refine ⟨l', r', w', new ++ more, ?_, hperforms.append hperforms', ?_, ?_, hpast⟩
      · show (advanceWithin s horizon (fuel + 1) l r).run w = _
        rw [advanceWithin, hnext]
        dsimp only
        rw [StateT.run_bind, StateT.run, hall]
        exact hrest
      · rwa [← List.append_assoc]
      · intro t ht
        rcases List.mem_append.mp ht with ht | ht
        · exact Nat.le_trans (Nat.le_of_eq (hnew t ht)) hmoment
        · exact hmore t ht

theorem runTo_run (hpos : ∀ kind, 0 < i.period kind) (horizon : Nat) (l : Loops)
    (r : Reconciler) (w : σ) (h : Chronicle i start ticks l) :
    ∃ l' r' w' new, runTo s horizon l r w = ((l', r'), w') ∧
      Performs s new r w r' w' ∧ Chronicle i start (ticks ++ new) l' ∧
      (∀ t ∈ new, t.moment ≤ horizon) ∧ ∀ e ∈ l'.waiting, horizon < e.2 :=
  advanceWithin_run s hpos _ l (Nat.lt_succ_self _) r w h

end Runs

-- ---------------------------------------------------------------------------
-- How the loops fare
-- ---------------------------------------------------------------------------

section Outcome

variable {i : Intervals} {start : Nat} {ticks : List Tick} {l : Loops}

theorem Chronicle.finished_iff (h : Chronicle i start ticks l) (kind : Refresh) :
    l.finished kind = true ↔ ∃ t ∈ ofKind kind ticks, t.succeeded = false := by
  have hfinished : l.finished kind = true ↔ ∀ due, (kind, due) ∉ l.waiting := by
    rw [finished, Bool.not_eq_true', List.any_eq_false]
    constructor
    · intro hnone due hmem
      exact hnone _ hmem (beq_self_eq_true kind)
    · rintro hnone ⟨other, due⟩ hmem hkind
      exact hnone due (beq_iff_eq.mp hkind ▸ hmem)
  rw [hfinished]
  constructor
  · intro hnone
    by_contra hok
    refine hnone _ ((h.waits kind _).mpr (next?_eq_some_iff.mpr ⟨fun t ht => ?_, rfl⟩))
    exact Bool.of_not_eq_false fun hfailed => hok ⟨t, ht, hfailed⟩
  · rintro ⟨t, ht, hfailed⟩ due hmem
    have hnone := (h.waits kind due).mp hmem
    rw [next?_of_failed ht hfailed] at hnone
    cases hnone

theorem Chronicle.length_eq (h : Chronicle i start ticks l) {elapsed : Nat} {kind : Refresh}
    (hpast : ∀ t ∈ ticks, t.moment ≤ start + elapsed)
    (hnext : ∀ e ∈ l.waiting, start + elapsed < e.2)
    (hok : ∀ t ∈ ofKind kind ticks, t.succeeded = true) :
    (ofKind kind ticks).length = i.refreshes elapsed kind := by
  have hmade : ∀ k < (ofKind kind ticks).length,
      i.first start kind + k * i.period kind ≤ start + elapsed := by
    intro k hk
    have hmem : i.first start kind + k * i.period kind ∈ (ofKind kind ticks).map (·.moment) := by
      rw [h.moments kind]
      exact List.mem_map_of_mem (List.mem_range.mpr hk)
    obtain ⟨t, ht, hmoment⟩ := List.mem_map.mp hmem
    exact hmoment ▸ hpast t (Tick.mem_ofKind.mp ht).1
  have hwaits : (kind, i.first start kind + (ofKind kind ticks).length * i.period kind) ∈
      l.waiting := (h.waits kind _).mpr (next?_eq_some_iff.mpr ⟨hok, rfl⟩)
  exact Intervals.refreshes_eq hmade (hnext _ hwaits)

end Outcome

section Schedule

variable {σ : Type}

/-- How a loop ends: all its refreshes before the failed one succeeded, none follows,
one error is reported and what was held before the failure is still held. -/
structure Stopped (s : Sources (StateM σ)) (r : Reconciler) (w : σ) (r' : Reconciler)
    (before : List Tick) (failed : Tick) (after : List Tick) (e : SourceError) : Prop where
  earlier : ∀ t ∈ ofKind failed.kind before, t.succeeded = true
  later : ofKind failed.kind after = []
  reported : (ofKind failed.kind (before ++ failed :: after)).filterMap Tick.error? = [e]
  generation : r'.generation failed.kind =
    r.generation failed.kind + (ofKind failed.kind before).length
  kept : ∃ r₁ w₁, Performs s before r w r₁ w₁ ∧ SameHeld r₁ r' failed.kind

theorem stopped_of_timely {s : Sources (StateM σ)} {i : Intervals} {start : Nat}
    {r r' : Reconciler} {w w' : σ} {before after : List Tick} {failed : Tick} {e : SourceError}
    (h : Timely i start (before ++ failed :: after)) (hanswer : failed.answer = .error e)
    (hperforms : Performs s (before ++ failed :: after) r w r' w') :
    Stopped s r w r' before failed after e := by
  have hfailed := Tick.failed_of_error hanswer
  obtain ⟨hearlier, hlater⟩ := h.of_failed hfailed
  obtain ⟨r₁, w₁, hbefore, hafter⟩ := hperforms.of_append
  have hkept : SameHeld r₁ r' failed.kind := hafter.sameHeld (by simpa [hlater] using hfailed)
  have hnone : (ofKind failed.kind before).filterMap Tick.error? = [] :=
    List.filterMap_eq_nil_iff.mpr fun t ht => Tick.error?_eq_none_iff.mpr (hearlier t ht)
  exact {
    earlier := hearlier
    later := hlater
    reported := by simp [hnone, hlater, Tick.error?_of_error hanswer]
    generation := by rw [hkept.generation_eq, hbefore.generation_eq hearlier]
    kept := ⟨r₁, w₁, hbefore, hkept⟩ }

/-- What the loops have done some time after their start. All of them are on time, and
each goes on to its own first failure, which is reported. -/
structure OnSchedule (s : Sources (StateM σ)) (i : Intervals) (start elapsed : Nat)
    (r : Reconciler) (w : σ) (ticks : List Tick) (l' : Loops) (r' : Reconciler) (w' : σ) :
    Prop where
  performs : Performs s ticks r w r' w'
  ordered : ticks.Pairwise (·.moment ≤ ·.moment)
  within : ∀ t ∈ ticks, t.moment ≤ start + elapsed
  errors : l'.errors = ticks.filterMap Tick.error?
  length_errors_le : l'.errors.length ≤ 3
  generations : (∀ t ∈ ticks, t.succeeded = true) →
    r'.directory.generation = r.directory.generation + elapsed / i.directory ∧
    r'.bugs.generation = r.bugs.generation + elapsed / i.bugs ∧
    r'.results.generation = r.results.generation + (1 + elapsed / i.results)
  moments : ∀ kind, (ofKind kind ticks).map (·.moment) =
    (List.range (ofKind kind ticks).length).map fun k => i.first start kind + k * i.period kind
  refreshes : ∀ kind, (∀ t ∈ ofKind kind ticks, t.succeeded = true) →
    (ofKind kind ticks).length = i.refreshes elapsed kind ∧
    r'.generation kind = r.generation kind + i.refreshes elapsed kind
  finished_iff : ∀ kind, l'.finished kind = true ↔ ∃ t ∈ ofKind kind ticks, t.succeeded = false
  stopped : ∀ before failed after e, ticks = before ++ failed :: after →
    failed.answer = .error e → Stopped s r w r' before failed after e

/-- From their start the loops refresh on time: the directory and the bugs once per
interval, the report also at the start. What a loop does depends on its own failures
only: it stops at the first, which it reports. -/
theorem runTo_on_schedule {i : Intervals} (hvalid : i.validate = .ok ()) {clockEnd start : Nat}
    {l : Loops} (hstart : startOn? clockEnd i start = some l) (s : Sources (StateM σ))
    (r : Reconciler) (w : σ) (elapsed : Nat) :
    ((∃ query w₀, Reconciler.bootstrap s query w₀ = (.ok r, w)) →
      ∀ kind, r.generation kind = 0) ∧
    (elapsed ≠ 0 → advance s elapsed l r = runTo s (start + elapsed) l r) ∧
    ∃ l' r' w' ticks, runTo s (start + elapsed) l r w = ((l', r'), w') ∧
      OnSchedule s i start elapsed r w ticks l' r' w' := by
  obtain ⟨l', r', w', ticks, hrun, hperforms, hchronicle, hpast, hnext⟩ :=
    runTo_run s (Intervals.period_pos hvalid) (start + elapsed) l r w (.of_start hstart)
  rw [List.nil_append] at hchronicle
  have hall (kind : Refresh) (hok : ∀ t ∈ ofKind kind ticks, t.succeeded = true) :
      (ofKind kind ticks).length = i.refreshes elapsed kind ∧
        r'.generation kind = r.generation kind + i.refreshes elapsed kind := by
    have hlength := hchronicle.length_eq hpast hnext hok
    exact ⟨hlength, hlength ▸ hperforms.generation_eq hok⟩
  refine ⟨?_, ?_, l', r', w', ticks, hrun, {
    performs := hperforms
    ordered := hchronicle.ordered
    within := hpast
    errors := hchronicle.errors
    length_errors_le := ?_
    generations := fun hok => ?_
    moments := hchronicle.moments
    refreshes := hall
    finished_iff := hchronicle.finished_iff
    stopped := ?_ }⟩
  · rintro ⟨query, w₀, hboot⟩ kind
    obtain ⟨d, bugs, w₁, -, -, rfl⟩ := Reconciler.bootstrap_eq_ok s hboot
    cases kind <;> rfl
  · intro helapsed
    have hnow : l.now = start := by rw [startOn?_eq_some hstart]
    rw [advance, if_neg helapsed, hnow]
  · have := hchronicle.count
    omega
  · have hkind (kind : Refresh) := (hall kind fun t ht => hok t (Tick.mem_ofKind.mp ht).1).2
    exact ⟨hkind .directory, hkind .bugs, hkind .results⟩
  · rintro before failed after e rfl hanswer
    exact stopped_of_timely hchronicle.toTimely hanswer hperforms

end Schedule

def flakyIntervals : Intervals := ⟨40, 10, 25⟩

def flakyLoops : Loops where
  intervals := flakyIntervals
  now := 0
  waiting := [(.directory, 40), (.bugs, 10), (.results, 0)]

/-- The loops for the directory and the report go on. -/
theorem runTo_on_schedule_flaky :
    flakyIntervals.validate = .ok () ∧ startOn? 100 flakyIntervals 0 = some flakyLoops ∧
    ∃ l' r' w' ticks,
      runTo Reconciler.flakySources 60 flakyLoops Reconciler.flakyStart 2 = ((l', r'), w') ∧
      Performs Reconciler.flakySources ticks Reconciler.flakyStart 2 r' w' ∧
      l'.errors = [.http] ∧ l'.finished .bugs = true ∧ r'.bugs.generation = 2 ∧
      (ofKind .directory ticks).map (·.moment) = [40] ∧
      (ofKind .results ticks).map (·.moment) = [0, 25, 50] := by
  have hvalid : flakyIntervals.validate = .ok () := rfl
  have hstart : startOn? 100 flakyIntervals 0 = some flakyLoops := rfl
  obtain ⟨-, -, l', r', w', ticks, hrun, h⟩ :=
    runTo_on_schedule hvalid hstart Reconciler.flakySources Reconciler.flakyStart 2 60
  rw [Nat.zero_add] at hrun
  have hl : l' = (runTo Reconciler.flakySources 60 flakyLoops Reconciler.flakyStart 2).1.1 := by
    rw [hrun]
  have hr : r' = (runTo Reconciler.flakySources 60 flakyLoops Reconciler.flakyStart 2).1.2 := by
    rw [hrun]
  -- a loop that has not ended has made all its refreshes
  have hmoments (kind : Refresh) (hwaits : l'.finished kind = false) :
      (ofKind kind ticks).map (·.moment) = (List.range (flakyIntervals.refreshes 60 kind)).map
        fun k => flakyIntervals.first 0 kind + k * flakyIntervals.period kind := by
    have hok : ∀ t ∈ ofKind kind ticks, t.succeeded = true := fun t ht =>
      Bool.of_not_eq_false fun hfailed => by
        rw [(h.finished_iff kind).mpr ⟨t, ht, hfailed⟩] at hwaits
        cases hwaits
    rw [h.moments kind, (h.refreshes kind hok).1]
  refine ⟨hvalid, hstart, l', r', w', ticks, hrun, h.performs, ?_, ?_, ?_, ?_, ?_⟩
  · rw [hl]
    decide +kernel
  · rw [hl]
    decide +kernel
  · rw [hr]
    decide +kernel
  · exact hmoments .directory (by rw [hl]; decide +kernel)
  · exact hmoments .results (by rw [hl]; decide +kernel)

end Loops

end Triage
