import Mathlib.Data.List.Basic
import Triage.Reconciler

/-!
# What is held reflects what the sources gave

Calls are made on a reconciler one after the other while the sources give or
refuse whatever they like. The record of what they gave decides what is held
(`Reflects`): it is so at the start, every refresh keeps it so, and so do whole
runs. A refresh that fails changes nothing, and a round that fails has done
exactly the refreshes before the failure.
-/

namespace Triage

-- ---------------------------------------------------------------------------
-- The record
-- ---------------------------------------------------------------------------

inductive Answer where
  | directory (given : SourceResult Directory)
  | bugs (given : SourceResult BugSet)
  | rates (version : String) (given : SourceResult PassRates)

namespace Answer

def directory? : Answer → Option Directory
  | directory (.ok d) => some d
  | _ => none

def bugs? : Answer → Option BugSet
  | bugs (.ok b) => some b
  | _ => none

def rates? : Answer → Option PassRates
  | rates _ (.ok ci) => some ci
  | _ => none

end Answer

namespace Sources

variable {σ : Type}

def noted (entries : α → List Answer) (call : StateM σ α) : StateM (σ × List Answer) α :=
  fun (w, log) =>
    let (given, w) := call w
    (given, w, log ++ entries given)

/-- The sources with a record of what they give. -/
def recorded (s : Sources (StateM σ)) : Sources (StateM (σ × List Answer)) where
  org := noted (fun given => [.directory given]) s.org
  tracker := { s.tracker.lift (noted fun _ => []) with
    search := fun q => noted (fun given => [.bugs given]) (s.tracker.search q) }
  ci version := noted (fun given => [.rates version given]) (s.ci version)

end Sources

namespace Reconciler

inductive Call where
  | refresh (kind : Refresh)
  | round
  deriving DecidableEq, Repr

section Runs

variable {m : Type → Type} [Monad m]

def call (s : Sources m) : Call → Reconciler → m (SourceResult Nat × Reconciler)
  | .refresh kind => refresh s kind
  | .round => runOnce s

def callEach (s : Sources m) : List Call → Reconciler → m Reconciler
  | [], r => return r
  | c :: rest, r => do
    let (_, r) ← call s c r
    callEach s rest r

end Runs

def generation (r : Reconciler) : Refresh → Nat
  | .directory => r.directory.generation
  | .bugs => r.bugs.generation
  | .results => r.results.generation

-- ---------------------------------------------------------------------------
-- One refresh
-- ---------------------------------------------------------------------------

/-- All that a refresh can do: what the sources give, what it answers and what is
held after it. -/
inductive Refreshed (r : Reconciler) :
    Refresh → List Answer → SourceResult Nat → Reconciler → Prop
  | directory (d : Directory) : Refreshed r .directory [.directory (.ok d)]
      (.ok (r.directory.generation + 1)) { r with directory := r.directory.replace d }
  | bugs (b : BugSet) : Refreshed r .bugs [.bugs (.ok b)]
      (.ok (r.bugs.generation + 1)) { r with bugs := r.bugs.replace b }
  | results (version : String) (ci : PassRates)
      (hversion : r.directory.value.currentVersion = .ok version) :
      Refreshed r .results [.rates version (.ok ci)] (.ok (r.results.generation + 1))
        { r with
          results := r.results.replace (Slo.report r.directory.value r.bugs.value version ci)
          published := r.results.generation + 1 }
  | directoryFailed (e : SourceError) :
      Refreshed r .directory [.directory (.error e)] (.error e) r
  | bugsFailed (e : SourceError) : Refreshed r .bugs [.bugs (.error e)] (.error e) r
  | resultsFailed (version : String) (e : SourceError)
      (hversion : r.directory.value.currentVersion = .ok version) :
      Refreshed r .results [.rates version (.error e)] (.error e) r
  | noRelease (e : ConfigError) (hversion : r.directory.value.currentVersion = .error e) :
      Refreshed r .results [] (.error (.config e)) r

namespace Refreshed

variable {r r' : Reconciler} {kind : Refresh} {new : List Answer} {n : Nat} {e : SourceError}

theorem of_ok (h : Refreshed r kind new (.ok n) r') :
    n = r'.generation kind ∧
      ∀ other, r'.generation other = r.generation other + if other = kind then 1 else 0 := by
  cases h with
  | directory d => exact ⟨rfl, fun other => by cases other <;> rfl⟩
  | bugs b => exact ⟨rfl, fun other => by cases other <;> rfl⟩
  | results version ci hversion => exact ⟨rfl, fun other => by cases other <;> rfl⟩

theorem of_error (h : Refreshed r kind new (.error e) r') : r' = r := by
  cases h <;> rfl

end Refreshed

section Steps

variable {σ : Type} (s : Sources (StateM σ))

theorem refresh_recorded (kind : Refresh) (r : Reconciler) (w : σ) (log : List Answer) :
    ∃ answer r' w' new, refresh s kind r w = ((answer, r'), w') ∧
      refresh s.recorded kind r (w, log) = ((answer, r'), w', log ++ new) ∧
      Refreshed r kind new answer r' := by
  cases kind with
  | directory =>
    refine ⟨_, _, (s.org w).2, [.directory (s.org w).1], rfl, rfl, ?_⟩
    cases (s.org w).1 with
    | error e => exact .directoryFailed e
    | ok d => exact .directory d
  | bugs =>
    refine ⟨_, _, _, [.bugs (s.tracker.search r.query w).1], rfl, rfl, ?_⟩
    cases (s.tracker.search r.query w).1 with
    | error e => exact .bugsFailed e
    | ok b => exact .bugs b
  | results =>
    cases hversion : r.directory.value.currentVersion with
    | error e =>
      have hrun (m : Type → Type) [Monad m] (s : Sources m) :
          refresh s .results r = pure (.error (.config e), r) := by
        simp only [refresh, refreshResults, hversion]
      refine ⟨.error (.config e), r, w, [], congrFun (hrun _ s) w, ?_, .noRelease e hversion⟩
      rw [hrun, List.append_nil]
      rfl
    | ok version =>
      have hrun (m : Type → Type) [Monad m] (s : Sources m) :
          refresh s .results r = (do return r.acceptRates version (← s.ci version)) := by
        simp only [refresh, refreshResults, hversion]
      refine ⟨_, _, _, [.rates version (s.ci version w).1], congrFun (hrun _ s) w,
        congrFun (hrun _ s.recorded) (w, log), ?_⟩
      show Refreshed r .results _ (r.acceptRates version (s.ci version w).1).1
        (r.acceptRates version (s.ci version w).1).2
      cases (s.ci version w).1 with
      | error e => exact .resultsFailed version e hversion
      | ok ci => exact .results version ci hversion

/-- A refresh raises its own generation by one and answers with it, or changes nothing. -/
inductive RefreshOutcome (kind : Refresh) (r : Reconciler) (w : σ) : Prop
  | raised (r' : Reconciler) (w' : σ)
      (hrun : refresh s kind r w = ((.ok (r'.generation kind), r'), w'))
      (hgeneration : ∀ other,
        r'.generation other = r.generation other + if other = kind then 1 else 0)
  | failed (e : SourceError) (w' : σ) (hrun : refresh s kind r w = ((.error e, r), w'))

theorem refresh_cases (kind : Refresh) (r : Reconciler) (w : σ) : RefreshOutcome s kind r w := by
  obtain ⟨answer, r', w', new, hrun, -, hstep⟩ := refresh_recorded s kind r w []
  cases answer with
  | error e => exact .failed e w' (hstep.of_error ▸ hrun)
  | ok n =>
    obtain ⟨rfl, hgeneration⟩ := hstep.of_ok
    exact .raised r' w' hrun hgeneration

-- ---------------------------------------------------------------------------
-- Refreshes in a row
-- ---------------------------------------------------------------------------

/-- Refreshes made one after the other, all of which succeed. -/
inductive Completes : List Refresh → Reconciler → σ → Reconciler → σ → Prop
  | nil (r : Reconciler) (w : σ) : Completes [] r w r w
  | cons {kind : Refresh} {rest : List Refresh} {n : Nat} {r r' r'' : Reconciler} {w w' w'' : σ}
      (hrun : refresh s kind r w = ((.ok n, r'), w')) (hrest : Completes rest r' w' r'' w'') :
      Completes (kind :: rest) r w r'' w''

variable {s} {r r' : Reconciler} {w w' : σ} {kinds : List Refresh}

theorem Completes.generation_eq (h : Completes s kinds r w r' w') (kind : Refresh) :
    r'.generation kind = r.generation kind + kinds.count kind := by
  induction h with
  | nil r w => rfl
  | @cons head rest n r r₁ r₂ w w₁ w₂ hrun hrest ih =>
    obtain ⟨r₁', w₁', hrun', hgeneration⟩ | ⟨e, w₁', hrun'⟩ := refresh_cases s head r w
    · cases hrun.symm.trans hrun'
      rw [ih, hgeneration, List.count_cons]
      by_cases hkind : kind = head
      · rw [hkind, if_pos rfl, beq_self_eq_true, if_pos rfl]
        omega
      · rw [if_neg hkind, beq_eq_false_iff_ne.mpr (Ne.symm hkind)]
        rfl
    · cases hrun.symm.trans hrun'

theorem refreshEach_cons (last : SourceResult Nat) (kind : Refresh) :
    refreshEach s last (kind :: kinds) r w =
      match refresh s kind r w with
      | ((.error e, r), w) => ((.error e, r), w)
      | ((.ok n, r), w) => refreshEach s (.ok n) kinds r w := by
  show (refreshEach s last (kind :: kinds) r).run w = _
  rw [refreshEach, StateT.run_bind, StateT.run]
  obtain ⟨⟨_ | n, r'⟩, w'⟩ := refresh s kind r w <;> rfl

/-- Either every refresh succeeds, and the answer is that of the last one, or one
fails: what came before it is kept, and it changes nothing. -/
theorem refreshEach_cases (last : SourceResult Nat) (kinds : List Refresh) (r : Reconciler) (w : σ) :
    (∃ answer r' w', refreshEach s last kinds r w = ((answer, r'), w') ∧
      Completes s kinds r w r' w' ∧
      answer = kinds.getLast?.elim last fun kind => .ok (r'.generation kind)) ∨
    ∃ done failed rest e r' w₁ w', kinds = done ++ failed :: rest ∧ Completes s done r w r' w₁ ∧
      refresh s failed r' w₁ = ((.error e, r'), w') ∧
      refreshEach s last kinds r w = ((.error e, r'), w') := by
  induction kinds generalizing last r w with
  | nil => exact .inl ⟨last, r, w, rfl, .nil r w, rfl⟩
  | cons kind kinds ih =>
    rw [refreshEach_cons]
    obtain ⟨r₁, w₁, hrun, -⟩ | ⟨e, w₁, hrun⟩ := refresh_cases s kind r w
    · simp only [hrun]
      obtain ⟨answer, r', w', heach, hdone, rfl⟩ | ⟨done, failed, rest, e, r', w₂, w', rfl, hdone, hfail, heach⟩ :=
        ih (.ok (r₁.generation kind)) r₁ w₁
      · refine .inl ⟨_, r', w', heach, .cons hrun hdone, ?_⟩
        cases hdone with
        | nil => rfl
        | cons => rw [List.getLast?_cons_cons]; rfl
      · exact .inr ⟨kind :: done, failed, rest, e, r', w₂, w', rfl, .cons hrun hdone, hfail, heach⟩
    · simp only [hrun]
      exact .inr ⟨[], kind, kinds, e, r, w, w₁, rfl, .nil r w, hrun, rfl⟩

-- ---------------------------------------------------------------------------
-- What is held
-- ---------------------------------------------------------------------------

/-- A snapshot holds the last of the values that were given after a first one, and
its generation is their number. -/
structure Holds {α : Type} (cell : Snapshot α) (first : α) (given : List α) : Prop where
  generation : cell.generation = given.length
  value : cell.value = given.getLastD first

def directoryAfter (first : Directory) (log : List Answer) : Directory :=
  (log.filterMap Answer.directory?).getLastD first

def bugsAfter (first : BugSet) (log : List Answer) : BugSet :=
  (log.filterMap Answer.bugs?).getLastD first

/-- The last pass rates in the record are those of a version, given after `before`. -/
def LastRates (log before : List Answer) (version : String) (ci : PassRates) : Prop :=
  ∃ after, log = before ++ .rates version (.ok ci) :: after ∧ after.filterMap Answer.rates? = []

/-- A report is the evaluation of what was held when its pass rates were asked for;
it is empty when none were given. -/
structure ReportsOn (first : Directory) (firstBugs : BugSet) (log : List Answer)
    (report : Slo.Report) : Prop where
  empty : log.filterMap Answer.rates? = [] → report = ⟨.empty⟩
  evaluated : ∀ before version ci, LastRates log before version ci →
    let d := directoryAfter first before
    let bugs := bugsAfter firstBugs before
    d.currentVersion = .ok version ∧ report = Slo.evaluate d
      (.build d (bugs.filterByStatus ["NEW", "ASSIGNED", "ON_DEV", "POST"]) (version ++ ".0")) ci

/-- What is held after some answers, if it was `start` before. -/
structure Reflects (start : Reconciler) (log : List Answer) (r : Reconciler) : Prop where
  query : r.query = start.query
  directory : Holds r.directory start.directory.value (log.filterMap Answer.directory?)
  bugs : Holds r.bugs start.bugs.value (log.filterMap Answer.bugs?)
  results_generation : r.results.generation = (log.filterMap Answer.rates?).length
  results_value : ReportsOn start.directory.value start.bugs.value log r.results.value
  published : r.published = r.results.generation

section Cells

variable {α : Type} {f : Answer → Option α} {log new : List Answer} {cell : Snapshot α} {first x : α}

theorem given_append (hnew : new.filterMap f = []) :
    (log ++ new).filterMap f = log.filterMap f := by
  rw [List.filterMap_append, hnew, List.append_nil]

theorem Holds.keep (h : Holds cell first (log.filterMap f)) (hnew : new.filterMap f = []) :
    Holds cell first ((log ++ new).filterMap f) := by
  rw [given_append hnew]
  exact h

theorem Holds.replace (h : Holds cell first (log.filterMap f)) (hnew : new.filterMap f = [x]) :
    Holds (cell.replace x) first ((log ++ new).filterMap f) := by
  rw [List.filterMap_append, hnew]
  exact {
    generation := by rw [List.length_append, ← h.generation]; rfl
    value := List.getLastD_concat.symm }

end Cells

section Record

variable {start r r' : Reconciler} {log new before : List Answer} {kind : Refresh}
variable {answer : SourceResult Nat} {d : Directory} {b : BugSet} {report : Slo.Report}
variable {version version' : String} {ci ci' : PassRates}

theorem LastRates.of_append (hnew : new.filterMap Answer.rates? = [])
    (h : LastRates (log ++ new) before version ci) : LastRates log before version ci := by
  obtain ⟨after, hlog, hafter⟩ := h
  have hnone : .rates version (.ok ci) ∉ new := fun hmem =>
    nomatch List.filterMap_eq_nil_iff.mp hnew _ hmem
  rcases List.append_eq_append_iff.mp hlog with ⟨middle, -, rfl⟩ | ⟨middle, rfl, hrest⟩
  · exact absurd (List.mem_append_right middle List.mem_cons_self) hnone
  · cases middle with
    | nil => exact absurd (hrest.symm ▸ List.mem_cons_self : _ ∈ [] ++ new) hnone
    | cons head tail =>
      rw [List.cons_append] at hrest
      obtain ⟨rfl, rfl⟩ := List.cons.inj hrest
      rw [List.filterMap_append, List.append_eq_nil_iff] at hafter
      exact ⟨tail, rfl, hafter.1⟩

theorem LastRates.eq_of_concat (h : LastRates (log ++ [.rates version (.ok ci)]) before version' ci') :
    before = log ∧ version' = version ∧ ci' = ci := by
  obtain ⟨after, hlog, hafter⟩ := h
  rcases List.eq_nil_or_concat after with rfl | ⟨after, last, rfl⟩
  · obtain ⟨rfl, hlast⟩ := List.append_inj' hlog rfl
    cases hlast
    exact ⟨rfl, rfl, rfl⟩
  · rw [List.concat_eq_append, ← List.cons_append, ← List.append_assoc] at hlog
    obtain rfl : Answer.rates version (.ok ci) = last :=
      List.singleton_injective (List.append_inj' hlog rfl).2
    simp [Answer.rates?] at hafter

theorem ReportsOn.append (hnew : new.filterMap Answer.rates? = []) (h : ReportsOn d b log report) :
    ReportsOn d b (log ++ new) report where
  empty hnone := h.empty (given_append hnew ▸ hnone)
  evaluated before version ci hlast := h.evaluated before version ci (hlast.of_append hnew)

theorem reportsOn_concat (hversion : (directoryAfter d log).currentVersion = .ok version) :
    ReportsOn d b (log ++ [.rates version (.ok ci)])
      (Slo.report (directoryAfter d log) (bugsAfter b log) version ci) where
  empty hnone := by simp [Answer.rates?] at hnone
  evaluated before version' ci' hlast := by
    obtain ⟨rfl, rfl, rfl⟩ := hlast.eq_of_concat
    exact ⟨hversion, rfl⟩

theorem Reflects.append (h : Reflects start log r) (hdirectory : new.filterMap Answer.directory? = [])
    (hbugs : new.filterMap Answer.bugs? = []) (hrates : new.filterMap Answer.rates? = []) :
    Reflects start (log ++ new) r where
  query := h.query
  directory := h.directory.keep hdirectory
  bugs := h.bugs.keep hbugs
  results_generation := by rw [given_append hrates, h.results_generation]
  results_value := h.results_value.append hrates
  published := h.published

theorem Reflects.refreshed (h : Reflects start log r) (hstep : Refreshed r kind new answer r') :
    Reflects start (log ++ new) r' := by
  cases hstep with
  | directory d =>
    exact {
      query := h.query
      directory := h.directory.replace rfl
      bugs := h.bugs.keep rfl
      results_generation := by rw [given_append rfl, h.results_generation]
      results_value := h.results_value.append rfl
      published := h.published }
  | bugs b =>
    exact {
      query := h.query
      directory := h.directory.keep rfl
      bugs := h.bugs.replace rfl
      results_generation := by rw [given_append rfl, h.results_generation]
      results_value := h.results_value.append rfl
      published := h.published }
  | results version ci hversion =>
    have hdirectory : r.directory.value = directoryAfter start.directory.value log :=
      h.directory.value
    have hbugs : r.bugs.value = bugsAfter start.bugs.value log := h.bugs.value
    rw [hdirectory] at hversion
    exact {
      query := h.query
      directory := h.directory.keep rfl
      bugs := h.bugs.keep rfl
      results_generation := by
        rw [List.filterMap_append, List.length_append, ← h.results_generation]
        rfl
      results_value := by
        rw [hdirectory, hbugs]
        exact reportsOn_concat hversion
      published := rfl }
  | directoryFailed e => exact h.append rfl rfl rfl
  | bugsFailed e => exact h.append rfl rfl rfl
  | resultsFailed version e hversion => exact h.append rfl rfl rfl
  | noRelease e hversion => exact h.append rfl rfl rfl

end Record

-- ---------------------------------------------------------------------------
-- Whole runs
-- ---------------------------------------------------------------------------

variable (s)

theorem refreshEach_recorded (last : SourceResult Nat) (kinds : List Refresh) (r : Reconciler)
    (w : σ) (log : List Answer) :
    ∃ answer r' w' new, refreshEach s last kinds r w = ((answer, r'), w') ∧
      refreshEach s.recorded last kinds r (w, log) = ((answer, r'), w', log ++ new) ∧
      ∀ start before, Reflects start before r → Reflects start (before ++ new) r' := by
  induction kinds generalizing last r w log with
  | nil =>
    refine ⟨last, r, w, [], rfl, by rw [List.append_nil]; rfl, fun start before h => ?_⟩
    rw [List.append_nil]
    exact h
  | cons kind kinds ih =>
    obtain ⟨answer, r₁, w₁, new₁, hrun, hrecorded, hstep⟩ := refresh_recorded s kind r w log
    rw [refreshEach_cons, refreshEach_cons, hrun, hrecorded]
    cases answer with
    | error e => exact ⟨.error e, r₁, w₁, new₁, rfl, rfl, fun start before h => h.refreshed hstep⟩
    | ok n =>
      obtain ⟨answer, r', w', new₂, heach, heach', hkeep⟩ := ih (.ok n) r₁ w₁ (log ++ new₁)
      refine ⟨answer, r', w', new₁ ++ new₂, heach, by rw [← List.append_assoc]; exact heach',
        fun start before h => ?_⟩
      rw [← List.append_assoc]
      exact hkeep start (before ++ new₁) (h.refreshed hstep)

theorem call_recorded (c : Call) (r : Reconciler) (w : σ) (log : List Answer) :
    ∃ answer r' w' new, call s c r w = ((answer, r'), w') ∧
      call s.recorded c r (w, log) = ((answer, r'), w', log ++ new) ∧
      ∀ start before, Reflects start before r → Reflects start (before ++ new) r' := by
  cases c with
  | refresh kind =>
    obtain ⟨answer, r', w', new, hrun, hrecorded, hstep⟩ := refresh_recorded s kind r w log
    exact ⟨answer, r', w', new, hrun, hrecorded, fun start before h => h.refreshed hstep⟩
  | round => exact refreshEach_recorded s _ _ r w log

theorem callEach_recorded (calls : List Call) (r : Reconciler) (w : σ) (log : List Answer) :
    ∃ r' w' new, callEach s calls r w = (r', w') ∧
      callEach s.recorded calls r (w, log) = (r', w', log ++ new) ∧
      ∀ start before, Reflects start before r → Reflects start (before ++ new) r' := by
  induction calls generalizing r w log with
  | nil =>
    refine ⟨r, w, [], rfl, by rw [List.append_nil]; rfl, fun start before h => ?_⟩
    rw [List.append_nil]
    exact h
  | cons c calls ih =>
    obtain ⟨answer, r₁, w₁, new₁, hcall, hcall', hkeep₁⟩ := call_recorded s c r w log
    obtain ⟨r', w', new₂, hrest, hrest', hkeep₂⟩ := ih r₁ w₁ (log ++ new₁)
    refine ⟨r', w', new₁ ++ new₂, ?_, ?_, fun start before h => ?_⟩
    · show callEach s calls (call s c r w).1.2 (call s c r w).2 = _
      rw [hcall]
      exact hrest
    · show callEach s.recorded calls (call s.recorded c r (w, log)).1.2
        (call s.recorded c r (w, log)).2 = _
      rw [hcall', ← List.append_assoc]
      exact hrest'
    · rw [← List.append_assoc]
      exact hkeep₂ start (before ++ new₁) (hkeep₁ start before h)

/-- A round either refreshes everything and answers with the generation of the new
report, or stops at a refresh that fails and has done those before it. -/
inductive RoundOutcome (s : Sources (StateM σ)) (r : Reconciler) (w : σ) : Prop
  | completed (r' : Reconciler) (w' : σ)
      (hrun : runOnce s r w = ((.ok r'.results.generation, r'), w'))
      (hdone : Completes s [.directory, .bugs, .results] r w r' w')
      (hgeneration : ∀ kind, r'.generation kind = r.generation kind + 1)
  | stopped (done : List Refresh) (failed : Refresh) (rest : List Refresh) (e : SourceError)
      (r' : Reconciler) (w₁ w' : σ) (hkinds : [.directory, .bugs, .results] = done ++ failed :: rest)
      (hrun : runOnce s r w = ((.error e, r'), w')) (hdone : Completes s done r w r' w₁)
      (hfail : refresh s failed r' w₁ = ((.error e, r'), w'))
      (hgeneration : ∀ kind, r'.generation kind = r.generation kind + done.count kind)

theorem runOnce_cases (r : Reconciler) (w : σ) : RoundOutcome s r w := by
  obtain ⟨answer, r', w', hrun, hdone, rfl⟩ |
      ⟨done, failed, rest, e, r', w₁, w', hkinds, hdone, hfail, hrun⟩ :=
    refreshEach_cases (s := s) (.ok r.results.generation) [.directory, .bugs, .results] r w
  · refine .completed r' w' hrun hdone fun kind => ?_
    rw [hdone.generation_eq kind]
    cases kind <;> rfl
  · exact .stopped done failed rest e r' w₁ w' hkinds hrun hdone hfail hdone.generation_eq

theorem bootstrap_run (query : BugQuery) (w : σ) :
    bootstrap s query w =
      match s.org w with
      | (.error e, w) => (.error e, w)
      | (.ok d, w) =>
        match s.tracker.search query w with
        | (.error e, w) => (.error e, w)
        | (.ok bugs, w) =>
          (.ok { query := query, directory := .initial d, bugs := .initial bugs }, w) := by
  show (bootstrap s query).run w = _
  rw [bootstrap, StateT.run_bind, StateT.run]
  obtain ⟨_ | d, w₁⟩ := s.org w
  · rfl
  · show ((s.tracker.search query >>= _).run w₁ : Id (SourceResult Reconciler × σ)) = _
    rw [StateT.run_bind, StateT.run]
    dsimp only
    obtain ⟨_ | bugs, w₂⟩ := s.tracker.search query w₁ <;> rfl

theorem bootstrap_eq_ok {query : BugQuery} {w w' : σ} {start : Reconciler}
    (h : bootstrap s query w = (.ok start, w')) : ∃ d bugs w₁, s.org w = (.ok d, w₁) ∧
      s.tracker.search query w₁ = (.ok bugs, w') ∧
      start = { query := query, directory := .initial d, bugs := .initial bugs } := by
  rw [bootstrap_run] at h
  rcases horg : s.org w with ⟨_ | d, w₁⟩ <;> rw [horg] at h
  · cases h
  · rcases hsearch : s.tracker.search query w₁ with ⟨_ | bugs, w₂⟩ <;> simp only [hsearch] at h
    · cases h
    · cases h
      exact ⟨d, bugs, w₁, rfl, hsearch, rfl⟩

theorem reflects_start (query : BugQuery) (d : Directory) (bugs : BugSet) :
    Reflects { query := query, directory := .initial d, bugs := .initial bugs } []
      { query := query, directory := .initial d, bugs := .initial bugs } where
  query := rfl
  directory := ⟨rfl, rfl⟩
  bugs := ⟨rfl, rfl⟩
  results_generation := rfl
  results_value := {
    empty := fun _ => rfl
    evaluated := fun before version ci ⟨after, hlog, _⟩ => by simp at hlog }
  published := rfl

structure Bootstrapped (s : Sources (StateM σ)) (q : BugQuery) (w : σ) (start : Reconciler)
    (w₀ : σ) : Prop where
  query : start.query = q
  given : ∃ w₁, s.org w = (.ok start.directory.value, w₁) ∧
    s.tracker.search q w₁ = (.ok start.bugs.value, w₀)

/-- Where some calls lead from a start: to a reconciler that holds what the sources gave,
and to what a refresh or a round would do next. -/
structure Called (s : Sources (StateM σ)) (calls : List Call) (start : Reconciler) (w₀ : σ)
    (r : Reconciler) (w : σ) (log : List Answer) : Prop where
  run : callEach s calls start w₀ = (r, w)
  recorded : callEach s.recorded calls start (w₀, []) = (r, w, log)
  reflects : Reflects start log r
  refresh : ∀ kind, RefreshOutcome s kind r w
  unreleased : ∀ e, r.directory.value.currentVersion = .error e →
    Reconciler.refresh s .results r w = ((.error (.config e), r), w)
  round : RoundOutcome s r w

/-- After its start and any calls, whatever the sources give, a reconciler holds what
they gave. Another refresh answers with its new generation, the next one, or
changes nothing; a round keeps exactly the refreshes before the first that fails. -/
theorem reflects_callEach {query : BugQuery} {w w₀ : σ} {start : Reconciler}
    (h : bootstrap s query w = (.ok start, w₀)) (calls : List Call) :
    Bootstrapped s query w start w₀ ∧ ∃ r w log, Called s calls start w₀ r w log := by
  obtain ⟨d, bugs, w₁, horg, hsearch, rfl⟩ := bootstrap_eq_ok s h
  obtain ⟨r, w', log, hrun, hrecorded, hkeep⟩ := callEach_recorded s calls
    { query := query, directory := .initial d, bugs := .initial bugs } w₀ []
  refine ⟨⟨rfl, w₁, horg, hsearch⟩, r, w', log, {
    run := hrun
    recorded := hrecorded
    reflects := hkeep _ [] (reflects_start query d bugs)
    refresh := fun kind => refresh_cases s kind r w'
    unreleased := fun e he => ?_
    round := runOnce_cases s r w' }⟩
  simp only [Reconciler.refresh, refreshResults, he]
  rfl

end Steps

def releasedDirectory : Directory where
  title := ""
  teams := [{ name := "Node", components := ["Node"] }]
  releases := [{ name := "4.9", targets := ["4.9.0"] }]
  slo := .empty
  names_nodup := by decide

def flakySources : Sources (StateM Nat) where
  org calls := (.ok releasedDirectory, calls + 1)
  tracker := {
    search := fun _ calls => (if calls = 6 then .error .http else .ok ⟨[{ id := 1 }]⟩, calls + 1)
    getBug := fun id calls => (.error (.notFound id), calls + 1)
    updateBug := fun id _ calls => (.error (.notFound id), calls + 1) }
  ci _ calls := (.ok {}, calls + 1)

def flakyStart : Reconciler where
  query := {}
  directory := .initial releasedDirectory
  bugs := .initial ⟨[{ id := 1 }]⟩

/-- The second round fails after the directory, and a refresh of the results follows. -/
theorem reflects_callEach_flaky :
    bootstrap flakySources {} 0 = (.ok flakyStart, 2) ∧
    ∃ r w log,
      callEach flakySources [.round, .round, .refresh .results] flakyStart 2 = (r, w) ∧
      Reflects flakyStart log r ∧
      r.directory.generation = 2 ∧ r.bugs.generation = 1 ∧ r.published = 2 := by
  have hstart : bootstrap flakySources {} 0 = (.ok flakyStart, 2) := rfl
  obtain ⟨-, r, w, log, h⟩ := reflects_callEach flakySources hstart
    [.round, .round, .refresh .results]
  have hr : r = (callEach flakySources [.round, .round, .refresh .results] flakyStart 2).1 := by
    rw [h.run]
  refine ⟨hstart, r, w, log, h.run, h.reflects, ?_⟩
  rw [hr]
  exact ⟨by decide +kernel, by decide +kernel, by decide +kernel⟩

end Reconciler

end Triage
