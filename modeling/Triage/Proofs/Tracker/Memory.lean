import Mathlib.Data.List.Induction
import Triage.Proofs.BugUpdate
import Triage.Proofs.SortedMap
import Triage.Tracker.Memory

/-!
# Runs of a tracker in memory

Any calls are made on an empty tracker, one after the other. What it holds can be
told from the calls and from its log (`Contents`): one step keeps it so, whatever the
call (`Contents.performed`), and so do whole runs. A failure is pending exactly from
the call that asks for it to the next request, which is the one that fails.
-/

namespace Triage.MemoryTracker

-- ---------------------------------------------------------------------------
-- Calls
-- ---------------------------------------------------------------------------

inductive Call where
  | setBugs (bugs : List Bug)
  | failNext (body : String)
  | search (q : BugQuery)
  | getBug (id : UInt64)
  | updateBug (id : UInt64) (u : BugUpdate)

namespace Call

def isRequest : Call → Bool
  | search _ | getBug _ | updateBug _ _ => true
  | setBugs _ | failNext _ => false

def setBugs? : Call → Option (List Bug)
  | setBugs bugs => some bugs
  | _ => none

end Call

inductive Reply where
  | done
  | found (bugs : BugSet)
  | bug (b : Bug)

def perform (t : MemoryTracker) : Call → SourceResult Reply × MemoryTracker
  | .setBugs bugs => (.ok .done, t.setBugs bugs)
  | .failNext body => (.ok .done, t.failNext body)
  | .search q => (t.search q).map (·.map .found) id
  | .getBug id => (t.getBug id).map (·.map .bug) fun t => t
  | .updateBug id u => (t.updateBug id u).map (·.map fun _ => .done) fun t => t

def after (calls : List Call) : MemoryTracker := calls.foldl (fun t c => (t.perform c).2) {}

/-- All that a call can do. -/
inductive Performed (t : MemoryTracker) : Call → SourceResult Reply → MemoryTracker → Prop
  | setBugs (bugs : List Bug) :
      Performed t (.setBugs bugs) (.ok .done)
        { t with bugs := .ofList (bugs.map fun b => (b.id, b)) }
  | failNext (body : String) :
      Performed t (.failNext body) (.ok .done) { t with failure := some body }
  | injected {c : Call} {body : String} (hc : c.isRequest = true) (h : t.failure = some body) :
      Performed t c (.error (.injected body)) { t with failure := none }
  | search (q : BugQuery) (h : t.failure = none) :
      Performed t (.search q) (.ok (.found ⟨t.bugs.values.filter q.accepts⟩)) t
  | getBug {id : UInt64} {b : Bug} (h : t.failure = none) (hb : t.bugs.get? id = some b) :
      Performed t (.getBug id) (.ok (.bug b)) t
  | getNone {id : UInt64} (h : t.failure = none) (hb : t.bugs.get? id = none) :
      Performed t (.getBug id) (.error (.notFound id)) t
  | updateBug {id : UInt64} {b b' : Bug} {u : BugUpdate} (h : t.failure = none)
      (hb : t.bugs.get? id = some b) (hchanges : u.Changes b b') :
      Performed t (.updateBug id u) (.ok .done)
        { t with bugs := t.bugs.insert id b', updates := t.updates ++ [(id, u)] }
  | updateNone {id : UInt64} (u : BugUpdate) (h : t.failure = none)
      (hb : t.bugs.get? id = none) :
      Performed t (.updateBug id u) (.error (.notFound id)) t

theorem perform_of_pending {t : MemoryTracker} {c : Call} {body : String}
    (hc : c.isRequest = true) (h : t.failure = some body) :
    t.perform c = (.error (.injected body), { t with failure := none }) := by
  cases c <;> simp_all [Call.isRequest, perform, MemoryTracker.search, MemoryTracker.getBug,
    MemoryTracker.updateBug, call, Except.map]

theorem perform_performed (t : MemoryTracker) (c : Call) :
    Performed t c (t.perform c).1 (t.perform c).2 := by
  cases h : t.failure with
  | some body =>
    cases hc : c.isRequest with
    | true =>
      rw [perform_of_pending hc h]
      exact .injected hc h
    | false =>
      cases c with
      | setBugs bugs => exact .setBugs bugs
      | failNext body => exact .failNext body
      | _ => cases hc
  | none =>
    cases c with
    | setBugs bugs => exact .setBugs bugs
    | failNext body => exact .failNext body
    | search q =>
      simp only [perform, MemoryTracker.search, call, h]
      exact .search q h
    | getBug id =>
      simp only [perform, MemoryTracker.getBug, call, h]
      cases hb : t.bugs.get? id with
      | none => exact .getNone h hb
      | some b => exact .getBug h hb
    | updateBug id u =>
      simp only [perform, MemoryTracker.updateBug, call, h]
      cases hb : t.bugs.get? id with
      | none => exact .updateNone u h hb
      | some b =>
        simpa [Except.map, h] using Performed.updateBug h hb (u.changes_applyTo b)

theorem after_concat (calls : List Call) (c : Call) :
    after (calls ++ [c]) = ((after calls).perform c).2 := by
  simp [after]

-- ---------------------------------------------------------------------------
-- Pending failures
-- ---------------------------------------------------------------------------

/-- A failure with this text was asked for, and since then nothing but the bugs was set. -/
def Pending (calls : List Call) (body : String) : Prop :=
  ∃ before later, calls = before ++ .failNext body :: later ∧ ∀ c ∈ later, ∃ bugs, c = .setBugs bugs

section Pending

variable {calls : List Call} {c : Call} {body : String}

theorem pending_concat :
    Pending (calls ++ [c]) body ↔
      c = .failNext body ∨ (∃ bugs, c = .setBugs bugs) ∧ Pending calls body := by
  constructor
  · rintro ⟨before, later, heq, hlater⟩
    rcases List.eq_nil_or_concat later with rfl | ⟨later, last, rfl⟩
    · exact .inl (List.singleton_injective (List.append_inj' heq rfl).2)
    · rw [List.concat_eq_append, ← List.cons_append, ← List.append_assoc] at heq
      obtain ⟨rfl, hlast⟩ := List.append_inj' heq rfl
      obtain rfl := List.singleton_injective hlast
      exact .inr ⟨hlater c (by simp), before, later, rfl, fun d hd => hlater d (by simp [hd])⟩
  · rintro (rfl | ⟨⟨bugs, rfl⟩, before, later, rfl, hlater⟩)
    · exact ⟨calls, [], rfl, by simp⟩
    · refine ⟨before, later ++ [.setBugs bugs], by simp, fun d hd => ?_⟩
      rcases List.mem_append.mp hd with hd | hd
      · exact hlater d hd
      · exact ⟨bugs, List.mem_singleton.mp hd⟩

theorem not_pending_concat (hc : c.isRequest = true) : ¬ Pending (calls ++ [c]) body := by
  rw [pending_concat]
  rintro (rfl | ⟨⟨bugs, rfl⟩, -⟩) <;> cases hc

theorem exists_failNext (hc : c.isRequest = true) {between : List Call}
    (h : Pending (calls ++ c :: between) body) : .failNext body ∈ between := by
  induction between using List.reverseRecOn with
  | nil => exact absurd h (not_pending_concat hc)
  | append_singleton between d ih =>
    rw [← List.cons_append, ← List.append_assoc, pending_concat] at h
    obtain rfl | ⟨-, h⟩ := h
    · simp
    · exact List.mem_append_left _ (ih h)

end Pending

-- ---------------------------------------------------------------------------
-- What is held
-- ---------------------------------------------------------------------------

/-- The bugs that were set last, and the calls before that; none and none if no bugs were set. -/
inductive Populated : List Call → List Call → List Bug → Prop
  | never {calls : List Call} (h : ∀ c ∈ calls, c.setBugs? = none) : Populated calls [] []
  | last (before : List Call) (bugs : List Bug) {later : List Call}
      (h : ∀ c ∈ later, c.setBugs? = none) :
      Populated (before ++ .setBugs bugs :: later) before bugs

/-- What becomes of a bug by a log: every update of its id, in the order of the log, changes
it, and those of other ids do not. -/
inductive Replays : List (UInt64 × BugUpdate) → Bug → Bug → Prop
  | nil (b : Bug) : Replays [] b b
  | other {log : List (UInt64 × BugUpdate)} {b b' : Bug} {id : UInt64} (h : Replays log b b')
      (hid : id ≠ b.id) (u : BugUpdate) : Replays (log ++ [(id, u)]) b b'
  | own {log : List (UInt64 × BugUpdate)} {b b' b'' : Bug} {u : BugUpdate} (h : Replays log b b')
      (hchanges : u.Changes b' b'') : Replays (log ++ [(b.id, u)]) b b''

/-- Under every id is held the last bug of that id among those set last, with the
updates logged since. -/
def Contents (calls : List Call) (t : MemoryTracker) : Prop :=
  ∃ before bugs since, Populated calls before bugs ∧
    t.updates = (after before).updates ++ since ∧
    ∀ id, Option.Rel (Replays since) (bugs.reverse.find? (·.id == id)) (t.bugs.get? id)

section Contents

variable {calls before : List Call} {bugs : List Bug} {c : Call} {id : UInt64} {b b' : Bug}
  {since : List (UInt64 × BugUpdate)}

theorem Populated.concat (h : Populated calls before bugs) (hc : c.setBugs? = none) :
    Populated (calls ++ [c]) before bugs := by
  have hconcat {later : List Call} (hlater : ∀ d ∈ later, d.setBugs? = none) :
      ∀ d ∈ later ++ [c], d.setBugs? = none := fun d hd => by
    rcases List.mem_append.mp hd with hd | hd
    · exact hlater d hd
    · exact List.mem_singleton.mp hd ▸ hc
  cases h with
  | never h => exact .never (hconcat h)
  | last before bugs h =>
    rw [List.append_assoc, List.cons_append]
    exact .last before bugs (hconcat h)

theorem lookup_map_id (l : List Bug) :
    (l.map fun b => (b.id, b)).lookup id = l.find? (·.id == id) := by
  induction l with
  | nil => rfl
  | cons b rest ih =>
    rw [List.map_cons, SortedMap.lookup_cons_eq, List.find?_cons, ih]
    by_cases hb : id = b.id
    · simp [hb]
    · simp [hb, beq_eq_false_iff_ne.mpr (Ne.symm hb)]

theorem Replays.id_eq (h : Replays since b b') : b'.id = b.id := by
  induction h with
  | nil b => rfl
  | other _ _ _ ih => exact ih
  | own _ hchanges ih => exact hchanges.id_eq.trans ih

theorem exists_first
    (h : Option.Rel (Replays since) (bugs.reverse.find? (·.id == id)) (some b)) :
    ∃ first, bugs.reverse.find? (·.id == id) = some first ∧ first.id = id ∧
      Replays since first b := by
  cases hfirst : bugs.reverse.find? (·.id == id) with
  | none =>
    rw [hfirst] at h
    cases h
  | some first =>
    rw [hfirst] at h
    cases h with
    | some hreplays => exact ⟨first, rfl, by simpa using List.find?_some hfirst, hreplays⟩

theorem replays_insert {held : SortedMap UInt64 Bug}
    (hheld : ∀ id, Option.Rel (Replays since) (bugs.reverse.find? (·.id == id)) (held.get? id))
    (hb : held.get? id = some b) {u : BugUpdate} (hchanges : u.Changes b b') (other : UInt64) :
    Option.Rel (Replays (since ++ [(id, u)])) (bugs.reverse.find? (·.id == other))
      ((held.insert id b').get? other) := by
  rw [SortedMap.get?_insert]
  by_cases hother : other = id
  · subst hother
    obtain ⟨first, hfirst, rfl, hreplays⟩ := exists_first (hb ▸ hheld other)
    rw [if_pos rfl, hfirst]
    exact .some (hreplays.own hchanges)
  · rw [if_neg hother]
    cases hget : held.get? other with
    | none =>
      have hnone := hget ▸ hheld other
      generalize bugs.reverse.find? (·.id == other) = first at hnone ⊢
      cases hnone
      exact .none
    | some kept =>
      obtain ⟨first, hfirst, rfl, hreplays⟩ := exists_first (hget ▸ hheld other)
      rw [hfirst]
      exact .some (hreplays.other (Ne.symm hother) u)

end Contents

section Steps

variable {calls : List Call} {t t' : MemoryTracker} {c : Call} {reply : SourceResult Reply}

theorem Performed.failure (h : Performed t c reply t') (body : String) :
    t'.failure = some body ↔
      c = .failNext body ∨ (∃ bugs, c = .setBugs bugs) ∧ t.failure = some body := by
  cases h with
  | injected hc hpending => cases c <;> simp_all [Call.isRequest]
  | _ => simp_all

theorem Performed.of_error {e : SourceError} (h : Performed t c (.error e) t') :
    t'.bugs = t.bugs ∧ t'.updates = t.updates := by
  cases h <;> exact ⟨rfl, rfl⟩

theorem Performed.injected_iff (h : Performed t c reply t') (body : String) :
    reply = .error (.injected body) ↔ c.isRequest = true ∧ t.failure = some body := by
  cases h with
  | injected hc hpending => simp [hc, hpending, SourceError.injected]
  | _ => simp_all [Call.isRequest, SourceError.injected]

theorem Contents.keep (h : Contents calls t) (hc : c.setBugs? = none) (hbugs : t'.bugs = t.bugs)
    (hupdates : t'.updates = t.updates) : Contents (calls ++ [c]) t' := by
  obtain ⟨before, bugs, since, hpopulated, hlog, hheld⟩ := h
  exact ⟨before, bugs, since, hpopulated.concat hc, hupdates.trans hlog, hbugs ▸ hheld⟩

theorem Contents.performed (h : Contents calls (after calls))
    (hstep : Performed (after calls) c reply t') : Contents (calls ++ [c]) t' := by
  cases hstep with
  | setBugs new =>
    refine ⟨calls, new, [], .last calls new (by simp), by simp, fun key => ?_⟩
    rw [SortedMap.get?_ofList, ← List.map_reverse, lookup_map_id]
    cases new.reverse.find? (·.id == key) with
    | none => exact .none
    | some b => exact .some (.nil b)
  | updateBug hnone hb hchanges =>
    obtain ⟨before, bugs, since, hpopulated, hlog, hheld⟩ := h
    refine ⟨before, bugs, since ++ [(_, _)], hpopulated.concat rfl, ?_,
      replays_insert hheld hb hchanges⟩
    rw [hlog, List.append_assoc]
  | failNext body => exact h.keep rfl rfl rfl
  | injected hc hpending =>
    have hset : c.setBugs? = none := by cases c <;> trivial
    exact h.keep hset rfl rfl
  | search q hnone => exact h.keep rfl rfl rfl
  | getBug hnone hb => exact h.keep rfl rfl rfl
  | getNone hnone hb => exact h.keep rfl rfl rfl
  | updateNone u hnone hb => exact h.keep rfl rfl rfl

end Steps

-- ---------------------------------------------------------------------------
-- Runs
-- ---------------------------------------------------------------------------

section Runs

variable (calls : List Call)

theorem failure_after (body : String) :
    (after calls).failure = some body ↔ Pending calls body := by
  induction calls using List.reverseRecOn with
  | nil => simp [after, Pending]
  | append_singleton calls c ih =>
    rw [after_concat, (perform_performed _ c).failure, pending_concat, ih]

theorem contents_after : Contents calls (after calls) := by
  induction calls using List.reverseRecOn with
  | nil => exact ⟨[], [], [], .never (by simp), rfl, fun _ => .none⟩
  | append_singleton calls c ih =>
    rw [after_concat]
    exact ih.performed (perform_performed _ c)

theorem id_of_get? {id : UInt64} {b : Bug} (hb : (after calls).bugs.get? id = some b) :
    b.id = id := by
  obtain ⟨-, bugs, since, -, -, hheld⟩ := contents_after calls
  obtain ⟨first, -, hid, hreplays⟩ := exists_first (hb ▸ hheld id)
  exact hreplays.id_eq.trans hid

theorem values_pairwise : (after calls).bugs.values.Pairwise (·.id < ·.id) := by
  have hid : ∀ e ∈ (after calls).bugs.entries, e.2.id = e.1 := fun e he =>
    id_of_get? calls ((SortedMap.mem_entries_iff _).mp he)
  rw [SortedMap.values, List.pairwise_map]
  refine (after calls).bugs.sorted.imp_of_mem fun {e e'} he he' hlt => ?_
  rwa [hid e he, hid e' he']

theorem mem_values {b : Bug} :
    b ∈ (after calls).bugs.values ↔ (after calls).bugs.get? b.id = some b := by
  rw [SortedMap.values, List.mem_map]
  constructor
  · rintro ⟨⟨id, b⟩, he, rfl⟩
    have hget := (SortedMap.mem_entries_iff _).mp he
    rwa [id_of_get? calls hget]
  · exact fun hb => ⟨(b.id, b), (SortedMap.mem_entries_iff _).mpr hb, rfl⟩

theorem search_eq_ok {q : BugQuery} {found : BugSet} (h : ((after calls).search q).1 = .ok found) :
    found.bugs = (after calls).bugs.values.filter q.accepts := by
  rw [MemoryTracker.search, call] at h
  cases hfailure : (after calls).failure with
  | none =>
    rw [hfailure] at h
    exact (congrArg BugSet.bugs (Except.ok.inj h)).symm
  | some body =>
    rw [hfailure] at h
    cases h

/-- After any calls every bug is held under its own id, and what is held is what was set
last with the updates logged since; so a search gives the bugs that it accepts by
increasing id. The next call does one of the things that a call can do: a request
fails with the text of the last failure asked for exactly when that is pending, which
it is not any more then, and a call that fails changes neither bugs nor log. Between
two requests that fail so, another failure is asked for. -/
theorem after_calls :
    (∀ id b, (after calls).bugs.get? id = some b → b.id = id) ∧
    Contents calls (after calls) ∧
    (∀ q found, ((after calls).search q).1 = .ok found →
      found.bugs.Pairwise (·.id < ·.id) ∧
      ∀ b, b ∈ found.bugs ↔ (after calls).bugs.get? b.id = some b ∧ q.accepts b = true) ∧
    (∀ c, Performed (after calls) c ((after calls).perform c).1 (after (calls ++ [c])) ∧
      (∀ body, ((after calls).perform c).1 = .error (.injected body) ↔
        c.isRequest = true ∧ Pending calls body) ∧
      (c.isRequest = true → ∀ body, ¬ Pending (calls ++ [c]) body) ∧
      ∀ e, ((after calls).perform c).1 = .error e →
        (after (calls ++ [c])).bugs = (after calls).bugs ∧
        (after (calls ++ [c])).updates = (after calls).updates) ∧
    ∀ c between c' body body', ((after calls).perform c).1 = .error (.injected body) →
      ((after (calls ++ c :: between)).perform c').1 = .error (.injected body') →
      .failNext body' ∈ between := by
  have hinjected (calls c body) : ((after calls).perform c).1 = .error (.injected body) ↔
      c.isRequest = true ∧ Pending calls body := by
    rw [(perform_performed _ c).injected_iff, failure_after]
  refine ⟨fun id b => id_of_get? calls, contents_after calls,
    fun q found hfound => ⟨?_, fun b => ?_⟩,
    fun c => ⟨?_, hinjected calls c, fun hc _ => not_pending_concat hc, fun e he => ?_⟩, ?_⟩
  · rw [search_eq_ok calls hfound]
    exact (values_pairwise calls).sublist List.filter_sublist
  · rw [search_eq_ok calls hfound, List.mem_filter, mem_values]
  · rw [after_concat]
    exact perform_performed _ c
  · rw [after_concat]
    exact (he ▸ perform_performed (after calls) c).of_error
  · intro c between c' body body' hfirst hsecond
    exact exists_failNext ((hinjected calls c body).mp hfirst).1
      ((hinjected _ c' body').mp hsecond).2

end Runs

/-- Two bugs, one of them set twice, of which one is updated. Two failures are asked for;
the next search has the second one. -/
def updatingCalls : List Call := [
  .setBugs [{ id := 2, status := "OLD" }, { id := 2, status := "NEW", keywords := ["Gone", "Kept"] },
    { id := 1, status := "NEW" }],
  .failNext "lost", .failNext "down", .search {},
  .updateBug 2 {
    status := some "POST"
    keywords := some { add := ["Added", "Kept", "Added"], remove := ["Gone"] } },
  .updateBug 9 { status := some "POST" }]

theorem after_calls_updating :
    Pending (updatingCalls.take 3) "down" ∧
    ((after (updatingCalls.take 3)).perform (.search {})).1 = .error (.injected "down") ∧
    (after updatingCalls).updates.map (·.1) = [2] ∧
    ∃ found, ((after updatingCalls).search {}).1 = .ok found ∧
      found.bugs.Pairwise (·.id < ·.id) ∧
      found.bugs.map (fun b => (b.id, b.status, b.keywords)) =
        [(1, "NEW", []), (2, "POST", ["Kept", "Added"])] := by
  have hfailure : ((after (updatingCalls.take 3)).perform (.search {})).1 =
      .error (.injected "down") := rfl
  obtain ⟨-, -, -, hstep, -⟩ := after_calls (updatingCalls.take 3)
  obtain ⟨-, hinjected, -⟩ := hstep (.search {})
  have hfound : ((after updatingCalls).search {}).1 =
      .ok ⟨(after updatingCalls).bugs.values.filter (BugQuery.accepts {})⟩ := rfl
  obtain ⟨-, -, hsearch, -⟩ := after_calls updatingCalls
  exact ⟨((hinjected "down").mp hfailure).2, hfailure, by decide +kernel, _, hfound,
    (hsearch {} _ hfound).1, by decide +kernel⟩

end Triage.MemoryTracker
