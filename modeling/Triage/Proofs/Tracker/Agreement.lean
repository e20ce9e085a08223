import Triage.Proofs.Tracker.File
import Triage.Proofs.Tracker.Memory

/-!
# Trackers that answer alike

What can be asked of a tracker, and what is answered to requests one after the
other. A tracker in a file answers by the bugs in the file whatever it was asked
before (`FileTracker.ask_of_load`); a tracker in memory that holds the same bugs
does so until one is updated (`FileTracker.Mirrors.ask`).
-/

namespace Triage

namespace Tracker

inductive Request where
  | search (q : BugQuery)
  | getBug (id : UInt64)
  | updateBug (id : UInt64) (u : BugUpdate)

def Request.isUpdate : Request → Bool
  | search _ | getBug _ => false
  | updateBug _ _ => true

def ask {m : Type → Type} [Functor m] (t : Tracker m) :
    Request → m (SourceResult MemoryTracker.Reply)
  | .search q => (·.map .found) <$> t.search q
  | .getBug id => (·.map .bug) <$> t.getBug id
  | .updateBug id u => (·.map fun _ => .done) <$> t.updateBug id u

def askAll {m : Type → Type} [Monad m] (t : Tracker m) (requests : List Request) :
    m (List (SourceResult MemoryTracker.Reply)) :=
  requests.mapM t.ask

section Runs

variable {σ : Type} (t : Tracker (StateM σ)) {s s' : σ}

theorem run_search {q : BugQuery} {found : SourceResult BugSet}
    (h : (t.search q).run s = (found, s')) :
    (t.ask (.search q)).run s = (found.map .found, s') :=
  congrArg (·.map (·.map MemoryTracker.Reply.found) id) h

theorem run_getBug {id : UInt64} {bug : SourceResult Bug}
    (h : (t.getBug id).run s = (bug, s')) :
    (t.ask (.getBug id)).run s = (bug.map .bug, s') :=
  congrArg (·.map (·.map MemoryTracker.Reply.bug) fun s => s) h

theorem run_askAll {requests : List Request}
    {answer : Request → SourceResult MemoryTracker.Reply}
    (h : ∀ r ∈ requests, (t.ask r).run s = (answer r, s)) :
    (t.askAll requests).run s = (requests.map answer, s) := by
  induction requests with
  | nil => rfl
  | cons r rest ih =>
    have hrest : (rest.mapM t.ask).run s = (rest.map answer, s) :=
      ih fun r' hr' => h r' (List.mem_cons_of_mem _ hr')
    rw [askAll, List.mapM_cons, StateT.run_bind, h r List.mem_cons_self]
    change (fun p => (answer r :: p.1, p.2)) ((rest.mapM t.ask).run s) = _
    rw [hrest]
    rfl

end Runs

end Tracker

namespace FileTracker

open Tracker (Request)

def answer (path : String) (bugs : List Bug) : Request → SourceResult MemoryTracker.Reply
  | .search q => .ok (.found ⟨bugs.filter q.accepts⟩)
  | .getBug id => (bugs.find? (·.id == id)).elim (.error (.notFound id)) (.ok ∘ .bug)
  | .updateBug id _ => .error (.io (.permissionDenied (refusal path id)))

section Requests

variable {fs : Files} {path : String} {bugs : List Bug}

theorem ask_of_load (h : load fs path = .ok bugs) (r : Request) :
    (Tracker.ask (m := StateM Files) (tracker get path) r).run fs = (answer path bugs r, fs) := by
  cases r with
  | search q =>
    have hsearch : search fs path q = .ok ⟨bugs.filter q.accepts⟩ := by
      rw [search, h]
      rfl
    exact Tracker.run_search (tracker get path) (congrArg (·, fs) hsearch)
  | getBug id =>
    have hget : getBug fs path id = (bugs.find? (·.id == id)).elim (.error (.notFound id)) .ok := by
      rw [getBug, h]
      rfl
    rw [Tracker.run_getBug (tracker get path) (congrArg (·, fs) hget), answer]
    cases bugs.find? (·.id == id) <;> rfl
  | updateBug id u => rfl

end Requests

section Memory

variable {t : MemoryTracker} {path : String} {bugs : List Bug}

/-- No failure is pending, and under every id is held the bug of this id, if there is one. -/
structure Mirrors (t : MemoryTracker) (bugs : List Bug) : Prop where
  failure : t.failure = none
  get? : ∀ id, t.bugs.get? id = bugs.find? (·.id == id)

def byId (hids : bugs.Pairwise (·.id < ·.id)) : SortedMap UInt64 Bug :=
  ⟨bugs.map fun b => (b.id, b), List.pairwise_map.mpr hids⟩

theorem mirrors_setBugs (hids : bugs.Pairwise (·.id < ·.id)) (hfailure : t.failure = none) :
    Mirrors (t.setBugs bugs) bugs := by
  refine ⟨hfailure, fun id => ?_⟩
  have hmap : (t.setBugs bugs).bugs = byId hids := (byId hids).ofList_entries
  rw [hmap]
  exact MemoryTracker.lookup_map_id bugs

theorem Mirrors.values (h : Mirrors t bugs) (hids : bugs.Pairwise (·.id < ·.id)) :
    t.bugs.values = bugs := by
  have hmap : t.bugs = byId hids := SortedMap.ext_get? fun id =>
    (h.get? id).trans (MemoryTracker.lookup_map_id bugs).symm
  rw [hmap, SortedMap.values, byId, List.map_map]
  exact List.map_id _

theorem Mirrors.call {α : Type} (h : Mirrors t bugs)
    (reply : MemoryTracker → SourceResult α × MemoryTracker) : t.call reply = reply t := by
  rw [MemoryTracker.call, h.failure]

theorem Mirrors.ask (h : Mirrors t bugs) (hids : bugs.Pairwise (·.id < ·.id)) {r : Request}
    (hr : r.isUpdate = false) :
    (MemoryTracker.tracker.ask r).run t = (answer path bugs r, t) := by
  cases r with
  | search q =>
    have hsearch : t.search q = (.ok ⟨bugs.filter q.accepts⟩, t) := by
      rw [MemoryTracker.search, h.call, h.values hids]
    exact Tracker.run_search MemoryTracker.tracker hsearch
  | getBug id =>
    have hget : t.getBug id = ((bugs.find? (·.id == id)).elim (.error (.notFound id)) .ok, t) := by
      rw [MemoryTracker.getBug, h.call, h.get?]
    rw [Tracker.run_getBug MemoryTracker.tracker hget, answer]
    cases bugs.find? (·.id == id) <;> rfl
  | updateBug id u => cases hr

end Memory

/-- A file with increasing ids, in either form, is searched and looked into like a tracker in
memory that holds the same bugs. Whatever it is asked, updates too, which all fail, it goes
on to answer by the bugs in the file. -/
theorem answers_like_memory {fs : Files} {path : String} {v : Json} {bugs : List Bug}
    {t : MemoryTracker} (hfile : Contains fs path v) (hdump : Dump v bugs)
    (hids : bugs.Pairwise (·.id < ·.id)) (ht : Mirrors t bugs) :
    let file : Tracker (StateM Files) := tracker get path
    (∀ requests : List Request, (∀ r ∈ requests, r.isUpdate = false) →
      ((file.askAll requests).run fs).1 = ((MemoryTracker.tracker.askAll requests).run t).1) ∧
    ∀ requests : List Request,
      (file.askAll requests).run fs = (requests.map (answer path bugs), fs) := by
  intro file
  have hload : load fs path = .ok bugs := load_eq_ok_iff.mpr ⟨v, hfile, .inl hdump⟩
  have hrun (requests : List Request) :
      (file.askAll requests).run fs = (requests.map (answer path bugs), fs) :=
    file.run_askAll fun r _ => ask_of_load hload r
  refine ⟨fun requests hreads => ?_, hrun⟩
  have hmemory : (MemoryTracker.tracker.askAll requests).run t =
      (requests.map (answer path bugs), t) :=
    Tracker.run_askAll _ fun r hr => ht.ask hids (hreads r hr)
  rw [hrun, hmemory]

theorem answers_like_memory_answer :
    let bugs : List Bug := [{ id := 3, status := "NEW" }, { id := 7, components := ["Node"] }]
    let fs : Files := .ofList [("bugs.json", (Bug.answer bugs).compact.toUTF8)]
    let file : Tracker (StateM Files) := tracker get "bugs.json"
    (∃ v, Contains fs "bugs.json" v ∧ Dump v bugs) ∧ bugs.Pairwise (·.id < ·.id) ∧
      Mirrors (.ofBugs bugs) bugs ∧
      ∀ requests, (file.askAll requests).run fs = (requests.map (answer "bugs.json" bugs), fs) := by
  intro bugs fs file
  have hids : bugs.Pairwise (·.id < ·.id) := by decide
  have hscores : ∀ b ∈ bugs, Bug.ScoreReadsBack b.reportedScore := by
    simp [bugs, Bug.ScoreReadsBack.none]
  have hplace : Files.place? "bugs.json" = some "bugs.json" := by decide +kernel
  obtain ⟨v, hv, hdump⟩ := exists_dump (.inr rfl) hscores (Files.readText_ofList hplace _)
  have hmemory : Mirrors (.ofBugs bugs) bugs := mirrors_setBugs hids rfl
  exact ⟨⟨v, hv, hdump⟩, hids, hmemory, (answers_like_memory hv hdump hids hmemory).2⟩

end FileTracker

end Triage
