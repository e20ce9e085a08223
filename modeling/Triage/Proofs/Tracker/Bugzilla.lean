import Triage.Proofs.Bug
import Triage.Tracker.Bugzilla

/-!
# Searches are complete

A search asks for page after page until one is short or empty. Against a server
that gives the bugs from an offset on, a limited number at a time (`Serves`), it
ends and gives every bug once and in order. Against any server it gives all that
it was sent or, if a request fails, that failure (`Outcome`).
-/

namespace Triage.Bugzilla

open Http

-- ---------------------------------------------------------------------------
-- One request
-- ---------------------------------------------------------------------------

def sendable (c : Bugzilla) : Bool := (c.pageRequest [] 0 0).isValid

def reading (server : Server) (history : List Request) : SourceResult (List Bug) :=
  (received (server history)).bind readBugs

/-- What comes of each of some requests, made after those in `before`. -/
def readings (server : Server) (before : List Request) :
    List Request → List (SourceResult (List Bug))
  | [] => []
  | r :: rest => reading server (before ++ [r]) :: readings server (before ++ [r]) rest

def nextLimit (limit : Nat) (bugs : List Bug) : Nat := if limit = 0 then bugs.length else limit

theorem requests_append_sent (log : List Event) (made : List Request) :
    requests (log ++ made.map .sent) = requests log ++ made := by
  rw [requests, List.filterMap_append, List.filterMap_map]
  congr 1
  exact List.filterMap_some

section Pages

variable {c : Bugzilla} {params : List (String × String)} {server : Server} {log : List Event}
variable {rounds limit offset : Nat} {before : List Bug}

theorem run_page (hc : c.sendable = true) :
    ((c.page params limit offset).run server).run log =
      (reading server (requests log ++ [c.pageRequest params limit offset]),
        log ++ [.sent (c.pageRequest params limit offset)]) := by
  have hvalid : (c.pageRequest params limit offset).isValid = true := hc
  have hlog := requests_append_sent log [c.pageRequest params limit offset]
  rw [List.map_singleton] at hlog
  rw [page, send, hvalid, reading, ← hlog]
  rfl

theorem run_page_of_not_sendable (hc : c.sendable = false) :
    ((c.page params limit offset).run server).run log = (.error .http, log) := by
  have hvalid : (c.pageRequest params limit offset).isValid = false := hc
  rw [page, send, hvalid]
  rfl

theorem run_pages_succ :
    ((c.pages params (rounds + 1) limit offset before).run server).run log =
      match ((c.page params limit offset).run server).run log with
      | (.error e, log) => (some (.error e), log)
      | (.ok bugs, log) =>
        if bugs.isEmpty then (some (.ok before), log)
        else if bugs.length < nextLimit limit bugs then (some (.ok (before ++ bugs)), log)
        else ((c.pages params rounds (nextLimit limit bugs) (offset + nextLimit limit bugs)
          (before ++ bugs)).run server).run log := by
  rw [pages]
  generalize hp : ((c.page params limit offset).run server).run log = answer
  obtain ⟨answer, after⟩ := answer
  simp only [ReaderT.run_bind, StateT.run_bind, hp]
  cases answer with
  | error e => rfl
  | ok bugs =>
    dsimp only [bind]
    rw [nextLimit]
    generalize (if limit = 0 then bugs.length else limit) = next
    split
    · rfl
    · split <;> rfl

-- ---------------------------------------------------------------------------
-- Any server
-- ---------------------------------------------------------------------------

/-- How what comes of a search follows from what came of its requests: all were
answered, or the last one failed. -/
inductive Outcome (before : List Bug) :
    List (SourceResult (List Bug)) → Option (SourceResult (List Bug)) → Prop
  | unfinished (read : List (List Bug)) : Outcome before (read.map .ok) none
  | complete (read : List (List Bug)) :
      Outcome before (read.map .ok) (some (.ok (before ++ read.flatten)))
  | failed (read : List (List Bug)) (e : SourceError) :
      Outcome before (read.map .ok ++ [.error e]) (some (.error e))

namespace Outcome

variable {bugs : List Bug} {answers : List (SourceResult (List Bug))}
variable {result : Option (SourceResult (List Bug))} {e : SourceError}

theorem cons (h : Outcome (before ++ bugs) answers result) :
    Outcome before (.ok bugs :: answers) result := by
  cases h with
  | unfinished read => exact unfinished (bugs :: read)
  | complete read =>
    rw [List.append_assoc]
    exact complete (bugs :: read)
  | failed read e => exact failed (bugs :: read) e

theorem eq_error_of_mem (h : Outcome before answers result) (he : .error e ∈ answers) :
    result = some (.error e) := by
  cases h with
  | unfinished read => simp at he
  | complete read => simp at he
  | failed read e' =>
    obtain rfl : e = e' := by simpa using he
    rfl

theorem error_mem (h : Outcome before answers (some (.error e))) : .error e ∈ answers := by
  cases h with
  | failed read e => exact List.mem_append_right _ (List.mem_singleton_self _)

theorem exists_read (h : Outcome before answers (some (.ok bugs))) :
    ∃ read : List (List Bug), answers = read.map .ok ∧ bugs = before ++ read.flatten := by
  cases h with
  | complete read => exact ⟨read, rfl, rfl⟩

end Outcome

theorem run_pages_outcome (hc : c.sendable = true) (params : List (String × String))
    (server : Server) (log : List Event) (rounds limit offset : Nat) (before : List Bug) :
    ∃ made : List Request,
      (((c.pages params rounds limit offset before).run server).run log).2
        = log ++ made.map .sent ∧
      Outcome before (readings server (requests log) made)
        (((c.pages params rounds limit offset before).run server).run log).1 := by
  induction rounds generalizing limit offset before log with
  | zero => exact ⟨[], (List.append_nil log).symm, .unfinished []⟩
  | succ rounds ih =>
    rw [run_pages_succ, run_page hc]
    generalize hr : c.pageRequest params limit offset = request
    have hlog : requests (log ++ [.sent request]) = requests log ++ [request] :=
      requests_append_sent log [request]
    generalize ha : reading server (requests log ++ [request]) = answer
    have hone : readings server (requests log) [request] = [answer] := by rw [readings, ha]; rfl
    cases answer with
    | error e => exact ⟨[request], rfl, hone ▸ .failed [] e⟩
    | ok bugs =>
      have hlast : Outcome before [.ok bugs] (some (.ok (before ++ bugs))) := by
        simpa using (Outcome.complete [bugs] : Outcome before _ _)
      dsimp only
      split_ifs with hempty hshort
      · obtain rfl := List.isEmpty_iff.mp hempty
        rw [List.append_nil] at hlast
        exact ⟨[request], rfl, hone ▸ hlast⟩
      · exact ⟨[request], rfl, hone ▸ hlast⟩
      · obtain ⟨made, hevents, houtcome⟩ := ih (log ++ [.sent request]) (nextLimit limit bugs)
          (offset + nextLimit limit bugs) (before ++ bugs)
        refine ⟨request :: made, by rw [hevents, List.append_assoc]; rfl, ?_⟩
        rw [readings, ha, ← hlog]
        exact houtcome.cons

theorem run_pages_of_not_sendable (hc : c.sendable = false) :
    ((c.pages params (rounds + 1) limit offset before).run server).run log =
      (some (.error .http), log) := by
  rw [run_pages_succ, run_page_of_not_sendable hc]

-- ---------------------------------------------------------------------------
-- Servers that give every bug
-- ---------------------------------------------------------------------------

/-- The bugs from the offset on, at most as many as the limit, if there is one, and
never more than `size`. -/
def slice (size : Nat) (bugs : List Bug) (limit offset : Nat) : List Bug :=
  (bugs.drop offset).take (if limit = 0 then size else min limit size)

/-- The server has some bugs for a search, and gives a slice of them in answer to
every request that does not fail. -/
def Serves (c : Bugzilla) (params : List (String × String)) (size : Nat) (bugs : List Bug)
    (server : Server) : Prop :=
  ∀ history limit offset page,
    reading server (history ++ [c.pageRequest params limit offset]) = .ok page →
      page = slice size bugs limit offset

variable {size : Nat} {bugs : List Bug}

/-- Once the limit is settled; the invariant is that what was read before are the
bugs up to the offset. -/
theorem run_pages_of_serves (hc : c.sendable = true) (hserves : Serves c params size bugs server)
    (hpos : 0 < limit) (hsize : limit ≤ size) (hoffset : offset ≤ bugs.length)
    (hrounds : bugs.length < offset + rounds * limit) :
    ∃ result, (((c.pages params rounds limit offset (bugs.take offset)).run server).run log).1 =
      some result ∧ ∀ all, result = .ok all → all = bugs := by
  induction rounds generalizing offset log with
  | zero => omega
  | succ rounds ih =>
    rw [run_pages_succ, run_page hc]
    cases ha : reading server (requests log ++ [c.pageRequest params limit offset]) with
    | error e => exact ⟨.error e, rfl, nofun⟩
    | ok page =>
      have hpage := hserves _ _ _ _ ha
      rw [slice, if_neg hpos.ne', Nat.min_eq_left hsize] at hpage
      subst hpage
      have hlimit (page : List Bug) : nextLimit limit page = limit := if_neg hpos.ne'
      dsimp only
      rw [hlimit]
      split_ifs with hempty hshort
      · -- Nothing is left behind the offset.
        have hdrop : bugs.drop offset = [] := by simpa [hpos.ne'] using hempty
        rw [List.take_of_length_le (List.drop_eq_nil_iff.mp hdrop)]
        exact ⟨.ok bugs, rfl, fun _ h => (Except.ok.inj h).symm⟩
      · -- The short page is all that is left.
        rw [List.length_take, List.length_drop] at hshort
        have hall : (bugs.drop offset).take limit = bugs.drop offset :=
          List.take_of_length_le (by rw [List.length_drop]; omega)
        rw [hall, List.take_append_drop]
        exact ⟨.ok bugs, rfl, fun _ h => (Except.ok.inj h).symm⟩
      · rw [List.length_take, List.length_drop] at hshort
        rw [← List.take_add]
        refine ih (by omega) ?_
        rw [Nat.succ_mul] at hrounds
        omega

theorem run_pages_of_serves_first (log : List Event) (hc : c.sendable = true)
    (hserves : Serves c params size bugs server) (hsize : 0 < size)
    (hrounds : bugs.length / size + 2 ≤ rounds) :
    ∃ result, (((c.pages params rounds 0 0 []).run server).run log).1 = some result ∧
      ∀ all, result = .ok all → all = bugs := by
  obtain ⟨rounds, rfl⟩ := Nat.exists_eq_add_of_le' (Nat.le_of_add_left_le hrounds)
  have hrest : bugs.length / size ≤ rounds := Nat.le_of_add_le_add_right hrounds
  rw [run_pages_succ, run_page hc]
  cases ha : reading server (requests log ++ [c.pageRequest params 0 0]) with
  | error e => exact ⟨.error e, rfl, nofun⟩
  | ok page =>
    have hpage := hserves _ _ _ _ ha
    rw [slice, if_pos rfl, List.drop_zero] at hpage
    subst hpage
    dsimp only
    rw [List.nil_append, nextLimit, if_pos rfl, if_neg (lt_irrefl _), Nat.zero_add]
    split_ifs with hempty
    · have hnil : bugs = [] := by simpa [hsize.ne'] using hempty
      exact ⟨.ok [], rfl, fun _ h => hnil ▸ (Except.ok.inj h).symm⟩
    · -- The limit is now the number of bugs in the first page.
      obtain ⟨limit, hlimit⟩ : ∃ limit, limit = min size bugs.length := ⟨_, rfl⟩
      have hpage : bugs.take size = bugs.take limit := by
        rw [hlimit, ← List.take_take, List.take_length]
      have hpos : 0 < bugs.length := List.length_pos_iff.mpr fun h => by simp [h] at hempty
      rw [List.length_take, ← hlimit, hpage]
      refine run_pages_of_serves hc hserves (by omega) (by omega) (by omega) ?_
      rcases Nat.lt_or_ge size bugs.length with hmore | hall
      · have hfull : limit = size := by omega
        have hdiv := Nat.lt_mul_div_succ bugs.length hsize
        have hmul : size * (bugs.length / size + 1) ≤ (rounds + 1) * size := by
          rw [Nat.mul_comm]
          exact Nat.mul_le_mul_right size (Nat.succ_le_succ hrest)
        rw [hfull]
        omega
      · rw [Nat.succ_mul]
        omega

end Pages

-- ---------------------------------------------------------------------------
-- A list of bugs as a server
-- ---------------------------------------------------------------------------

def parameter (key : String) (r : Request) : Nat :=
  ((r.query.reverse.lookup key).bind fun value => Text.natural? value.toList).getD 0

/-- The server that answers from a list of bugs, at most `size` at a time. -/
def listing (size : Nat) (bugs : List Bug) : Server := fun history =>
  history.getLast?.map fun r =>
    { status := 200
      body := (Bug.answer (slice size bugs (parameter "limit" r) (parameter "offset" r))).compact }

section Listing

variable {c : Bugzilla} {params : List (String × String)} {size : Nat} {bugs : List Bug}

theorem parameter_limit (limit offset : Nat) :
    parameter "limit" (c.pageRequest params limit offset) = limit := by
  simp [parameter, pageRequest, number, Text.natural?_digits, List.lookup_cons]

theorem parameter_offset (limit offset : Nat) :
    parameter "offset" (c.pageRequest params limit offset) = offset := by
  simp [parameter, pageRequest, number, Text.natural?_digits]

theorem readBugs_answer (hscores : ∀ b ∈ bugs, Bug.ScoreReadsBack b.reportedScore) :
    readBugs { status := 200, body := (Bug.answer bugs).compact } = .ok bugs := by
  have hstores : Json.Stores Json.deepest Bug.recordOfJson? (Bug.answer bugs) bugs :=
    Bug.stores_answer (n := 122) hscores
  have hread : (Json.read? (Bug.answer bugs).compact).bind Bug.recordOfJson? = some bugs := by
    rw [hstores.legible.read?_compact]
    exact hstores.read_eq
  have hsuccess (body : String) : Service.bugzilla.success { status := 200, body := body } =
      .ok { status := 200, body := body } := rfl
  rw [readBugs, hsuccess]
  simp only [Except.bind, Response.record, hread]
  rfl

theorem reading_listing (hscores : ∀ b ∈ bugs, Bug.ScoreReadsBack b.reportedScore)
    (history : List Request) (r : Request) :
    reading (listing size bugs) (history ++ [r]) =
      .ok (slice size bugs (parameter "limit" r) (parameter "offset" r)) := by
  simp only [reading, listing, List.getLast?_concat, Option.map_some, received, Except.bind]
  exact readBugs_answer fun b hb => hscores b (List.mem_of_mem_drop (List.mem_of_mem_take hb))

theorem serves_listing (hscores : ∀ b ∈ bugs, Bug.ScoreReadsBack b.reportedScore) :
    Serves c params size bugs (listing size bugs) := by
  intro history limit offset page hpage
  rw [reading_listing hscores, parameter_limit, parameter_offset] at hpage
  exact (Except.ok.inj hpage).symm

theorem error_notMem_readings_listing (hscores : ∀ b ∈ bugs, Bug.ScoreReadsBack b.reportedScore)
    (before made : List Request) (e : SourceError) :
    .error e ∉ readings (listing size bugs) before made := by
  induction made generalizing before with
  | nil => exact List.not_mem_nil
  | cons r rest ih =>
    rw [readings, reading_listing hscores, List.mem_cons, not_or]
    exact ⟨nofun, ih _⟩

end Listing

-- ---------------------------------------------------------------------------
-- Searches
-- ---------------------------------------------------------------------------

theorem run_search? (c : Bugzilla) (rounds : Nat) (q : BugQuery) (server : Server)
    (log : List Event) :
    ((c.search? rounds q).run server).run log =
      ((((c.pages q.toParams rounds 0 0 []).run server).run log).1.map (·.map BugSet.mk),
        (((c.pages q.toParams rounds 0 0 []).run server).run log).2) := rfl

/-- A search that can send its requests gives the bugs that the server has, each once
and in order, when none of its requests fails, and after enough rounds. On any
server it gives the failure of any of its requests, and otherwise all that it was
sent. -/
theorem search?_complete_or_failed (c : Bugzilla) (q : BugQuery) (server : Server)
    (log : List Event) (rounds : Nat) :
    let answer := ((c.search? rounds q).run server).run log
    (c.sendable = true → ∃ made : List Request,
      answer.2 = log ++ made.map .sent ∧
      (∀ size bugs, 0 < size → Serves c q.toParams size bugs server →
        bugs.length / size + 2 ≤ rounds →
        (∀ e, .error e ∉ readings server (requests log) made) →
          answer.1 = some (.ok ⟨bugs⟩)) ∧
      (∀ e, .error e ∈ readings server (requests log) made → answer.1 = some (.error e)) ∧
      ∀ found, answer.1 = some (.ok found) → ∃ read : List (List Bug),
        readings server (requests log) made = read.map .ok ∧ found.bugs = read.flatten) ∧
    (c.sendable = false → 0 < rounds → answer = (some (.error .http), log)) := by
  intro answer
  have hanswer : answer = _ := run_search? c rounds q server log
  refine ⟨fun hc => ?_, fun hc hrounds => ?_⟩
  · obtain ⟨made, hevents, houtcome⟩ := run_pages_outcome hc q.toParams server log rounds 0 0 []
    refine ⟨made, hevents, fun size bugs hsize hserves hrounds hnone => ?_, fun e he => ?_,
      fun found hfound => ?_⟩
    · obtain ⟨result, hresult, hall⟩ := run_pages_of_serves_first log hc hserves hsize hrounds
      rw [hresult] at houtcome
      cases result with
      | error e => exact absurd houtcome.error_mem (hnone e)
      | ok all =>
        rw [hanswer, hresult, hall all rfl]
        rfl
    · rw [hanswer, houtcome.eq_error_of_mem he]
      rfl
    · rw [hanswer] at hfound
      obtain ⟨result, hresult, hmap⟩ := Option.map_eq_some_iff.mp hfound
      rw [hresult] at houtcome
      cases result with
      | error e => cases hmap
      | ok all =>
        obtain ⟨read, hread, rfl⟩ := houtcome.exists_read
        obtain rfl : BugSet.mk ([] ++ read.flatten) = found := Except.ok.inj hmap
        exact ⟨read, hread, rfl⟩
  · obtain ⟨rounds, rfl⟩ := Nat.exists_eq_add_of_le' hrounds
    rw [hanswer, run_pages_of_not_sendable hc]
    rfl

/-- Four bugs in pages of two: the search ends with an empty page. -/
theorem search?_listing_four :
    let c : Bugzilla := ⟨TrackerSettings.defaultEndpoint, none⟩
    let bugs : List Bug := [{ id := 1 }, { id := 2 }, { id := 3 }, { id := 4 }]
    c.sendable = true ∧ Serves c (BugQuery.toParams {}) 2 bugs (listing 2 bugs) ∧
      (((c.search? 4 {}).run (listing 2 bugs)).run []).1 = some (.ok ⟨bugs⟩) := by
  intro c bugs
  have hscores : ∀ b ∈ bugs, Bug.ScoreReadsBack b.reportedScore := by
    simp only [bugs, List.forall_mem_cons]
    exact ⟨.none, .none, .none, .none, nofun⟩
  have hc : c.sendable = true := by decide
  have hserves : Serves c (BugQuery.toParams {}) 2 bugs (listing 2 bugs) := serves_listing hscores
  obtain ⟨made, -, hcomplete, -⟩ := (search?_complete_or_failed c {} (listing 2 bugs) [] 4).1 hc
  exact ⟨hc, hserves, hcomplete 2 bugs (by decide) hserves (by decide)
    fun e => error_notMem_readings_listing hscores _ made e⟩

end Triage.Bugzilla
