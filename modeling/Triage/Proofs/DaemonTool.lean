import Mathlib.Data.List.TakeWhile
import Triage.DaemonTool
import Triage.Proofs.Reconciler.Loops
import Triage.Proofs.Text

/-!
# Starting the daemon

The words of the command line give three intervals, each of them any number of
seconds from one up to what 64 bits hold; what is accepted passes the check of the
reconciler. The clock does not reach that far: the daemon breaks off at its start
exactly when the directory or the bugs would first be refreshed past its end.
-/

namespace Triage

-- ---------------------------------------------------------------------------
-- Words
-- ---------------------------------------------------------------------------

namespace CommandLine

def Given.withOption (g : Given) (name value : String) : Given :=
  { g with options := g.options ++ [(name, value)] }

theorem Given.has_withOption (g : Given) (name value other : String) :
    (g.withOption name value).has other = (g.has other || name == other) := by
  simp [withOption, has]

namespace Grammar

section Words

variable {g : Grammar} {given : Given} {o : Opt} {word value : String} {rest : List String}

theorem add_text {name : String} (h : given.has name = false) :
    add { name := name, takes := .text } value given = .ok (given.withOption name value) := by
  simp [add, h, Given.withOption]

theorem read_value (hvalue : value.toList.head? ≠ some '-') :
    g.read given (some o) (value :: rest) = (add o value given).bind (g.read · none rest) := by
  rw [read]
  split
  · rename_i h
    simp [h] at hvalue
  · rename_i h
    simp [h] at hvalue
  · rename_i h
    simp [h] at hvalue
  · rfl

theorem long_plain {name : List Char} (hplain : '=' ∉ name)
    (ho : g.ofName? (String.ofList name) = some o) (htakes : o.takes ≠ .nothing) :
    g.long given name = .ok (given, some o) := by
  have hkeep : ∀ c ∈ name, decide (c ≠ '=') = true := fun c hc =>
    decide_eq_true fun heq => hplain (heq ▸ hc)
  have htake : name.takeWhile (· ≠ '=') = name := List.takeWhile_eq_self_iff.mpr hkeep
  have hdrop : name.dropWhile (· ≠ '=') = [] := List.dropWhile_eq_nil_iff.mpr hkeep
  simp only [long, htake, hdrop, ho, if_neg htakes]

theorem read_long_value {name : List Char} (hword : word.toList = '-' :: '-' :: name)
    (hname : name ≠ []) (hplain : '=' ∉ name) (ho : g.ofName? (String.ofList name) = some o)
    (htakes : o.takes ≠ .nothing) (hvalue : value.toList.head? ≠ some '-') :
    g.read given none (word :: value :: rest) =
      (add o value given).bind (g.read · none rest) := by
  obtain ⟨c, name, rfl⟩ := List.exists_cons_of_ne_nil hname
  have hread : g.read given none (word :: value :: rest) =
      (g.long given (c :: name)).bind fun p => g.read p.1 p.2 (value :: rest) := by
    rw [read, hword]
    rfl
  rw [hread, long_plain hplain ho htakes]
  exact read_value hvalue

end Words

end Grammar

end CommandLine

namespace DaemonTool

open CommandLine Http

-- ---------------------------------------------------------------------------
-- Arguments
-- ---------------------------------------------------------------------------

namespace Arguments

/-- Each interval is a number of seconds that 64 bits hold, and not zero. -/
structure InRange (a : Arguments) : Prop where
  directory : 1 ≤ a.directory ∧ a.directory ≤ Word.greatest64
  bugs : 1 ≤ a.bugs ∧ a.bugs ≤ Word.greatest64
  results : 1 ≤ a.results ∧ a.results ≤ Word.greatest64

def intervalNames : List String := ["directory-interval", "bugs-interval", "results-interval"]

def secondsText (n : Nat) : String := String.ofList (Text.digits n)

def optionWords (e : String × Nat) : List String := ["--" ++ e.1, secondsText e.2]

def words (a : Arguments) : List String :=
  [("directory-interval", a.directory), ("bugs-interval", a.bugs),
    ("results-interval", a.results)].flatMap optionWords

section Intervals

variable {text : String} {g : Given} {name : String} {n default : Nat}

theorem seconds?_eq_some_iff :
    seconds? text = some n ↔ Text.unsigned? Word.greatest64 text.toList = some n ∧ 1 ≤ n := by
  simp [seconds?, Option.filter_eq_some_iff]

theorem seconds?_secondsText (h : 1 ≤ n ∧ n ≤ Word.greatest64) :
    seconds? (secondsText n) = some n := by
  rw [seconds?_eq_some_iff, secondsText, String.toList_ofList]
  exact ⟨Text.unsigned?_eq_some_iff.mpr ⟨_, .inl rfl, Text.spells_digits n, h.2⟩, h.1⟩

theorem interval_of_values (hvalues : g.values name = [secondsText n])
    (hn : 1 ≤ n ∧ n ≤ Word.greatest64) : interval g name default = .ok n := by
  simp only [interval, hvalues, List.head?_cons, seconds?_secondsText hn, Option.elim_some]

theorem interval_in_range (hdefault : 1 ≤ default ∧ default ≤ Word.greatest64)
    (h : interval g name default = .ok n) : 1 ≤ n ∧ n ≤ Word.greatest64 := by
  rw [interval] at h
  split at h
  · cases h
    exact hdefault
  · rename_i text _
    cases hseconds : seconds? text with
    | none =>
      rw [hseconds] at h
      cases h
    | some m =>
      rw [hseconds] at h
      cases h
      obtain ⟨hunsigned, hone⟩ := seconds?_eq_some_iff.mp hseconds
      obtain ⟨_, -, -, hle⟩ := Text.unsigned?_eq_some_iff.mp hunsigned
      exact ⟨hone, hle⟩

end Intervals

section Words

variable {words : List String} {env : Environment} {a : Arguments}

theorem inRange_of_ofWords (h : ofWords words env = .ok a) : a.InRange := by
  simp only [ofWords, bind, Except.bind] at h
  split at h
  · cases h
  split at h
  · cases h
  split at h
  · cases h
  rename_i directory hdirectory
  split at h
  · cases h
  rename_i bugs hbugs
  split at h
  · cases h
  rename_i results hresults
  cases h
  exact {
    directory := interval_in_range (by decide) hdirectory
    bugs := interval_in_range (by decide) hbugs
    results := interval_in_range (by decide) hresults }

theorem head?_secondsText_ne_hyphen (n : Nat) : (secondsText n).toList.head? ≠ some '-' := by
  rw [secondsText, String.toList_ofList]
  intro h
  exact Text.not_mem_digits (by decide) n (List.mem_of_mem_head? h)

theorem intervalNames_spec : ∀ name ∈ intervalNames,
    grammar.ofName? name = some { name := name, takes := .text } ∧
      name.toList ≠ [] ∧ '=' ∉ name.toList := by
  decide +kernel

theorem read_optionWords {l : List (String × Nat)} (hl : (l.map (·.1)).Nodup)
    (hnames : ∀ e ∈ l, e.1 ∈ intervalNames) (g : Given) (hnew : ∀ e ∈ l, g.has e.1 = false) :
    grammar.read g none (l.flatMap optionWords) =
      .ok (l.foldl (fun g e => g.withOption e.1 (secondsText e.2)) g) := by
  induction l generalizing g with
  | nil => simp [Grammar.read]
  | cons e rest ih =>
    obtain ⟨ho, hname, hplain⟩ := intervalNames_spec e.1 (hnames e List.mem_cons_self)
    obtain ⟨hfirst, hrest⟩ := List.nodup_cons.mp hl
    have hadd : Grammar.add { name := e.1, takes := .text } (secondsText e.2) g =
        .ok (g.withOption e.1 (secondsText e.2)) := Grammar.add_text (hnew e List.mem_cons_self)
    have hnew' : ∀ e' ∈ rest, (g.withOption e.1 (secondsText e.2)).has e'.1 = false := by
      intro e' he'
      have hne : e.1 ≠ e'.1 := fun heq => hfirst (List.mem_map.mpr ⟨e', he', heq.symm⟩)
      simp [Given.has_withOption, hnew e' (List.mem_cons_of_mem _ he'), hne]
    have hwords : (e :: rest).flatMap optionWords =
        ("--" ++ e.1) :: secondsText e.2 :: rest.flatMap optionWords := rfl
    rw [hwords, Grammar.read_long_value (String.toList_append ..) hname hplain
      (by rwa [String.ofList_toList]) (by simp) (head?_secondsText_ne_hyphen e.2), hadd]
    exact ih hrest (fun e' he' => hnames e' (List.mem_cons_of_mem _ he')) _ hnew'

theorem checkVariables_of_output {env : Environment}
    (henv : env.get? "TRIAGE_SLO_OUTPUT" ≠ some "") (g : Given) :
    grammar.checkVariables env g = .ok () := by
  have hvalue (o : Opt) (ho : o.envName = some "TRIAGE_SLO_OUTPUT") :
      Grammar.fromVariable? env g o ≠ some "" := by
    rw [Grammar.fromVariable?, ho]
    split
    · nofun
    · exact henv
  simp [Grammar.checkVariables, grammar, hvalue]

def givenIntervals (a : Arguments) : Given :=
  (((({} : Given).withOption "directory-interval" (secondsText a.directory)).withOption
    "bugs-interval" (secondsText a.bugs)).withOption "results-interval" (secondsText a.results))

theorem ofWords_words (h : a.InRange) (henv : env.get? "TRIAGE_SLO_OUTPUT" ≠ some "") :
    ofWords a.words env = .ok {
      directory := a.directory
      bugs := a.bugs
      results := a.results
      output := env.get? "TRIAGE_SLO_OUTPUT" } := by
  have hread : grammar.read {} none a.words = .ok a.givenIntervals :=
    read_optionWords (by simp) (by simp [intervalNames]) {} (by simp [Given.has])
  have hdirectory : interval a.givenIntervals "directory-interval" 300 = .ok a.directory :=
    interval_of_values rfl h.directory
  have hbugs : interval a.givenIntervals "bugs-interval" 300 = .ok a.bugs :=
    interval_of_values rfl h.bugs
  have hresults : interval a.givenIntervals "results-interval" 600 = .ok a.results :=
    interval_of_values rfl h.results
  simp only [ofWords, hread, bind, Except.bind, checkVariables_of_output henv, hdirectory, hbugs,
    hresults]
  rfl

end Words

-- ---------------------------------------------------------------------------
-- The start
-- ---------------------------------------------------------------------------

/-- The directory or the bugs would first be refreshed past the end of the clock. -/
def TooLong (a : Arguments) (now : Nat) : Prop :=
  Loops.endOfClock ≤ now + max a.directory a.bugs * 1000

section Start

variable {a : Arguments} {now : Nat}

theorem InRange.validate (h : a.InRange) : a.intervals.validate = .ok () := by
  have hnonzero (field : String) {n : Nat} (hn : 1 ≤ n) :
      Intervals.nonZero field (n * 1000) = .ok () :=
    Intervals.nonZero_eq_ok_iff.mpr (Nat.mul_pos hn (by decide))
  simp only [Intervals.validate, intervals, Intervals.ofSeconds, hnonzero _ h.directory.1,
    hnonzero _ h.bugs.1, hnonzero _ h.results.1]
  rfl

theorem startOn?_eq_none_iff {clockEnd : Nat} :
    Loops.startOn? clockEnd a.intervals now = none ↔
      clockEnd ≤ now + max a.directory a.bugs * 1000 := by
  rw [Loops.startOn?_eq_none_iff]
  constructor
  · rintro ⟨kind, h⟩
    refine h.trans ?_
    cases kind with
    | directory => exact Nat.add_le_add_left (Nat.mul_le_mul_right _ (Nat.le_max_left ..)) now
    | bugs => exact Nat.add_le_add_left (Nat.mul_le_mul_right _ (Nat.le_max_right ..)) now
    | results => exact Nat.le_add_right ..
  · intro h
    obtain hle | hle := Nat.le_total a.directory a.bugs
    · rw [Nat.max_eq_right hle] at h
      exact ⟨.bugs, h⟩
    · rw [Nat.max_eq_left hle] at h
      exact ⟨.directory, h⟩

theorem start?_eq_none_iff : Loops.start? a.intervals now = none ↔ a.TooLong now := by
  rw [TooLong, ← startOn?_eq_none_iff, Loops.start?]

theorem daemonStart?_eq_none_iff (r : Reconciler) (files : Files) (output : Option String) :
    Daemon.start? r a.intervals now files output = none ↔ a.TooLong now := by
  rw [Daemon.start?, Option.map_eq_none_iff, start?_eq_none_iff]

end Start

end Arguments

-- ---------------------------------------------------------------------------
-- Runs
-- ---------------------------------------------------------------------------

section Runs

variable {a : Arguments} {s : Sources NetM} {files : Files} {stamp : String}
variable {interruptAfter : Option String} {limit : Nat} (server : Server) (log : List Event)

theorem outcome_ne_crash (d : Daemon) : outcome d ≠ .crash := by
  rw [outcome]
  split <;> nofun

def serveLoaded (a : Arguments) (s : Sources NetM) (files : Files) (stamp : String)
    (interruptAfter : Option String) (limit : Nat) : SourceResult Reconciler → NetM (Outcome × Files)
  | .error e => pure (.failure "" (.source (some "Initial load failed") e), files)
  | .ok r =>
    match Daemon.start? r a.intervals startOfRun files a.output with
    | none => pure (.crash, files)
    | some d => do
      let d ← serve s stamp interruptAfter limit d
      pure (outcome d, d.files)

theorem runArguments_eq (ha : a.InRange) :
    runArguments a s files stamp interruptAfter limit =
      Reconciler.bootstrap s BugQuery.openBugs >>=
        serveLoaded a s files stamp interruptAfter limit := by
  rw [runArguments]
  refine congrArg (_ >>= ·) (funext fun answer => ?_)
  cases answer with
  | error e => rfl
  | ok r =>
    simp only [ha.validate]
    rfl

theorem serveLoaded_eq_crash_iff (answer : SourceResult Reconciler) :
    (((serveLoaded a s files stamp interruptAfter limit answer).run server).run log).1.1 = .crash ↔
      (∃ r, answer = .ok r) ∧ a.TooLong startOfRun := by
  cases answer with
  | error e =>
    constructor
    · nofun
    · rintro ⟨⟨r, h⟩, -⟩
      cases h
  | ok r =>
    rw [← Arguments.daemonStart?_eq_none_iff r files a.output, serveLoaded]
    cases hstart : Daemon.start? r a.intervals startOfRun files a.output with
    | none => exact ⟨fun _ => ⟨⟨r, rfl⟩, rfl⟩, fun _ => rfl⟩
    | some d =>
      constructor
      · intro h
        exact absurd h (outcome_ne_crash _)
      · rintro ⟨-, h⟩
        cases h

theorem runArguments_eq_crash_iff (ha : a.InRange) :
    (((runArguments a s files stamp interruptAfter limit).run server).run log).1.1 = .crash ↔
      (∃ r, (((Reconciler.bootstrap s BugQuery.openBugs).run server).run log).1 = .ok r) ∧
        a.TooLong startOfRun := by
  rw [runArguments_eq ha]
  exact serveLoaded_eq_crash_iff _ _ _

theorem run_eq_crash_iff (words : List String) (env : Environment) (rounds : Nat) :
    (((run words env files rounds limit stamp interruptAfter).run server).run log).1.1 = .crash ↔
      ∃ a s r, Arguments.ofWords words env = .ok a ∧ sources files rounds env = .ok s ∧
        (((Reconciler.bootstrap s BugQuery.openBugs).run server).run log).1 = .ok r ∧
        a.TooLong startOfRun := by
  rw [run]
  cases hwords : Arguments.ofWords words env with
  | error stop =>
    constructor
    · intro h
      cases stop <;> cases h
    · rintro ⟨a, s, r, hok, -⟩
      cases hok
  | ok a =>
    cases hsources : sources files rounds env with
    | error cause =>
      constructor
      · nofun
      · rintro ⟨a, s, r, -, hok, -⟩
        cases hok
    | ok s =>
      refine (runArguments_eq_crash_iff server log (Arguments.inRange_of_ofWords hwords)).trans ?_
      constructor
      · rintro ⟨⟨r, hboot⟩, hlong⟩
        exact ⟨a, s, r, rfl, rfl, hboot, hlong⟩
      · rintro ⟨a, s, r, ⟨⟩, ⟨⟩, hboot, hlong⟩
        exact ⟨⟨r, hboot⟩, hlong⟩

end Runs

/-- Any three numbers of seconds that 64 bits hold, none of them zero, are accepted as
intervals, and all that are accepted pass the check of the reconciler. Nevertheless the loops,
and with them the daemon, break off at their start exactly when the longer interval of the
directory and the bugs goes past the end of the clock. A run of the program breaks off in
this case only, once the directory and the bugs are loaded. -/
theorem starts_unless_too_long (words : List String) (env : Environment) (files : Files)
    (rounds limit : Nat) (stamp : String) (interruptAfter : Option String) (server : Server)
    (log : List Event) :
    (∀ a : Arguments, a.InRange → env.get? "TRIAGE_SLO_OUTPUT" ≠ some "" →
      ∃ a', Arguments.ofWords a.words env = .ok a' ∧ a'.intervals = a.intervals) ∧
    (∀ a, Arguments.ofWords words env = .ok a →
      a.InRange ∧ a.intervals.validate = .ok () ∧
      ∀ now, (Loops.start? a.intervals now = none ↔ a.TooLong now) ∧
        ∀ r, Daemon.start? r a.intervals now files a.output = none ↔ a.TooLong now) ∧
    ((((run words env files rounds limit stamp interruptAfter).run server).run log).1.1 = .crash ↔
      ∃ a s r, Arguments.ofWords words env = .ok a ∧ sources files rounds env = .ok s ∧
        (((Reconciler.bootstrap s BugQuery.openBugs).run server).run log).1 = .ok r ∧
        a.TooLong startOfRun) := by
  refine ⟨fun a ha henv => ⟨_, Arguments.ofWords_words ha henv, rfl⟩, fun a hwords => ?_,
    run_eq_crash_iff server log words env rounds⟩
  have ha := Arguments.inRange_of_ofWords hwords
  exact ⟨ha, ha.validate, fun now => ⟨Arguments.start?_eq_none_iff,
    fun r => Arguments.daemonStart?_eq_none_iff r files a.output⟩⟩

/-- The longest interval of the directory is accepted, and no clock reaches that far. -/
theorem start_longest :
    ∃ a, Arguments.ofWords ["--directory-interval", "18446744073709551615"] [] = .ok a ∧
      a.intervals.validate = .ok () ∧ ∀ now, Loops.start? a.intervals now = none ∧
        ∀ r files, Daemon.start? r a.intervals now files a.output = none := by
  let a : Arguments := { directory := 18446744073709551615 }
  have hwords : Arguments.ofWords ["--directory-interval", "18446744073709551615"] [] = .ok a := by
    decide +kernel
  have hlong (now : Nat) : a.TooLong now := Nat.le_add_left_of_le (by decide)
  exact ⟨a, hwords, by decide, fun now => ⟨Arguments.start?_eq_none_iff.mpr (hlong now),
    fun r files => (Arguments.daemonStart?_eq_none_iff r files a.output).mpr (hlong now)⟩⟩

end DaemonTool

end Triage
