import Triage.Proofs.Http.Transcript
import Triage.Proofs.Slack.Requests
import Triage.Proofs.Text

/-!
# Calls of the service

A call is one request, or the same request twice with a wait between when the
first is answered with 429 (`Attempt`). Of calls to different addresses, made
one after another for as long as they succeed, the same can be said address by
address: `RetriesOnce`, and `Calls.rateLimited_iff`.
-/

namespace Triage.Slack

open Http

-- ---------------------------------------------------------------------------
-- Answers
-- ---------------------------------------------------------------------------

/-- The answer gives a number of seconds: digits, with a plus before them or not, that
make a number of 64 bits. -/
def Gives (a : Response) (seconds : Nat) : Prop :=
  ∃ value digits, a.headerText? "Retry-After" = some value ∧
    (Text.trim value.toList = digits ∨ Text.trim value.toList = '+' :: digits) ∧
    Text.Spells digits seconds ∧ seconds ≤ Word.greatest64

inductive Delay (a : Response) : Nat → Prop
  | given {seconds} (h : Gives a seconds) : Delay a seconds
  | missing (h : ∀ seconds, ¬ Gives a seconds) : Delay a 1

theorem delay_waitOf (a : Response) : Delay a (waitOf a) := by
  have hgives (seconds : Nat) : ((a.headerText? "Retry-After").bind fun value =>
      Text.unsigned? Word.greatest64 (Text.trim value.toList)) = some seconds ↔
        Gives a seconds := by
    simp only [Option.bind_eq_some_iff, Text.unsigned?_eq_some_iff, Gives]
    exact ⟨fun ⟨value, hvalue, digits, h⟩ => ⟨value, digits, hvalue, h⟩,
      fun ⟨value, digits, hvalue, h⟩ => ⟨value, hvalue, digits, h⟩⟩
  rw [waitOf]
  cases hread : (a.headerText? "Retry-After").bind fun value =>
      Text.unsigned? Word.greatest64 (Text.trim value.toList) with
  | none =>
    refine .missing fun seconds h => ?_
    rw [← hgives, hread] at h
    cases h
  | some seconds => exact .given ((hgives seconds).mp hread)

/-- What a call comes to by an answer other than 429. -/
inductive Outcome : Option Response → SourceResult Reply → Prop
  | unreached : Outcome none (.error .http)
  | refused {a : Response} (hstatus : a.status ≠ 429) (h : a.isSuccess = false) :
      Outcome (some a) (.error (.unsuccessful .slack a.status a.body))
  | unreadable {a : Response} (h : a.isSuccess = true)
      (hbody : (Json.read? a.body).bind Reply.ofJson? = none) : Outcome (some a) (.error .http)
  | failed {a : Response} {reply : Reply} (h : a.isSuccess = true)
      (hbody : (Json.read? a.body).bind Reply.ofJson? = some reply) (hok : reply.ok = false) :
      Outcome (some a) (.error (.chat (reply.error.getD "unknown error")))
  | succeeded {a : Response} {reply : Reply} (h : a.isSuccess = true)
      (hbody : (Json.read? a.body).bind Reply.ofJson? = some reply) (hok : reply.ok = true) :
      Outcome (some a) (.ok reply)

section Outcome

variable {a : Response} {answer : Option Response} {result result' : SourceResult Reply} {n : Nat}

theorem Outcome.status_ne (h : Outcome (some a) result) : a.status ≠ 429 := by
  have hsuccess : a.isSuccess = true → a.status ≠ 429 := by
    simp only [Response.isSuccess, Bool.and_eq_true, decide_eq_true_eq]
    omega
  cases h with
  | refused hstatus _ => exact hstatus
  | unreadable h _ => exact hsuccess h
  | failed h _ _ => exact hsuccess h
  | succeeded h _ _ => exact hsuccess h

theorem Outcome.unique (h : Outcome answer result) (h' : Outcome answer result') :
    result = result' := by
  cases h <;> cases h' <;> simp_all

theorem Outcome.ne_rateLimited (h : Outcome answer result) : result ≠ .error (.rateLimited n) := by
  cases h <;> simp

theorem readAnswer_cases (answer : Option Response) :
    (∃ a, answer = some a ∧ a.status = 429 ∧ readAnswer answer = .ok (.inr (waitOf a))) ∨
    (∃ e, Outcome answer (.error e) ∧ readAnswer answer = .error e) ∨
    ∃ reply, Outcome answer reply.success ∧ readAnswer answer = .ok (.inl reply) := by
  cases answer with
  | none => exact .inr (.inl ⟨.http, .unreached, rfl⟩)
  | some a =>
    by_cases hstatus : a.status = 429
    · exact .inl ⟨a, rfl, hstatus, if_pos hstatus⟩
    have hread : readAnswer (some a) = Service.slack.success a >>= fun r =>
        r.record Reply.ofJson? >>= fun reply => .ok (.inl reply) := if_neg hstatus
    rw [hread, Service.success]
    cases hsuccess : a.isSuccess with
    | false => exact .inr (.inl ⟨_, .refused hstatus hsuccess, rfl⟩)
    | true =>
      cases hbody : (Json.read? a.body).bind Reply.ofJson? with
      | none => exact .inr (.inl ⟨_, .unreadable hsuccess hbody, by
          simp [Response.record, hbody, bind, Except.bind]⟩)
      | some reply =>
        refine .inr (.inr ⟨reply, ?_, by simp [Response.record, hbody, bind, Except.bind]⟩)
        rw [Reply.success]
        cases hok : reply.ok with
        | false => exact .failed hsuccess hbody hok
        | true => exact .succeeded hsuccess hbody hok

end Outcome

-- ---------------------------------------------------------------------------
-- One call
-- ---------------------------------------------------------------------------

inductive Settles : Option Response → SourceResult Reply → Prop
  | outcome {answer result} (h : Outcome answer result) : Settles answer result
  | limited {a : Response} (h : a.status = 429) :
      Settles (some a) (.error (.rateLimited (waitOf a)))

/-- A call with its result. -/
inductive Attempt (r : Request) : SourceResult Reply → List Exchange → Prop
  | unsendable (h : r.isValid = false) : Attempt r (.error .http) []
  | once {answer result} (h : Outcome answer result) : Attempt r result [.answered r answer]
  | again {first second result} (hfirst : first.status = 429) (h : Settles second result) :
      Attempt r result
        [.answered r (some first), .waited (waitOf first), .answered r second]

/-- Both requests to an address were answered with 429, the second one with this wait. -/
def LimitedTwice (url : String) (t : List Exchange) (seconds : Nat) : Prop :=
  ∃ first second : Response, answers url t = [some first, some second] ∧
    first.status = 429 ∧ second.status = 429 ∧ seconds = waitOf second

def settle : SourceResult (Reply ⊕ Nat) → SourceResult Reply
  | .error e => .error e
  | .ok (.inl reply) => reply.success
  | .ok (.inr seconds) => .error (.rateLimited seconds)

def proceed (r : Request) : SourceResult (Reply ⊕ Nat) → NetM (SourceResult Reply)
  | .ok (.inr seconds) => do
    wait seconds
    return settle (readAnswer (← send r))
  | answer => return settle answer

theorem call_eq (r : Request) :
    call r = send r >>= fun answer => proceed r (readAnswer answer) := by
  have hsettled (answer : SourceResult (Reply ⊕ Nat)) : (match answer with
      | .error e => pure (.error e)
      | .ok (.inl reply) => pure reply.success
      | .ok (.inr seconds) => pure (.error (.rateLimited seconds)) :
        NetM (SourceResult Reply)) = pure (settle answer) := by
    rcases answer with e | reply | seconds <;> rfl
  refine bind_congr fun answer => ?_
  rcases readAnswer answer with e | reply | seconds
  · rfl
  · rfl
  · exact bind_congr fun _ => bind_congr fun second => hsettled (readAnswer second)

theorem settles (answer : Option Response) : Settles answer (settle (readAnswer answer)) := by
  obtain ⟨a, rfl, hstatus, hread⟩ | ⟨e, h, hread⟩ | ⟨reply, h, hread⟩ := readAnswer_cases answer
  · rw [hread]
    exact .limited hstatus
  · rw [hread]
    exact .outcome h
  · rw [hread]
    exact .outcome h

theorem runs_call (r : Request) : Runs (Attempt r) (call r) := by
  rw [call_eq]
  refine (runs_send r).bind fun answer => ?_
  have hsettled {result : SourceResult Reply} (h : Outcome answer result) :
      Runs (fun b t' => ∀ t, Sends r answer t → Attempt r b (t ++ t')) (pure result) := by
    refine runs_pure fun t hsent => ?_
    cases hsent with
    | unsendable hvalid =>
      cases h
      exact .unsendable hvalid
    | answered => exact .once h
  obtain ⟨first, rfl, hfirst, hread⟩ | ⟨e, h, hread⟩ | ⟨reply, h, hread⟩ :=
    readAnswer_cases answer
  · rw [hread]
    refine (runs_wait (waitOf first)).bind fun _ => (runs_send r).bind fun second => runs_pure ?_
    rintro t hsecond _ rfl t' hsent
    -- There was an answer, so the request can be sent, and the second time as well.
    cases hsent with
    | answered hvalid =>
      cases hsecond with
      | unsendable hinvalid => simp [hvalid] at hinvalid
      | answered => exact .again hfirst (settles second)
  · rw [hread]
    exact hsettled h
  · rw [hread]
    exact hsettled h

namespace Attempt

variable {r r' : Request} {result outcome : SourceResult Reply} {t before later : List Exchange}
  {answer : Option Response} {url : String} {n : Nat}

theorem answers_of_ne (h : Attempt r result t) (hurl : r.url ≠ url) : answers url t = [] := by
  cases h <;> simp [hurl]

/-- The places that an answer can have in a call. -/
theorem answer_cases (h : Attempt r result t) (ht : t = before ++ .answered r' answer :: later) :
    r' = r ∧ ((before = [] ∧ later = [] ∧ Outcome answer result) ∨
      (∃ first second, answer = some first ∧ first.status = 429 ∧ before = [] ∧
        later = [.waited (waitOf first), .answered r second]) ∨
      ∃ first, before = [.answered r (some first), .waited (waitOf first)] ∧ later = [] ∧
        Settles answer result) := by
  cases h with
  | unsendable => simp at ht
  | @once only _ h =>
    have hplace : before = [] ∧ (r' = r ∧ answer = only) ∧ later = [] := by
      simpa [List.cons_eq_append_iff] using ht
    obtain ⟨hbefore, ⟨rfl, rfl⟩, hlater⟩ := hplace
    exact ⟨rfl, .inl ⟨hbefore, hlater, h⟩⟩
  | @again first second _ hfirst h =>
    have hplaces :
        (before = [] ∧ (r' = r ∧ answer = some first) ∧
          later = [.waited (waitOf first), .answered r second]) ∨
        (before = [.answered r (some first), .waited (waitOf first)] ∧
          (r' = r ∧ answer = second) ∧ later = []) := by
      simpa [List.cons_eq_append_iff] using ht
    obtain ⟨hbefore, ⟨rfl, rfl⟩, hlater⟩ | ⟨hbefore, ⟨rfl, rfl⟩, hlater⟩ := hplaces
    · exact ⟨rfl, .inr (.inl ⟨first, second, rfl, hfirst, hbefore, hlater⟩)⟩
    · exact ⟨rfl, .inr (.inr ⟨first, hbefore, hlater, h⟩)⟩

theorem ends (h : Attempt r result t) (ht : t = before ++ .answered r' answer :: later)
    (hanswer : Outcome answer outcome) : later = [] ∧ outcome = result := by
  obtain ⟨rfl, ⟨-, hlater, h⟩ | ⟨first, second, rfl, hfirst, -⟩ | ⟨first, -, hlater, h⟩⟩ :=
    h.answer_cases ht
  · exact ⟨hlater, hanswer.unique h⟩
  · exact absurd hfirst hanswer.status_ne
  · cases h with
    | outcome h => exact ⟨hlater, hanswer.unique h⟩
    | limited hstatus => exact absurd hstatus hanswer.status_ne

theorem rateLimited_iff (h : Attempt r result t) :
    result = .error (.rateLimited n) ↔ LimitedTwice r.url t n := by
  cases h with
  | unsendable => simp [LimitedTwice]
  | once h => simp [LimitedTwice, h.ne_rateLimited]
  | again hfirst h =>
    cases h with
    | outcome h =>
      refine iff_of_false h.ne_rateLimited ?_
      rintro ⟨first, second, hanswers, -, hsecond, -⟩
      simp only [answers_answered, answers_waited, answers_nil, if_true, List.cons.injEq,
        and_true] at hanswers
      exact (hanswers.2 ▸ h).status_ne hsecond
    | limited hsecond => simp [LimitedTwice, hfirst, hsecond, eq_comm]

end Attempt

-- ---------------------------------------------------------------------------
-- Retries
-- ---------------------------------------------------------------------------

inductive Followed (r : Request) : Option Response → List Exchange → Prop
  | settled {answer later} (h : ∀ a, answer = some a → a.status ≠ 429)
      (hlater : answers r.url later = []) : Followed r answer later
  | limited {first second later} (h : first.status = 429) (hlater : answers r.url later = []) :
      Followed r (some first) (.waited (waitOf first) :: .answered r second :: later)

/-- A request is made a second time exactly when the first answer was 429, and after the wait
that it asks for; there is no third time. -/
def RetriesOnce (t : List Exchange) : Prop :=
  ∀ before r answer later, t = before ++ .answered r answer :: later →
    answers r.url before = [] → Followed r answer later

section Retries

variable {r : Request} {result : SourceResult Reply} {t t' later : List Exchange}
  {answer : Option Response} {url : String}

theorem Followed.append (h : Followed r answer later) (hrest : answers r.url t' = []) :
    Followed r answer (later ++ t') := by
  cases h with
  | settled h hlater => exact .settled h (by simp [hlater, hrest])
  | limited h hlater => exact .limited h (by simp [hlater, hrest])

theorem RetriesOnce.append (h : RetriesOnce t) (h' : RetriesOnce t')
    (hapart : ∀ r answer, .answered r answer ∈ t → answers r.url t' = []) :
    RetriesOnce (t ++ t') := by
  intro before r answer later ht hbefore
  obtain ⟨mid, rfl, rfl⟩ | ⟨mid, rfl, rfl⟩ := append_eq_append_cons_iff.mp ht
  · exact (h before r answer mid rfl hbefore).append (hapart r answer (by simp))
  · rw [answers_append, List.append_eq_nil_iff] at hbefore
    exact h' mid r answer later rfl hbefore.2

theorem Attempt.retriesOnce (h : Attempt r result t) : RetriesOnce t := by
  intro before r' answer later ht hbefore
  obtain ⟨rfl, ⟨-, rfl, h⟩ | ⟨first, second, rfl, hfirst, -, rfl⟩ | ⟨first, rfl, -⟩⟩ :=
    h.answer_cases ht
  · exact .settled (fun a ha => (ha ▸ h).status_ne) rfl
  · exact .limited hfirst rfl
  · simp at hbefore

theorem exists_first (h : answers url t ≠ []) : ∃ before r answer later,
    t = before ++ .answered r answer :: later ∧ r.url = url ∧ answers url before = [] := by
  induction t with
  | nil => simp at h
  | cons e t ih =>
    have hcons (he : answers url [e] = []) (ht : answers url t ≠ []) : ∃ before r answer later,
        e :: t = before ++ .answered r answer :: later ∧ r.url = url ∧ answers url before = [] := by
      obtain ⟨before, r, answer, later, rfl, hurl, hbefore⟩ := ih ht
      refine ⟨e :: before, r, answer, later, rfl, hurl, ?_⟩
      rw [← List.singleton_append, answers_append, he, hbefore, List.append_nil]
    cases e with
    | answered r answer =>
      by_cases hurl : r.url = url
      · exact ⟨[], r, answer, t, rfl, hurl, rfl⟩
      · exact hcons (by simp [hurl]) (by simpa [hurl] using h)
    | waited seconds => exact hcons rfl h

theorem RetriesOnce.answers_cases (h : RetriesOnce t) (url : String) :
    answers url t = [] ∨ (∃ answer, answers url t = [answer]) ∨
      ∃ first second, answers url t = [some first, second] ∧ first.status = 429 := by
  by_cases hnil : answers url t = []
  · exact .inl hnil
  obtain ⟨before, r, answer, later, rfl, rfl, hbefore⟩ := exists_first hnil
  have hfollowed := h before r answer later rfl hbefore
  cases hfollowed with
  | settled _ hlater => exact .inr (.inl ⟨answer, by simp [hbefore, hlater]⟩)
  | @limited first second _ hfirst hlater =>
    exact .inr (.inr ⟨first, second, by simp [hbefore, hlater], hfirst⟩)

theorem RetriesOnce.length_answers_le (h : RetriesOnce t) (url : String) :
    (answers url t).length ≤ 2 ∧
      ((answers url t).filter fun a => a.map (·.status) ≠ some 429).length ≤ 1 := by
  obtain hnil | ⟨answer, hone⟩ | ⟨first, second, htwo, hfirst⟩ := h.answers_cases url
  · simp [hnil]
  · rw [hone]
    exact ⟨by simp, List.length_filter_le _ _⟩
  · rw [htwo, List.filter_cons_of_neg (by simp [hfirst])]
    exact ⟨by simp, List.length_filter_le _ _⟩

end Retries

-- ---------------------------------------------------------------------------
-- Calls one after another
-- ---------------------------------------------------------------------------

/-- Calls made in order, each but the last with success. -/
inductive Calls : List Request → SourceResult Reply → List Exchange → Prop
  | last {r result t} (h : Attempt r result t) : Calls [r] result t
  | next {r reply t rs result t'} (h : Attempt r (.ok reply) t) (hrest : Calls rs result t') :
      Calls (r :: rs) result (t ++ t')

namespace Calls

variable {rs : List Request} {result : SourceResult Reply} {t : List Exchange} {url : String}
  {n : Nat}

theorem answers_eq_nil (h : Calls rs result t) (hurl : url ∉ rs.map (·.url)) :
    answers url t = [] := by
  induction h with
  | last h => exact h.answers_of_ne fun hr => hurl (by simp [hr])
  | next h _ ih =>
    rw [List.map_cons, List.mem_cons, not_or] at hurl
    rw [answers_append, h.answers_of_ne (Ne.symm hurl.1), ih hurl.2, List.append_nil]

theorem retriesOnce (h : Calls rs result t) (hrs : (rs.map (·.url)).Nodup) : RetriesOnce t := by
  induction h with
  | last h => exact h.retriesOnce
  | next h hrest ih =>
    rw [List.map_cons, List.nodup_cons] at hrs
    refine h.retriesOnce.append (ih hrs.2) fun r answer hmem => ?_
    obtain ⟨before, later, ht⟩ := List.append_of_mem hmem
    rw [(h.answer_cases ht).1]
    exact hrest.answers_eq_nil hrs.1

theorem rateLimited_iff (h : Calls rs result t) (hrs : (rs.map (·.url)).Nodup) :
    result = .error (.rateLimited n) ↔ ∃ url, LimitedTwice url t n := by
  induction h with
  | @last r result t h =>
    rw [h.rateLimited_iff]
    constructor
    · exact fun hlimited => ⟨r.url, hlimited⟩
    · rintro ⟨url, hlimited⟩
      by_cases hurl : r.url = url
      · exact hurl ▸ hlimited
      · simp [LimitedTwice, h.answers_of_ne hurl] at hlimited
  | @next r reply t rs result t' h hrest ih =>
    rw [List.map_cons, List.nodup_cons] at hrs
    rw [ih hrs.2]
    refine exists_congr fun url => ?_
    by_cases hurl : r.url = url
    · -- The first call succeeded, so it was not limited twice.
      have hfirst : ¬ LimitedTwice r.url t n := by simp [← h.rateLimited_iff]
      rw [← hurl, LimitedTwice, LimitedTwice, answers_append, hrest.answers_eq_nil hrs.1,
        List.append_nil]
      simpa [LimitedTwice] using hfirst
    · rw [LimitedTwice, LimitedTwice, answers_append, h.answers_of_ne hurl, List.nil_append]

end Calls

end Triage.Slack
