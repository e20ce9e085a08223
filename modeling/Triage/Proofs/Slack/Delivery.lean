import Triage.Proofs.Slack.Calls

/-!
# Delivery outside debug mode

A message to a channel is one call. A message to a person is three of them: the
person is looked up, a conversation with the user of that reply is opened, and
the text is posted to the channel of the next. Whatever fails on the way is the
last thing that happens, and no more than one request to post is answered
otherwise than with 429.
-/

namespace Triage.Slack

open Http

/-- A call by a request of which `P` holds: its result, and what was sent and waited for. -/
def CallOf (P : Request → Prop) (result : SourceResult Reply) (t : List Exchange) : Prop :=
  ∃ r, P r ∧ Attempt r result t

def LookedUp (c : Slack) (email user : String) (t : List Exchange) : Prop :=
  ∃ reply, CallOf (LooksUp c email) (.ok reply) t ∧ reply.user = some user

def Opened (c : Slack) (user channel : String) (t : List Exchange) : Prop :=
  ∃ reply, CallOf (Opens c user) (.ok reply) t ∧ reply.channel = some channel

/-- What becomes of a message: its result, and all that was sent and waited for. -/
inductive Delivery (c : Slack) : Message → SourceResult Unit → List Exchange → Prop
  | channel {name text result t} (h : CallOf (Posts c name text) result t) :
      Delivery c ⟨.channel name, text⟩ (result.map fun _ => ()) t
  | debug {text result t} (h : CallOf (Posts c c.debugChannel text) result t) :
      Delivery c ⟨.debug, text⟩ (result.map fun _ => ()) t
  | lookupFailed {email text e t} (h : CallOf (LooksUp c email) (.error e) t) :
      Delivery c ⟨.person email, text⟩ (.error e) t
  | noUser {email text reply t} (h : CallOf (LooksUp c email) (.ok reply) t)
      (huser : reply.user = none) :
      Delivery c ⟨.person email, text⟩ (.error (.chat ("no user for " ++ c.chatEmail email))) t
  | openFailed {email text user e t t'} (h : LookedUp c email user t)
      (h' : CallOf (Opens c user) (.error e) t') :
      Delivery c ⟨.person email, text⟩ (.error e) (t ++ t')
  | noChannel {email text user reply t t'} (h : LookedUp c email user t)
      (h' : CallOf (Opens c user) (.ok reply) t') (hchannel : reply.channel = none) :
      Delivery c ⟨.person email, text⟩
        (.error (.chat ("no IM channel for " ++ c.chatEmail email))) (t ++ t')
  | posted {email text user channel result t t' t''} (h : LookedUp c email user t)
      (h' : Opened c user channel t') (h'' : CallOf (Posts c channel text) result t'') :
      Delivery c ⟨.person email, text⟩ (result.map fun _ => ()) (t ++ (t' ++ t''))

theorem runs_callOf {P : Request → Prop} {r : Request} (h : P r) : Runs (CallOf P) (call r) :=
  (runs_call r).imp fun _ _ hcall => ⟨r, h, hcall⟩

theorem runs_post (c : Slack) (channel text : String) :
    Runs (fun done t => ∃ result, CallOf (Posts c channel text) result t ∧
      done = result.map fun _ => ()) (c.post channel text) := by
  refine (runs_callOf (posts_postRequest c channel text)).bind fun result =>
    runs_pure fun t h => ?_
  exact ⟨result, by rwa [List.append_nil], rfl⟩

theorem runs_messagePerson {c : Slack} (hdebug : c.debug = false) (email text : String) :
    Runs (Delivery c ⟨.person email, text⟩) (c.messagePerson email text) := by
  simp only [messagePerson, hdebug]
  refine (runs_callOf (looksUp_lookupRequest c email)).bind fun looked => ?_
  cases looked with
  | error e => exact runs_pure fun t h => (List.append_nil t).symm ▸ .lookupFailed h
  | ok reply =>
    cases huser : reply.user with
    | none =>
      simp only [huser]
      exact runs_pure fun t h => (List.append_nil t).symm ▸ .noUser h huser
    | some user =>
      simp only [huser]
      refine (runs_callOf (opens_openRequest c user)).bind fun opened => ?_
      cases opened with
      | error e =>
        exact runs_pure fun t' h' t h =>
          (List.append_nil t').symm ▸ .openFailed ⟨reply, h, huser⟩ h'
      | ok reply' =>
        cases hchannel : reply'.channel with
        | none =>
          simp only [hchannel]
          exact runs_pure fun t' h' t h =>
            (List.append_nil t').symm ▸ .noChannel ⟨reply, h, huser⟩ h' hchannel
        | some channel =>
          simp only [hchannel]
          refine (runs_post c channel text).imp ?_
          rintro _ t'' ⟨result, h'', rfl⟩ t' h' t h
          exact .posted ⟨reply, h, huser⟩ ⟨reply', h', hchannel⟩ h''

theorem runs_notifier {c : Slack} (hdebug : c.debug = false) (m : Message) :
    Runs (Delivery c m) (c.notifier m) := by
  obtain ⟨recipient, text⟩ := m
  cases recipient with
  | channel name =>
    simp only [notifier, messageChannel, hdebug]
    refine (runs_post c name text).imp ?_
    rintro _ t ⟨result, h, rfl⟩
    exact .channel h
  | person email => exact runs_messagePerson hdebug email text
  | debug =>
    refine (runs_post c c.debugChannel text).imp ?_
    rintro _ t ⟨result, h, rfl⟩
    exact .debug h

-- ---------------------------------------------------------------------------
-- Failures
-- ---------------------------------------------------------------------------

inductive Lacks (c : Slack) (m : Message) (r : Request) (reply : Reply) : SourceError → Prop
  | user {email} (hm : m.recipient = .person email)
      (hr : r.url = c.apiUrl ++ "/users.lookupByEmail") (huser : reply.user = none) :
      Lacks c m r reply (.chat ("no user for " ++ c.chatEmail email))
  | channel {email} (hm : m.recipient = .person email)
      (hr : r.url = c.apiUrl ++ "/conversations.open") (hchannel : reply.channel = none) :
      Lacks c m r reply (.chat ("no IM channel for " ++ c.chatEmail email))

/-- An answer other than 429 with which a message fails. -/
inductive Fails (c : Slack) (m : Message) (r : Request) (answer : Option Response) :
    SourceError → Prop
  | outcome {e} (h : Outcome answer (.error e)) : Fails c m r answer e
  | lacks {reply e} (h : Outcome answer (.ok reply)) (hlacks : Lacks c m r reply e) :
      Fails c m r answer e

/-- Nothing comes after an answer that fails the message, and the message fails by it. -/
def Ends (c : Slack) (m : Message) (done : SourceResult Unit) (t : List Exchange) : Prop :=
  ∀ before r answer later e, t = before ++ .answered r answer :: later →
    Fails c m r answer e → later = [] ∧ done = .error e

section Failures

variable {c : Slack} {m : Message} {r r' : Request} {P : Request → Prop} {reply : Reply}
  {e : SourceError} {result : SourceResult Reply} {done : SourceResult Unit}
  {answer : Option Response} {before later t t' : List Exchange}
  {email user channel text : String}

theorem not_lacks_post (hr : Posts c channel text r) : ¬ Lacks c m r reply e := by
  rintro (⟨-, hurl, -⟩ | ⟨-, hurl, -⟩) <;> simp [hr.url] at hurl

theorem Lacks.of_lookup (h : Lacks c ⟨.person email, text⟩ r reply e) (hr : LooksUp c email r) :
    reply.user = none ∧ e = .chat ("no user for " ++ c.chatEmail email) := by
  cases h with
  | user hm _ huser =>
    cases hm
    exact ⟨huser, rfl⟩
  | channel _ hurl _ => simp [hr.url] at hurl

theorem Lacks.of_open (h : Lacks c ⟨.person email, text⟩ r reply e) (hr : Opens c user r) :
    reply.channel = none ∧ e = .chat ("no IM channel for " ++ c.chatEmail email) := by
  cases h with
  | user _ hurl _ => simp [hr.url] at hurl
  | channel hm _ hchannel =>
    cases hm
    exact ⟨hchannel, rfl⟩

theorem Attempt.fails (h : Attempt r result t) (ht : t = before ++ .answered r' answer :: later)
    (hfails : Fails c m r' answer e) :
    later = [] ∧ (result = .error e ∨ ∃ reply, result = .ok reply ∧ Lacks c m r reply e) := by
  obtain ⟨rfl, -⟩ := h.answer_cases ht
  cases hfails with
  | outcome hanswer =>
    obtain ⟨hlater, rfl⟩ := h.ends ht hanswer
    exact ⟨hlater, .inl rfl⟩
  | lacks hanswer hlacks =>
    obtain ⟨hlater, rfl⟩ := h.ends ht hanswer
    exact ⟨hlater, .inr ⟨_, rfl, hlacks⟩⟩

theorem Ends.of_error (h : CallOf P (.error e) t) : Ends c m (.error e) t := by
  obtain ⟨r, -, h⟩ := h
  intro before r' answer later e' ht hfails
  obtain ⟨hlater, he | ⟨reply, hreply, -⟩⟩ := h.fails ht hfails
  · exact ⟨hlater, by rw [Except.error.inj he]⟩
  · cases hreply

theorem Ends.of_ok (h : CallOf P (.ok reply) t)
    (hdone : ∀ r e, P r → Lacks c m r reply e → done = .error e) : Ends c m done t := by
  obtain ⟨r, hr, h⟩ := h
  intro before r' answer later e ht hfails
  obtain ⟨hlater, he | ⟨_, ⟨⟩, hlacks⟩⟩ := h.fails ht hfails
  · cases he
  · exact ⟨hlater, hdone r e hr hlacks⟩

theorem Ends.of_post (h : CallOf (Posts c channel text) result t) :
    Ends c m (result.map fun _ => ()) t := by
  cases result with
  | error e => exact .of_error h
  | ok reply => exact .of_ok h fun r e hr hlacks => absurd hlacks (not_lacks_post hr)

theorem Ends.after (hends : Ends c m done t') (h : CallOf P (.ok reply) t)
    (hlacks : ∀ r e, P r → ¬ Lacks c m r reply e) : Ends c m done (t ++ t') := by
  obtain ⟨r, hr, h⟩ := h
  intro before r' answer later e ht hfails
  obtain ⟨mid, ht, -⟩ | ⟨mid, -, ht'⟩ := append_eq_append_cons_iff.mp ht
  · obtain ⟨-, he | ⟨_, ⟨⟩, hmissing⟩⟩ := h.fails ht hfails
    · cases he
    · exact absurd hmissing (hlacks r e hr)
  · exact hends mid r' answer later e ht' hfails

theorem LookedUp.ends (h : LookedUp c email user t) (hends : Ends c ⟨.person email, text⟩ done t') :
    Ends c ⟨.person email, text⟩ done (t ++ t') := by
  obtain ⟨reply, h, huser⟩ := h
  refine hends.after h fun r e hr hlacks => ?_
  simpa [huser] using (hlacks.of_lookup hr).1

theorem Opened.ends (h : Opened c user channel t) (hends : Ends c ⟨.person email, text⟩ done t') :
    Ends c ⟨.person email, text⟩ done (t ++ t') := by
  obtain ⟨reply, h, hchannel⟩ := h
  refine hends.after h fun r e hr hlacks => ?_
  simpa [hchannel] using (hlacks.of_open hr).1

theorem Delivery.ends (h : Delivery c m done t) : Ends c m done t := by
  cases h with
  | channel h => exact .of_post h
  | debug h => exact .of_post h
  | lookupFailed h => exact .of_error h
  | noUser h huser => exact .of_ok h fun r e hr hlacks => by rw [(hlacks.of_lookup hr).2]
  | openFailed h h' => exact h.ends (.of_error h')
  | noChannel h h' hchannel =>
    exact h.ends (.of_ok h' fun r e hr hlacks => by rw [(hlacks.of_open hr).2])
  | posted h h' h'' => exact h.ends (h'.ends (.of_post h''))

/-- The calls that a message makes go to different addresses, and it ends as rate limited
exactly when they do. -/
theorem Delivery.calls (h : Delivery c m done t) : ∃ rs result, Calls rs result t ∧
    (rs.map (·.url)).Nodup ∧
    ∀ n, done = .error (.rateLimited n) ↔ result = .error (.rateLimited n) := by
  have hposted (result : SourceResult Reply) (n : Nat) :
      result.map (fun _ => ()) = .error (.rateLimited n) ↔ result = .error (.rateLimited n) := by
    cases result <;> simp [Except.map]
  cases h with
  | channel h | debug h =>
    obtain ⟨r, -, h⟩ := h
    exact ⟨_, _, .last h, by simp, hposted _⟩
  | lookupFailed h | noUser h =>
    obtain ⟨r, -, h⟩ := h
    exact ⟨_, _, .last h, by simp, fun n => by simp⟩
  | openFailed h h' | noChannel h h' =>
    obtain ⟨reply, ⟨r, hr, h⟩, -⟩ := h
    obtain ⟨r', hr', h'⟩ := h'
    exact ⟨_, _, .next h (.last h'), by simp [hr.url, hr'.url], fun n => by simp⟩
  | posted h h' h'' =>
    obtain ⟨reply, ⟨r, hr, h⟩, -⟩ := h
    obtain ⟨reply', ⟨r', hr', h'⟩, -⟩ := h'
    obtain ⟨r'', hr'', h''⟩ := h''
    exact ⟨_, _, .next h (.next h' (.last h'')), by simp [hr.url, hr'.url, hr''.url], hposted _⟩

end Failures

-- ---------------------------------------------------------------------------
-- Every message
-- ---------------------------------------------------------------------------

/-- Whatever the service answers, a message makes the calls that `Delivery` says. No request
is made more than twice, and twice only after a 429 and the wait it asks for; when
the second answer is 429 too, the message ends as rate limited with the wait of that one. Any
other failure ends it as well. So no address, and in particular no post, gets more than one
answer other than 429. -/
theorem notifier_delivers {c : Slack} (hdebug : c.debug = false) (m : Message)
    (server : Server) (log : List Event) :
    let done := ((c.notifier m).run server).run log
    ∃ made, done.2 = log ++ made ∧
      let t := transcript server (requests log) made
      Delivery c m done.1 t ∧ RetriesOnce t ∧ (∀ a, Delay a (waitOf a)) ∧
      (∀ url, (answers url t).length ≤ 2 ∧
        ((answers url t).filter fun a => a.map (·.status) ≠ some 429).length ≤ 1) ∧
      (∀ n, done.1 = .error (.rateLimited n) ↔ ∃ url, LimitedTwice url t n) ∧
      Ends c m done.1 t := by
  intro done
  obtain ⟨made, hlog, h⟩ := runs_notifier hdebug m server log
  refine ⟨made, hlog, ?_⟩
  intro t
  obtain ⟨rs, result, hcalls, hurls, hresult⟩ := h.calls
  have hretries := hcalls.retriesOnce hurls
  exact ⟨h, hretries, delay_waitOf, hretries.length_answers_le,
    fun n => (hresult n).trans (hcalls.rateLimited_iff hurls), h.ends⟩

/-- Limits the first look-up and both posts. -/
def crowded : Server := fun history =>
  some <| match history.length with
    | 2 => { status := 200, body := "\x7b\"ok\":true,\"user\":\x7b\"id\":\"U7\"\x7d\x7d" }
    | 3 => { status := 200, body := "\x7b\"ok\":true,\"channel\":\x7b\"id\":\"D7\"\x7d\x7d" }
    | _ => { status := 429, headers := [("retry-after", " 30 ")] }

theorem notifier_delivers_crowded :
    let aliases := SortedMap.empty.insert "ann@example.org" "ann@chat.example.org"
    let c : Slack := ⟨"https://chat.example.org/api", "xoxb", false, "#quiet", aliases⟩
    let m : Message := ⟨.person "ann@example.org", "reminder"⟩
    let headers := [("User-Agent", "triage-sources/0.3.1"), ("Authorization", "Bearer xoxb")]
    let lookup : Request := {
      method := .get, url := "https://chat.example.org/api/users.lookupByEmail", headers
      query := [("email", "ann@chat.example.org")] }
    let opening : Request := {
      method := .post, url := "https://chat.example.org/api/conversations.open", headers
      body := "\x7b\"users\":\"U7\"\x7d" }
    let posting : Request := {
      method := .post, url := "https://chat.example.org/api/chat.postMessage", headers
      body := "\x7b\"channel\":\"D7\",\"text\":\"reminder\"\x7d" }
    let made : List Event :=
      [.sent lookup, .waited 30, .sent lookup, .sent opening, .sent posting, .waited 30,
        .sent posting]
    let t := transcript crowded [] made
    c.debug = false ∧ run crowded (c.notifier m) = (.error (.rateLimited 30), made) ∧
      Delivery c m (.error (.rateLimited 30)) t ∧ RetriesOnce t ∧
      Ends c m (.error (.rateLimited 30)) t := by
  intro aliases c m headers lookup opening posting made t
  have hrun : run crowded (c.notifier m) = (.error (.rateLimited 30), made) := by decide +kernel
  have h := notifier_delivers (c := c) rfl m crowded []
  rw [← run, hrun] at h
  obtain ⟨made', hmade, h⟩ := h
  obtain rfl : made' = made := hmade.symm
  obtain ⟨hdelivery, hretries, -, -, -, hends⟩ := h
  exact ⟨rfl, hrun, hdelivery, hretries, hends⟩

end Triage.Slack
