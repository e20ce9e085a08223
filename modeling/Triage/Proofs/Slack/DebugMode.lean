import Triage.Notification
import Triage.Proofs.Http
import Triage.Proofs.Slack.Requests

/-!
# Debug mode reaches nobody

In debug mode every message becomes one to the debug channel (`notifier_eq`), and
a message there costs one request, or the same one twice when the service asks to
wait. So whatever is sent, and whatever the service answers, each request of a run
posts to the debug channel.
-/

namespace Triage

open Http

-- ---------------------------------------------------------------------------
-- Runs
-- ---------------------------------------------------------------------------

namespace Notification

variable {n : Notifier NetM} {P : Request → Prop} (hn : ∀ m, Only P (n m))
include hn

theorem only_attempt (sent : Nat) (message : Message) : Only P (attempt n sent message) := by
  refine (hn message).bind fun answer => ?_
  cases answer <;> exact only_pure _

theorem only_remind (links : BugLinker) (release : String) (sent : Nat)
    (assigned : String × List Bug) : Only P (remind n links release sent assigned) := by
  rw [remind]
  cases reminder? links release assigned.1 assigned.2 with
  | none => exact only_pure sent
  | some message => exact only_attempt hn sent message

theorem only_report (map : BugMap) (links : BugLinker) (release : String) (p : Progress)
    (t : Team) : Only P (report n map links release p t) := by
  rw [report]
  cases isReported map t with
  | false => exact only_pure _
  | true => exact (only_attempt hn _ _).bind fun _ => only_pure _

theorem only_remindAll (d : Directory) (bugs : BugSet) (links : BugLinker) (people : Bool)
    (release : String) : Only P (remindAll n d bugs links people release) := by
  rw [remindAll]
  cases people with
  | false => exact only_pure 0
  | true => exact only_foldlM (only_remind hn links release) _ 0

theorem only_notify (d : Directory) (bugs : BugSet) (links : BugLinker) (people : Bool) :
    Only P (notify n d bugs links people) := by
  rw [notify]
  cases d.currentRelease with
  | error e => exact only_pure _
  | ok release =>
    refine (only_remindAll hn d bugs links people release).bind fun sent => ?_
    refine (only_foldlM (only_report hn (bugs.teamMap d) links release) d.teams _).bind fun p => ?_
    exact (only_attempt hn p.sent _).bind fun _ => only_pure _

end Notification

-- ---------------------------------------------------------------------------
-- Where a message goes
-- ---------------------------------------------------------------------------

namespace Slack

theorem only_call {P : Request → Prop} {r : Request} (h : P r) : Only P (call r) := by
  refine (only_send h).bind fun first => ?_
  rcases readAnswer first with e | reply | seconds
  · exact only_pure _
  · exact only_pure _
  · refine (only_wait seconds).bind fun _ => (only_send h).bind fun second => ?_
    rcases readAnswer second with e | reply | seconds <;> exact only_pure _

def PostsTo (c : Slack) (channel : String) (r : Request) : Prop := ∃ text, Posts c channel text r

theorem only_post (c : Slack) (channel text : String) :
    Only (PostsTo c channel) (c.post channel text) :=
  (only_call ⟨text, posts_postRequest c channel text⟩).bind fun _ => only_pure _

/-- What the debug channel gets of a message. -/
def debugText (c : Slack) (m : Message) : String :=
  match m.recipient with
  | .channel name =>
    if name = c.debugChannel then m.text else "DEBUG sendto: " ++ name ++ ": " ++ m.text
  | .person email => "DEBUG: " ++ Text.quoted email ++ " will receive:\n" ++ m.text
  | .debug => m.text

theorem notifier_eq {c : Slack} (hdebug : c.debug = true) (m : Message) :
    c.notifier m = c.postDebug (c.debugText m) := by
  obtain ⟨recipient, text⟩ := m
  cases recipient with
  | channel name =>
    -- The debug channel itself is not redirected; its text goes out as it is.
    by_cases hname : name = c.debugChannel
    · simp [notifier, messageChannel, debugText, postDebug, hname]
    · simp [notifier, messageChannel, debugText, hdebug, hname]
  | person email => simp [notifier, messagePerson, debugText, hdebug]
  | debug => rfl

theorem only_notifier {c : Slack} (hdebug : c.debug = true) (m : Message) :
    Only (PostsTo c c.debugChannel) (c.notifier m) := by
  rw [notifier_eq hdebug]
  exact only_post c c.debugChannel (c.debugText m)

theorem eq_of_ofSettings {s : SlackSettings} {fs : Files} {c : Slack}
    (hc : ofSettings s fs = .ok c) :
    c.apiUrl = withoutSlashes s.apiUrl ∧ c.debug = s.debug ∧ c.debugChannel = s.debugChannel := by
  rw [ofSettings] at hc
  cases htoken : s.resolveToken fs with
  | error e =>
    rw [htoken] at hc
    cases hc
  | ok token =>
    rw [htoken] at hc
    obtain rfl := Except.ok.inj hc
    exact ⟨rfl, rfl, rfl⟩

/-- With debug settings, whatever is sent and whatever the service answers, every
request posts to the debug channel. -/
theorem debug_redirects {s : SlackSettings} {fs : Files} {c : Slack}
    (hc : ofSettings s fs = .ok c) (hdebug : s.debug = true) (server : Server) :
    (c.apiUrl = withoutSlashes s.apiUrl ∧ c.debugChannel = s.debugChannel) ∧
    (∀ messages : List Message,
      ∀ r ∈ requests (run server (messages.mapM c.notifier)).2, PostsTo c s.debugChannel r) ∧
    ∀ (d : Directory) (bugs : BugSet) (links : BugLinker) (people : Bool),
      ∀ r ∈ requests (run server (Notification.notify c.notifier d bugs links people)).2,
        PostsTo c s.debugChannel r := by
  obtain ⟨hapi, hmode, hchannel⟩ := eq_of_ofSettings hc
  rw [hdebug] at hmode
  have hn := only_notifier hmode
  rw [hchannel] at hn
  refine ⟨⟨hapi, hchannel⟩, fun messages => ?_, fun d bugs links people => ?_⟩
  · exact (only_mapM hn messages).run server
  · exact (Notification.only_notify hn d bugs links people).run server

/-- Asks to wait after its first request, and then refuses everything. -/
def busy : Server := fun history =>
  some (if history.length = 1 then { status := 429 } else { status := 500 })

def quietDirectory : Directory where
  title := ""
  teams := [
    { name := "Node", components := ["Node"], slackChannel := "#node" },
    { name := "Auth", components := ["Auth"], slackChannel := "#auth" }]
  releases := [{ name := "4.9", targets := ["4.9.0"] }]
  slo := .empty
  names_nodup := by decide

theorem debug_redirects_busy :
    let s := (SlackSettings.ofToken "https://chat.example.org/api/" "xoxb").withDebug "#quiet"
    let c : Slack := ⟨"https://chat.example.org/api", "xoxb", true, "#quiet", .empty⟩
    let messages : List Message :=
      [⟨.channel "#node", "report"⟩, ⟨.person "ann", "reminder"⟩]
    let bugs : BugSet := ⟨[{ id := 1, components := ["Node"], assignedTo := "ann@example.org" }]⟩
    let links := BugLinker.ofEndpoint "https://bugs.example.org/"
    ofSettings s {} = .ok c ∧ s.debug = true ∧
      (∀ r ∈ requests (run busy (messages.mapM c.notifier)).2, PostsTo c "#quiet" r) ∧
      (requests (run busy (messages.mapM c.notifier)).2).map (·.body) = [
        "\x7b\"channel\":\"#quiet\",\"text\":\"DEBUG sendto: #node: report\"\x7d",
        "\x7b\"channel\":\"#quiet\",\"text\":\"DEBUG sendto: #node: report\"\x7d",
        "\x7b\"channel\":\"#quiet\",\"text\":\"DEBUG: \\\"ann\\\" will receive:\\nreminder\"\x7d"] ∧
      (∀ r ∈ requests (run busy (Notification.notify c.notifier quietDirectory bugs links true)).2,
        PostsTo c "#quiet" r) ∧
      (requests (run busy
        (Notification.notify c.notifier quietDirectory bugs links true)).2).length = 4 := by
  intro s c messages bugs links
  have hapi : withoutSlashes s.apiUrl = "https://chat.example.org/api" := by decide +kernel
  have hc : ofSettings s {} = .ok c := by
    change Except.ok (⟨withoutSlashes s.apiUrl, "xoxb", true, "#quiet", .empty⟩ : Slack) = .ok c
    rw [hapi]
  obtain ⟨-, hmessages, hnotify⟩ := debug_redirects hc rfl busy
  exact ⟨hc, rfl, hmessages messages, by decide +kernel, hnotify quietDirectory bugs links true,
    by decide +kernel⟩

end Slack

end Triage
