import Triage.Notification
import Triage.Proofs.Summary

/-!
# Who is notified

No answer decides what is sent next, so the two loops of a run, over assignees and
over teams, come to one list of `messages` that are attempted in order
(`notify_of_release`). Every one is attempted once, whatever comes of the others,
and the answer counts those that were delivered. Reminders go to those who have a
pressing bug of a team with a channel, reports to the teams with a channel and bugs.
-/

namespace Triage

namespace Summary

/-- A bug of which its assignee is reminded. -/
def Pressing (release : String) (b : Bug) : Prop :=
  b.isStale = false ∧ (b.isBlocker release = true ∨ b.isUntriaged = true)

instance (release : String) (b : Bug) : Decidable (Pressing release b) := by
  unfold Pressing
  infer_instance

theorem personalLines_eq_nil_iff (who : String) (bugs : List Bug) (release : String)
    (links : BugLinker) :
    (ofBugs who bugs release).personalLines links = [] ↔ ∀ b ∈ bugs, ¬ Pressing release b := by
  have hlines (s : Summary) :
      s.personalLines links = [] ↔ s.blockerIds = [] ∧ s.untriagedIds = [] := by
    simp [personalLines]
  have hlive {b : Bug} : b ∈ live bugs ↔ b ∈ bugs ∧ b.isStale = false := by simp [live]
  have haccounts := ofBugs_accounts who bugs release
  rw [hlines, haccounts.blockers, haccounts.untriaged, idsOf_eq_nil_iff, idsOf_eq_nil_iff]
  constructor
  · rintro ⟨hblocker, huntriaged⟩ b hb ⟨hstale, hpressing | hpressing⟩
    · exact hblocker b (hlive.mpr ⟨hb, hstale⟩) hpressing
    · exact huntriaged b (hlive.mpr ⟨hb, hstale⟩) hpressing
  · intro h
    refine ⟨fun b hb hp => ?_, fun b hb hp => ?_⟩
    · exact h b (hlive.mp hb).1 ⟨(hlive.mp hb).2, .inl hp⟩
    · exact h b (hlive.mp hb).1 ⟨(hlive.mp hb).2, .inr hp⟩

end Summary

namespace Notification

open Summary (Pressing)

-- ---------------------------------------------------------------------------
-- The messages of a run
-- ---------------------------------------------------------------------------

def reminders (d : Directory) (bugs : BugSet) (links : BugLinker) (release : String) :
    List Message :=
  (bugs.filterByTeams d (withChannel d)).assigneeMap.buckets.entries.filterMap
    fun (assignee, assigned) => reminder? links release assignee assigned

def names (teams : List Team) : List String := teams.map (·.name)

/-- The last message: which teams get a report and, sorted, which do not. -/
def lastMessage (d : Directory) (map : BugMap) : Message where
  recipient := .debug
  text := deliverySummary (names (d.teams.filter (isReported map)))
    (names (d.teams.filter fun t => !isReported map t)).mergeSort

/-- All messages in order, for a current release. -/
def messages (d : Directory) (bugs : BugSet) (links : BugLinker) (people : Bool)
    (release : String) : List Message :=
  let map := bugs.teamMap d
  (if people then reminders d bugs links release else [])
    ++ (d.teams.filter (isReported map)).map (teamReport map links release)
    ++ [lastMessage d map]

section Loops

variable {m : Type → Type} [Monad m] (n : Notifier m) {d : Directory} (bugs : BugSet)
  (links : BugLinker) (people : Bool)

theorem notify_of_error {e : ConfigError} (h : d.currentRelease = .error e) :
    notify n d bugs links people = pure (.error e) := by
  simp only [notify, h]

def sendAll (sent : Nat) (messages : List Message) : m Nat := messages.foldlM (attempt n) sent

variable [LawfulMonad m] (release : String)

theorem sendAll_append (sent : Nat) (first rest : List Message) :
    sendAll n sent (first ++ rest) = sendAll n sent first >>= fun sent => sendAll n sent rest :=
  List.foldlM_append

theorem foldlM_remind (assigned : List (String × List Bug)) (sent : Nat) :
    assigned.foldlM (remind n links release) sent =
      sendAll n sent (assigned.filterMap fun a => reminder? links release a.1 a.2) := by
  induction assigned generalizing sent with
  | nil => rfl
  | cons a rest ih =>
    rw [List.foldlM_cons, remind]
    cases h : reminder? links release a.1 a.2 with
    | none =>
      simp only [List.filterMap_cons, h, pure_bind]
      exact ih sent
    | some message =>
      simp only [List.filterMap_cons, h, sendAll, List.foldlM_cons]
      exact bind_congr ih

/-- The turns of teams send their reports, and list each team on one side or the other. -/
theorem foldlM_report (map : BugMap) (teams : List Team) (p : Progress) :
    teams.foldlM (report n map links release) p =
      (fun sent => {
        sent
        reported := p.reported ++ names (teams.filter (isReported map))
        skipped := p.skipped ++ names (teams.filter fun t => !isReported map t) }) <$>
      sendAll n p.sent ((teams.filter (isReported map)).map (teamReport map links release)) := by
  induction teams generalizing p with
  | nil => simp [sendAll, names]
  | cons t rest ih =>
    rw [List.foldlM_cons, report]
    cases h : isReported map t with
    | false => simp [ih, h, names]
    | true => simp [ih, h, names, sendAll]

variable {release}

/-- A run sends its messages one after the other. -/
theorem notify_of_release (h : d.currentRelease = .ok release) :
    notify n d bugs links people = .ok <$> sendAll n 0 (messages d bugs links people release) := by
  have hreminders : remindAll n d bugs links people release =
      sendAll n 0 (if people then reminders d bugs links release else []) := by
    cases people with
    | false => rfl
    | true => exact foldlM_remind n links release _ 0
  have hlast (sent : Nat) (message : Message) :
      sendAll n sent [message] = attempt n sent message := by simp [sendAll]
  simp [notify, h, hreminders, hlast, messages, lastMessage, sendAll_append, foldlM_report]

end Loops

-- ---------------------------------------------------------------------------
-- Sending
-- ---------------------------------------------------------------------------

abbrev Attempt := Message × SourceResult Unit

def delivered (attempts : List Attempt) : Nat := attempts.countP (·.2.isOk)

section Sending

variable {σ : Type} (n : Notifier (StateM σ))

theorem sendAll_cons (sent : Nat) (m : Message) (rest : List Message) (w : σ) :
    sendAll n sent (m :: rest) w =
      let (answer, w) := n m w
      sendAll n (sent + if answer.isOk then 1 else 0) rest w := by
  rcases h : n m w with ⟨answer, w₁⟩
  show (sendAll n sent (m :: rest)).run w = _
  rw [sendAll, List.foldlM_cons, attempt, bind_assoc, StateT.run_bind, StateT.run, h]
  cases answer <;> rfl

/-- The notifier with a record of what was attempted. -/
def noted : Notifier (StateM (σ × List Attempt)) := fun message (w, attempts) =>
  let (answer, w) := n message w
  (answer, w, attempts ++ [(message, answer)])

theorem sendAll_noted (messages : List Message) (w : σ) (sent : Nat) (before : List Attempt) :
    ∃ w' attempts, sendAll n sent messages w = (sent + delivered attempts, w') ∧
      sendAll (noted n) sent messages (w, before) =
        (sent + delivered attempts, w', before ++ attempts) ∧
      attempts.map (·.1) = messages := by
  induction messages generalizing w sent before with
  | nil => exact ⟨w, [], rfl, by rw [List.append_nil]; rfl, rfl⟩
  | cons m rest ih =>
    rcases h : n m w with ⟨answer, w₁⟩
    have hnoted : noted n m (w, before) = (answer, w₁, before ++ [(m, answer)]) := by
      simp only [noted, h]
    obtain ⟨w', attempts, hrest, hrest', hattempts⟩ :=
      ih w₁ (sent + if answer.isOk then 1 else 0) (before ++ [(m, answer)])
    have hcount : sent + delivered ((m, answer) :: attempts) =
        sent + (if answer.isOk then 1 else 0) + delivered attempts := by
      simp only [delivered, List.countP_cons]
      omega
    refine ⟨w', (m, answer) :: attempts, ?_, ?_, by rw [List.map_cons, hattempts]⟩
    · rw [sendAll_cons, h, hcount]
      exact hrest
    · rw [sendAll_cons, hnoted, hcount]
      simpa using hrest'

variable {d : Directory} (bugs : BugSet) (links : BugLinker) (people : Bool) {release : String}

theorem notify_noted (h : d.currentRelease = .ok release) (w : σ) :
    ∃ w' attempts, notify n d bugs links people w = (.ok (delivered attempts), w') ∧
      notify (noted n) d bugs links people (w, []) = (.ok (delivered attempts), w', attempts) ∧
      attempts.map (·.1) = messages d bugs links people release := by
  obtain ⟨w', attempts, hrun, hnoted, hattempts⟩ :=
    sendAll_noted n (messages d bugs links people release) w 0 []
  refine ⟨w', attempts, ?_, ?_, hattempts⟩
  · rw [notify_of_release n bugs links people h]
    show (Except.ok (sendAll n 0 _ w).1, (sendAll n 0 _ w).2) = _
    rw [hrun, Nat.zero_add]
  · rw [notify_of_release _ bugs links people h]
    show (Except.ok (sendAll (noted n) 0 _ (w, [])).1, (sendAll (noted n) 0 _ (w, [])).2) = _
    rw [hnoted, Nat.zero_add, List.nil_append]

end Sending

-- ---------------------------------------------------------------------------
-- Reminders
-- ---------------------------------------------------------------------------

variable (d : Directory) (bugs : BugSet) (links : BugLinker) (release : String)

def assigned : BugMap := (bugs.filterByTeams d (withChannel d)).assigneeMap

theorem mem_withChannel_iff {name : String} :
    name ∈ withChannel d ↔ ∃ t ∈ d.teams, t.slackChannel ≠ "" ∧ name = t.name := by
  simp only [withChannel, List.mem_map, List.mem_filter, bne_iff_ne]
  constructor
  · rintro ⟨t, ⟨ht, hchannel⟩, rfl⟩
    exact ⟨t, ht, hchannel, rfl⟩
  · rintro ⟨t, ht, hchannel, rfl⟩
    exact ⟨t, ⟨ht, hchannel⟩, rfl⟩

theorem mem_assigned_iff {b : Bug} {a : String} :
    b ∈ (assigned d bugs).bugs a ↔ b ∈ bugs.bugs ∧ b.assignedTo = a ∧
      ∃ t ∈ d.teams, t.slackChannel ≠ "" ∧ d.ownerOf b = t.name := by
  rw [assigned, BugSet.assigneeMap, (BugMap.byAssignee_groups _).mem_bugs_iff, BugSet.filterByTeams,
    BugSet.filter, List.mem_filter, List.contains_iff_mem, mem_withChannel_iff]
  exact and_assoc.trans (and_congr_right fun _ => and_comm)

def reminded : List String :=
  (assigned d bugs).keys.filter fun a =>
    a ≠ "" ∧ ∃ b ∈ (assigned d bugs).bugs a, Pressing release b

def reminderTo (a : String) : Message where
  recipient := .person a
  text := String.intercalate "\n"
    ((Summary.ofBugs a ((assigned d bugs).bugs a) release).personalLines links)

theorem reminder?_eq (a : String) :
    reminder? links release a ((assigned d bugs).bugs a) =
      if a ≠ "" ∧ ∃ b ∈ (assigned d bugs).bugs a, Pressing release b then
        some (reminderTo d bugs links release a)
      else none := by
  have hlines := Summary.personalLines_eq_nil_iff a ((assigned d bugs).bugs a) release links
  rw [reminder?]
  by_cases ha : a = ""
  · simp [ha]
  by_cases hpressing : ∃ b ∈ (assigned d bugs).bugs a, Pressing release b
  · have hne : (Summary.ofBugs a ((assigned d bugs).bugs a) release).personalLines links ≠ [] := by
      simpa [hlines] using hpressing
    simp [ha, hpressing, hne, reminderTo]
  · have hnil : (Summary.ofBugs a ((assigned d bugs).bugs a) release).personalLines links = [] := by
      simpa [hlines] using hpressing
    simp [hpressing, hnil]

theorem reminders_eq :
    reminders d bugs links release =
      (reminded d bugs release).map (reminderTo d bugs links release) := by
  have hentries : (assigned d bugs).buckets.entries =
      (assigned d bugs).keys.map fun a => (a, (assigned d bugs).bugs a) :=
    SortedMap.entries_eq_map_keys _
  rw [reminders, ← assigned, hentries, List.filterMap_map, reminded, ← List.filterMap_eq_map,
    List.filterMap_filter]
  refine List.filterMap_congr fun a _ => ?_
  simp only [Function.comp_apply, reminder?_eq, decide_eq_true_eq]

theorem reminded_pairwise : (reminded d bugs release).Pairwise (· < ·) :=
  (SortedMap.keys_pairwise _).filter _

theorem mem_reminded_iff {a : String} :
    a ∈ reminded d bugs release ↔ a ≠ "" ∧ ∃ b ∈ bugs.bugs, b.assignedTo = a ∧
      (∃ t ∈ d.teams, t.slackChannel ≠ "" ∧ d.ownerOf b = t.name) ∧ Pressing release b := by
  rw [reminded, List.mem_filter, decide_eq_true_eq]
  constructor
  · rintro ⟨-, ha, b, hb, hpressing⟩
    obtain ⟨hb, hassigned, hteam⟩ := (mem_assigned_iff d bugs).mp hb
    exact ⟨ha, b, hb, hassigned, hteam, hpressing⟩
  · rintro ⟨ha, b, hb, rfl, hteam, hpressing⟩
    have hbucket := (mem_assigned_iff d bugs).mpr ⟨hb, rfl, hteam⟩
    have hkey : b.assignedTo ∈ (assigned d bugs).keys :=
      (BugMap.byAssignee_groups _).covers b ((BugMap.byAssignee_groups _).mem_bugs_iff.mp hbucket).1
    exact ⟨hkey, ha, b, hbucket, hpressing⟩

-- ---------------------------------------------------------------------------
-- Whole runs
-- ---------------------------------------------------------------------------

theorem filter_isReported (map : BugMap) (teams : List Team) :
    teams.filter (isReported map) =
      teams.filter fun t => t.slackChannel ≠ "" ∧ map.bugs t.name ≠ [] := by
  refine List.filter_congr fun t _ => Bool.eq_iff_iff.mpr ?_
  simp [isReported, and_comm]

/-- Without a current release nothing is attempted. With one, the same messages are
attempted in the same order whichever of them fail, and the answer is how many
were delivered: the reminders, one report for each team with a channel and bugs,
and one summary. -/
theorem notify_attempts (people : Bool) :
    (∀ e, d.currentRelease = .error e → ∀ {σ : Type} (n : Notifier (StateM σ)) (w : σ),
      notify n d bugs links people w = (.error e, w) ∧
      notify (noted n) d bugs links people (w, []) = (.error e, w, [])) ∧
    ∀ release, d.currentRelease = .ok release →
      (reminded d bugs release).Pairwise (· < ·) ∧
      (∀ a, a ∈ reminded d bugs release ↔ a ≠ "" ∧ ∃ b ∈ bugs.bugs, b.assignedTo = a ∧
        (∃ t ∈ d.teams, t.slackChannel ≠ "" ∧ d.ownerOf b = t.name) ∧ Pressing release b) ∧
      ∀ {σ : Type} (n : Notifier (StateM σ)) (w : σ), ∃ w' attempts,
        notify n d bugs links people w = (.ok (delivered attempts), w') ∧
        notify (noted n) d bugs links people (w, []) = (.ok (delivered attempts), w', attempts) ∧
        attempts.map (·.1) =
          (if people then (reminded d bugs release).map (reminderTo d bugs links release) else [])
          ++ (d.teams.filter fun t =>
              t.slackChannel ≠ "" ∧ (bugs.teamMap d).bugs t.name ≠ []).map
            (teamReport (bugs.teamMap d) links release)
          ++ [lastMessage d (bugs.teamMap d)] := by
  refine ⟨fun e he σ n w => ?_, fun release hrelease =>
    ⟨reminded_pairwise d bugs release, fun a => mem_reminded_iff d bugs release,
      fun {σ} n w => ?_⟩⟩
  · rw [notify_of_error n bugs links people he, notify_of_error (noted n) bugs links people he]
    exact ⟨rfl, rfl⟩
  · obtain ⟨w', attempts, hrun, hnoted, hattempts⟩ := notify_noted n bugs links people hrelease w
    refine ⟨w', attempts, hrun, hnoted, ?_⟩
    rw [hattempts, messages, reminders_eq, filter_isReported]

def channelDirectory : Directory where
  title := ""
  teams := [
    { name := "Node", components := ["Node"], slackChannel := "#node" },
    { name := "Docs", components := ["Docs"] },
    { name := "CI", components := ["CI"], slackChannel := "#ci" }]
  releases := [{ name := "4.9", targets := ["4.9.0"] }]
  slo := .empty
  names_nodup := by decide

def untriagedBugs : BugSet where
  bugs := [
    { id := 1, components := ["Node"], assignedTo := "zoe@example.org" },
    { id := 2, components := ["CI"], assignedTo := "ann@example.org" },
    { id := 3, components := ["Node"], assignedTo := "ann@example.org" },
    { id := 4, components := ["Docs"], assignedTo := "bob@example.org" }]

def flickering : Notifier (StateM Nat) := fun _ calls =>
  (if calls % 2 = 1 then .error (.chat "down") else .ok (), calls + 1)

theorem notify_attempts_flickering :
    let links := BugLinker.ofEndpoint "https://bugs.example.org/"
    channelDirectory.currentRelease = .ok "4.9.0" ∧
      reminded channelDirectory untriagedBugs "4.9.0" = ["ann@example.org", "zoe@example.org"] ∧
      ∃ attempts, notify (noted flickering) channelDirectory untriagedBugs links true (0, []) =
          (.ok (delivered attempts), 5, attempts) ∧
        attempts.map (·.1.recipient) = [.person "ann@example.org", .person "zoe@example.org",
          .channel "#node", .channel "#ci", .debug] ∧
        delivered attempts = 3 := by
  intro links
  have hrelease : channelDirectory.currentRelease = .ok "4.9.0" := by decide +kernel
  have hreminded : reminded channelDirectory untriagedBugs "4.9.0" =
      ["ann@example.org", "zoe@example.org"] := by decide +kernel
  obtain ⟨w', attempts, hrun, hnoted, hattempts⟩ :=
    ((notify_attempts channelDirectory untriagedBugs links true).2 "4.9.0" hrelease).2.2 flickering 0
  have hcount : (notify (noted flickering) channelDirectory untriagedBugs links true (0, [])).1 =
      .ok 3 := by decide +kernel
  have hcalls : (notify (noted flickering) channelDirectory untriagedBugs links true (0, [])).2.1 =
      5 := by decide +kernel
  have hrecipients :
      (notify (noted flickering) channelDirectory untriagedBugs links true (0, [])).2.2.map
        (·.1.recipient) = [.person "ann@example.org", .person "zoe@example.org",
          .channel "#node", .channel "#ci", .debug] := by decide +kernel
  rw [hnoted] at hcount hcalls hrecipients
  obtain rfl : w' = 5 := hcalls
  exact ⟨hrelease, hreminded, attempts, hnoted, hrecipients, Except.ok.inj hcount⟩

end Notification

end Triage
