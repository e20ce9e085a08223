import Triage.Proofs.Directory.Load
import Triage.Proofs.Notification

/-!
# The summary and what was delivered

The last message of a run says to which teams reports were sent. It is fixed
before the first report is attempted and names the teams that a report is for,
so it is true exactly when every report is delivered: a team whose report
failed stands among those it was sent to.
-/

namespace Triage.Notification

variable (d : Directory) (bugs : BugSet) (links : BugLinker) (people : Bool) {release : String}

def addressed : List Team :=
  d.teams.filter fun t => t.slackChannel ≠ "" ∧ (bugs.teamMap d).bugs t.name ≠ []

/-- The names of the teams that are not among the given ones, sorted. -/
def others (teams : List Team) : List String :=
  (names (d.teams.filter fun t => t.name ∉ names teams)).mergeSort

abbrev Report := Team × SourceResult Unit

def reached (reports : List Report) : List Team := (reports.filter (·.2.isOk)).map (·.1)

/-- The summary that tells the given teams from the others. -/
def summaryOf (teams : List Team) : Message where
  recipient := .debug
  text := deliverySummary (names teams) (others d teams)

-- ---------------------------------------------------------------------------
-- The parts of a run
-- ---------------------------------------------------------------------------

theorem name_mem_names_addressed_iff {t : Team} (ht : t ∈ d.teams) :
    t.name ∈ names (addressed d bugs) ↔ isReported (bugs.teamMap d) t = true := by
  rw [addressed, ← filter_isReported, names, List.mem_map]
  constructor
  · rintro ⟨u, hu, hname⟩
    obtain ⟨hu, hreported⟩ := List.mem_filter.mp hu
    obtain rfl := d.eq_of_name_eq hu ht hname
    exact hreported
  · intro hreported
    exact ⟨t, List.mem_filter.mpr ⟨ht, hreported⟩, rfl⟩

theorem lastMessage_eq : lastMessage d (bugs.teamMap d) = summaryOf d (addressed d bugs) := by
  have hskipped : (d.teams.filter fun t => !isReported (bugs.teamMap d) t) =
      d.teams.filter fun t => t.name ∉ names (addressed d bugs) :=
    List.filter_congr fun t ht => by simp [name_mem_names_addressed_iff d bugs ht]
  rw [lastMessage, summaryOf, others, hskipped, filter_isReported, addressed]

theorem exists_reports {f : Team → Message} {teams : List Team} {attempts : List Attempt}
    (h : attempts.map (·.1) = teams.map f) :
    ∃ reports : List Report, reports.map (·.1) = teams ∧
      attempts = reports.map fun r => (f r.1, r.2) := by
  induction teams generalizing attempts with
  | nil => exact ⟨[], rfl, by simpa using h⟩
  | cons t rest ih =>
    obtain ⟨⟨m, answer⟩, attempts, rfl, rfl, hrest⟩ := List.map_eq_cons_iff.mp h
    obtain ⟨reports, rfl, rfl⟩ := ih hrest
    exact ⟨(t, answer) :: reports, rfl, rfl⟩

-- ---------------------------------------------------------------------------
-- When the summary is true
-- ---------------------------------------------------------------------------

theorem names_reached_eq_iff (reports : List Report) :
    names (reports.map (·.1)) = names (reached reports) ↔ ∀ r ∈ reports, r.2.isOk := by
  constructor
  · intro h
    have hlength : (reports.filter (·.2.isOk)).length = reports.length := by
      simpa [names, reached] using (congrArg List.length h).symm
    exact List.length_filter_eq_length_iff.mp hlength
  · intro h
    rw [reached, List.filter_eq_self.mpr h]

/-- The last message of a run tells the teams a report is for from the others, whatever came
of the reports before it. It is the summary of those that were reached exactly
when every report was delivered. -/
theorem notify_summary (hrelease : d.currentRelease = .ok release) {σ : Type}
    (n : Notifier (StateM σ)) (w : σ) :
    ∃ w' before reports answer,
      let attempts : List Attempt := before
        ++ reports.map (fun r => (teamReport (bugs.teamMap d) links release r.1, r.2))
        ++ [(summaryOf d (addressed d bugs), answer)]
      notify n d bugs links people w = (.ok (delivered attempts), w') ∧
      notify (noted n) d bugs links people (w, []) = (.ok (delivered attempts), w', attempts) ∧
      before.map (·.1) = (if people then reminders d bugs links release else []) ∧
      reports.map (·.1) = addressed d bugs ∧
      (names (addressed d bugs) = names (reached reports) ∧
        others d (addressed d bugs) = others d (reached reports) ↔
          ∀ r ∈ reports, r.2.isOk) := by
  obtain ⟨w', attempts, hrun, hnoted, hattempts⟩ := notify_noted n bugs links people hrelease w
  rw [messages, filter_isReported, ← addressed, lastMessage_eq] at hattempts
  obtain ⟨_, last, rfl, hfirst, hlast⟩ := List.map_eq_append_iff.mp hattempts
  obtain ⟨before, _, rfl, hbefore, hreports⟩ := List.map_eq_append_iff.mp hfirst
  obtain ⟨⟨_, answer⟩, rest, rfl, rfl, hrest⟩ := List.map_eq_cons_iff.mp hlast
  obtain rfl := List.map_eq_nil_iff.mp hrest
  obtain ⟨reports, hteams, rfl⟩ := exists_reports hreports
  refine ⟨w', before, reports, answer, hrun, hnoted, hbefore, hteams, ?_⟩
  have hnames := names_reached_eq_iff reports
  rw [hteams] at hnames
  refine ⟨fun h => hnames.mp h.1, fun h => ⟨hnames.mpr h, ?_⟩⟩
  rw [others, others, hnames.mpr h]

/-- The second of two reports is lost, and the summary names both teams. -/
theorem notify_summary_flickering :
    let links := BugLinker.ofEndpoint "https://bugs.example.org/"
    let run := notify (noted flickering) channelDirectory untriagedBugs links false (0, [])
    channelDirectory.currentRelease = .ok "4.9.0" ∧
      run.2.2.map (·.2.isOk) = [true, false, true] ∧
      (summaryOf channelDirectory (addressed channelDirectory untriagedBugs)).text =
        "Sent to team: Node, CI\n\nNot sent to team: Docs" ∧
      ∃ (reports : List Report) (answer : SourceResult Unit),
        run.2.2 = reports.map (fun r =>
            (teamReport (untriagedBugs.teamMap channelDirectory) links "4.9.0" r.1, r.2)) ++
          [(summaryOf channelDirectory (addressed channelDirectory untriagedBugs), answer)] ∧
        ¬ (names (addressed channelDirectory untriagedBugs) = names (reached reports) ∧
          others channelDirectory (addressed channelDirectory untriagedBugs) =
            others channelDirectory (reached reports)) := by
  intro links run
  have hrelease : channelDirectory.currentRelease = .ok "4.9.0" := by decide +kernel
  have hanswers : run.2.2.map (·.2.isOk) = [true, false, true] := by decide +kernel
  obtain ⟨w', before, reports, answer, -, hnoted, hbefore, hteams, htrue⟩ :=
    notify_summary channelDirectory untriagedBugs links false hrelease flickering 0
  obtain rfl : before = [] := by simpa using hbefore
  have hrun : run.2.2 = _ := congrArg (·.2.2) hnoted
  refine ⟨hrelease, hanswers, by decide +kernel, reports, answer, hrun, fun h => ?_⟩
  have hlost : reports.map (·.2.isOk) = [true, false] := by
    rw [hrun] at hanswers
    simpa [Function.comp_def] using congrArg List.dropLast hanswers
  have hfailed : ∃ r ∈ reports, r.2.isOk = false := by
    simpa using (hlost ▸ by decide : false ∈ reports.map (·.2.isOk))
  obtain ⟨r, hr, hfailed⟩ := hfailed
  exact absurd (htrue.mp h r hr) (by simp [hfailed])

def nodeChannel : Directory where
  title := ""
  teams := [{ name := "Node", components := ["Node"], slackChannel := "#node" }]
  releases := [{ name := "4.9", targets := ["4.9.0"] }]
  slo := .empty
  names_nodup := by decide

def debugOnly : Notifier (StateM Unit) := fun m _ =>
  (if m.recipient = .debug then .ok () else .error (.chat "channel_not_found"), ())

/-- The only report is not delivered; the summary says that it was sent. -/
theorem summary_undelivered :
    let links := BugLinker.ofEndpoint "https://bugs.example.org/"
    let run := notify (noted debugOnly) nodeChannel ⟨[{ id := 1, components := ["Node"] }]⟩ links
      false ((), [])
    run.1 = .ok 1 ∧
      run.2.2.map (fun a => (a.1.recipient, a.2.isOk)) =
        [(.channel "#node", false), (.debug, true)] ∧
      run.2.2.getLast?.map (·.1.text) = some "Sent to team: Node\n\nNot sent to team: " ∧
      run.2.2.getLast?.map (·.1) ≠ some (summaryOf nodeChannel []) := by
  decide +kernel

end Triage.Notification
