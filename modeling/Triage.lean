import Triage.Binary.Basic
import Triage.Binary.Decimal
import Triage.Binary.Shortest
import Triage.Bug
import Triage.Bug.Json
import Triage.BugLinker
import Triage.BugMap
import Triage.BugQuery
import Triage.BugQuery.Json
import Triage.BugSet
import Triage.BugUpdate
import Triage.BugUpdate.Json
import Triage.CommandLine.Options
import Triage.CommandLine.Outcome
import Triage.Csv
import Triage.Daemon
import Triage.DaemonTool
import Triage.DaemonTool.Arguments
import Triage.Directory
import Triage.Directory.Lint
import Triage.Directory.Ownership
import Triage.Document
import Triage.Error
import Triage.Files
import Triage.Http
import Triage.Json.Basic
import Triage.Json.Document
import Triage.Json.Number
import Triage.Json.Printer
import Triage.Json.Reader
import Triage.Main
import Triage.Notification
import Triage.Notifier
import Triage.OrgConfig
import Triage.OrgConfig.Json
import Triage.OrgConfig.Reading
import Triage.OrgConfig.Text
import Triage.OrgSource.File
import Triage.OrgSource.Service
import Triage.PassRates
import Triage.PassRates.Report
import Triage.PassRates.Service
import Triage.Path
import Triage.Reconciler
import Triage.Reconciler.Loops
import Triage.Release
import Triage.ReportTool
import Triage.ReportTool.Arguments
import Triage.Settings.Ci
import Triage.Settings.Environment
import Triage.Settings.Org
import Triage.Settings.Slack
import Triage.Settings.Timeout
import Triage.Settings.Tracker
import Triage.Sha256
import Triage.Slack
import Triage.Slo
import Triage.Slo.Json
import Triage.Slo.Metric
import Triage.Snapshot
import Triage.Snapshot.Json
import Triage.SortedMap
import Triage.Source.Answer
import Triage.Source.Error
import Triage.Source.Memory
import Triage.SourceSelection
import Triage.Summary
import Triage.Team
import Triage.Text.Blank
import Triage.Text.Digits
import Triage.Text.Quoted
import Triage.Text.Search
import Triage.Text.Visible
import Triage.Tracker
import Triage.Tracker.Bugzilla
import Triage.Tracker.File
import Triage.Tracker.Memory
import Triage.Word
import Triage.Yaml.Cursor
import Triage.Yaml.Document
import Triage.Yaml.Node
import Triage.Yaml.Node.Grammar
import Triage.Yaml.Number
import Triage.Yaml.Scalar
import Triage.Yaml.Token
import Triage.Yaml.Token.Lexer
import Triage.Yaml.Token.Property
import Triage.Proofs.BugMap
import Triage.Proofs.Directory.Lint
import Triage.Proofs.Slo
import Triage.Proofs.Json.Strings
import Triage.Proofs.Directory.Reload
import Triage.Proofs.Directory.Storage
import Triage.Proofs.Unclaimed
import Triage.Proofs.Bug
import Triage.Proofs.Tracker.Bugzilla
import Triage.Proofs.Reconciler
import Triage.Proofs.Directory.Scan
import Triage.Proofs.OrgConfig.Merge
import Triage.Proofs.Slo.Reordering
import Triage.Proofs.Slack.DebugMode
import Triage.Proofs.Notification
import Triage.Proofs.Reconciler.Loops
import Triage.Proofs.BugSet
import Triage.Proofs.Records
import Triage.Proofs.OrgConfig.Stacking
import Triage.Proofs.Directory.Faults
import Triage.Proofs.Slo.Isolation
import Triage.Proofs.Directory.Keyed
import Triage.Proofs.OrgConfig.Repetition
import Triage.Proofs.Directory.Removal
import Triage.Proofs.Directory.Findings
import Triage.Proofs.Release
import Triage.Proofs.Notification.Delivery
import Triage.Proofs.Csv
import Triage.Proofs.BugUpdate
import Triage.Proofs.Tracker.Memory
import Triage.Proofs.Slo.Agreement
import Triage.Proofs.Slack.Delivery
import Triage.Proofs.Tracker.Agreement
import Triage.Proofs.Settings.Org
import Triage.Proofs.DaemonTool
import Triage.Proofs.BugQuery
import Triage.Proofs.BugMap.Counts
import Triage.Proofs.Bug.Score
import Triage.Proofs.Daemon
import Triage.Proofs.BugLinker
