import VersionMatrix.CommandLine.Arguments
import VersionMatrix.CommandLine.Parser
import VersionMatrix.CommandLine.Preflight
import VersionMatrix.CommandLine.Session
import VersionMatrix.CommandLine.View
import VersionMatrix.Config
import VersionMatrix.Daemon.Certificate
import VersionMatrix.Daemon.Client
import VersionMatrix.Daemon.LogStream
import VersionMatrix.Daemon.RecordStream
import VersionMatrix.Daemon.Request
import VersionMatrix.Daemon.Settings
import VersionMatrix.Daemon.Target
import VersionMatrix.Display.Board
import VersionMatrix.Display.Lines
import VersionMatrix.Display.Summary
import VersionMatrix.Display.Tone
import VersionMatrix.Engine.Basic
import VersionMatrix.Error
import VersionMatrix.FileTree.Basic
import VersionMatrix.FileTree.Operations
import VersionMatrix.FileTree.Path
import VersionMatrix.FileTree.Resolve
import VersionMatrix.Json.Reader
import VersionMatrix.Json.Record
import VersionMatrix.Json.Token
import VersionMatrix.Json.Value
import VersionMatrix.Json.Writer
import VersionMatrix.Main
import VersionMatrix.Pipeline.Event
import VersionMatrix.Pipeline.Output
import VersionMatrix.Pipeline.Run
import VersionMatrix.Pipeline.Schedule
import VersionMatrix.Pipeline.Stages
import VersionMatrix.Pipeline.Streams
import VersionMatrix.Project.Basic
import VersionMatrix.Project.Manifest
import VersionMatrix.Project.Revision
import VersionMatrix.Proofs.CommandLine.Batch
import VersionMatrix.Proofs.CommandLine.Capacity
import VersionMatrix.Proofs.CommandLine.Configuration
import VersionMatrix.Proofs.CommandLine.Output
import VersionMatrix.Proofs.CommandLine.Override
import VersionMatrix.Proofs.CommandLine.Parsing
import VersionMatrix.Proofs.CommandLine.Preflight
import VersionMatrix.Proofs.CommandLine.Reading
import VersionMatrix.Proofs.CommandLine.Spelling
import VersionMatrix.Proofs.CommandLine.Validity
import VersionMatrix.Proofs.CommandLine.Verdict
import VersionMatrix.Proofs.Daemon.BuildStream
import VersionMatrix.Proofs.Daemon.Lifecycle
import VersionMatrix.Proofs.Daemon.Output
import VersionMatrix.Proofs.Daemon.PullStream
import VersionMatrix.Proofs.Daemon.Subjects
import VersionMatrix.Proofs.Display.Board
import VersionMatrix.Proofs.Display.Summary
import VersionMatrix.Proofs.FileTree.Components
import VersionMatrix.Proofs.FileTree.Contents
import VersionMatrix.Proofs.FileTree.Files
import VersionMatrix.Proofs.FileTree.Leads
import VersionMatrix.Proofs.FileTree.Opens
import VersionMatrix.Proofs.FileTree.Operations
import VersionMatrix.Proofs.Json.Decoding
import VersionMatrix.Proofs.Json.Report
import VersionMatrix.Proofs.Json.Request
import VersionMatrix.Proofs.Pipeline.Output
import VersionMatrix.Proofs.Project.CrateName
import VersionMatrix.Proofs.Project.ImageName
import VersionMatrix.Proofs.Project.Naming
import VersionMatrix.Proofs.Report
import VersionMatrix.Proofs.Request
import VersionMatrix.Proofs.Run.Context
import VersionMatrix.Proofs.Run.Echo
import VersionMatrix.Proofs.Run.Footprint
import VersionMatrix.Proofs.Run.History
import VersionMatrix.Proofs.Run.Isolation
import VersionMatrix.Proofs.Run.Refusal
import VersionMatrix.Proofs.Run.Repetition
import VersionMatrix.Proofs.Run.Retention
import VersionMatrix.Proofs.Run.TestOutput
import VersionMatrix.Proofs.Run.Trail
import VersionMatrix.Proofs.Schedule.Accounts
import VersionMatrix.Proofs.Schedule.Admission
import VersionMatrix.Proofs.Schedule.Confluence
import VersionMatrix.Proofs.Schedule.Interleaving
import VersionMatrix.Proofs.Schedule.Log
import VersionMatrix.Proofs.Staging.Archive
import VersionMatrix.Proofs.Staging.Children
import VersionMatrix.Proofs.Staging.Clash
import VersionMatrix.Proofs.Staging.Completion
import VersionMatrix.Proofs.Staging.Confined
import VersionMatrix.Proofs.Staging.Copy
import VersionMatrix.Proofs.Staging.Enclosed
import VersionMatrix.Proofs.Staging.Failure
import VersionMatrix.Proofs.Staging.Faults
import VersionMatrix.Proofs.Staging.Footprint
import VersionMatrix.Proofs.Staging.Leftovers
import VersionMatrix.Proofs.Staging.Pack
import VersionMatrix.Proofs.Staging.Place
import VersionMatrix.Proofs.Staging.Project
import VersionMatrix.Proofs.Staging.Replica
import VersionMatrix.Proofs.Staging.Site
import VersionMatrix.Proofs.Staging.Substitution
import VersionMatrix.Proofs.Staging.Success
import VersionMatrix.Proofs.Staging.Template
import VersionMatrix.Proofs.Text.HeldBack
import VersionMatrix.Proofs.Text.Lines
import VersionMatrix.Proofs.Text.Rounds
import VersionMatrix.Proofs.Text.Truncated
import VersionMatrix.Proofs.Text.Utf8
import VersionMatrix.Proofs.Version.Sort
import VersionMatrix.Report
import VersionMatrix.Request
import VersionMatrix.Stage
import VersionMatrix.Staging.Action
import VersionMatrix.Staging.Context
import VersionMatrix.Staging.Copy
import VersionMatrix.Staging.Place
import VersionMatrix.Staging.Template
import VersionMatrix.Text.Blank
import VersionMatrix.Text.LowerCase
import VersionMatrix.Text.LowerCase.Table
import VersionMatrix.Text.Numeral
import VersionMatrix.Text.Occurrence
import VersionMatrix.Text.Utf8.Basic
import VersionMatrix.Text.Utf8.Stream
import VersionMatrix.Time.Calendar
import VersionMatrix.Time.Instant
import VersionMatrix.Time.Rfc3339
import VersionMatrix.Version.Basic
import VersionMatrix.Version.Sort
