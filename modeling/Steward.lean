import Steward.Annotation.Basic
import Steward.Annotation.Line
import Steward.Binary64
import Steward.Ci.Config.Basic
import Steward.Ci.Config.Reader
import Steward.Ci.Executors
import Steward.Ci.Fault
import Steward.Ci.Job
import Steward.Ci.Operation
import Steward.Ci.Order
import Steward.Ci.Step
import Steward.Ci.Work
import Steward.Cli.Arguments
import Steward.Cli.Invocation
import Steward.Cli.Session
import Steward.Competition.Basic
import Steward.Competition.Criteria
import Steward.Competition.Dates
import Steward.Competition.Request
import Steward.Cooldown
import Steward.Desk.Basic
import Steward.Desk.Competitions
import Steward.Desk.Participants
import Steward.Desk.Permissions
import Steward.Desk.View
import Steward.Exit
import Steward.Failure
import Steward.Grant
import Steward.Json.Basic
import Steward.Json.Reader
import Steward.Json.Record
import Steward.Json.Writer
import Steward.Lint.Builtin
import Steward.Lint.Config
import Steward.Lint.Diagnostic
import Steward.Lint.Fix
import Steward.Lint.Linter
import Steward.Lint.Node
import Steward.Lint.Rule
import Steward.Lint.Rules.Disconnect
import Steward.Lint.Rules.Expressions
import Steward.Lint.Rules.Reported
import Steward.Lint.Rules.Validation
import Steward.Lint.Walk
import Steward.Logging
import Steward.Main
import Steward.Output.Cargo
import Steward.Output.CargoTest
import Steward.Output.Eslint
import Steward.Output.Format
import Steward.Output.Place
import Steward.Output.Reader
import Steward.Output.Rustc
import Steward.Output.StackTrace
import Steward.Output.Tsc
import Steward.Participant
import Steward.Path
import Steward.Player
import Steward.Proofs.Annotation.Escape
import Steward.Proofs.Annotation.Grammar
import Steward.Proofs.Annotation.RoundTrip
import Steward.Proofs.Ci.Alike
import Steward.Proofs.Ci.Course
import Steward.Proofs.Ci.Labels
import Steward.Proofs.Ci.Packages
import Steward.Proofs.Ci.Release
import Steward.Proofs.Ci.Stages
import Steward.Proofs.Ci.Token
import Steward.Proofs.Competition.Document
import Steward.Proofs.Competition.Request
import Steward.Proofs.Competition.Stage
import Steward.Proofs.Cooldown
import Steward.Proofs.Cooldown.Pruning
import Steward.Proofs.Cooldown.Waiting
import Steward.Proofs.Desk.AloneCalls
import Steward.Proofs.Desk.CompetitionCalls
import Steward.Proofs.Desk.CompetitionList
import Steward.Proofs.Desk.Conduct
import Steward.Proofs.Desk.Effect
import Steward.Proofs.Desk.Eligibility
import Steward.Proofs.Desk.Floor
import Steward.Proofs.Desk.Frame
import Steward.Proofs.Desk.GrantHistory
import Steward.Proofs.Desk.Join
import Steward.Proofs.Desk.Joins
import Steward.Proofs.Desk.Lifecycle
import Steward.Proofs.Desk.OpenLimits
import Steward.Proofs.Desk.Openness
import Steward.Proofs.Desk.Overshoot
import Steward.Proofs.Desk.ParticipantCalls
import Steward.Proofs.Desk.ParticipantList
import Steward.Proofs.Desk.Permanence
import Steward.Proofs.Desk.Places
import Steward.Proofs.Desk.PlacesHeld
import Steward.Proofs.Desk.Proper
import Steward.Proofs.Desk.Reads
import Steward.Proofs.Desk.Run
import Steward.Proofs.Desk.Spacing
import Steward.Proofs.Desk.Terminal
import Steward.Proofs.Documents
import Steward.Proofs.Failure
import Steward.Proofs.Json.Ordered
import Steward.Proofs.Json.Record
import Steward.Proofs.Json.Values
import Steward.Proofs.Lint.Builtin
import Steward.Proofs.Lint.Children
import Steward.Proofs.Lint.Counts
import Steward.Proofs.Lint.Disconnect
import Steward.Proofs.Lint.Fix
import Steward.Proofs.Lint.Glob
import Steward.Proofs.Lint.Independence
import Steward.Proofs.Lint.Messages
import Steward.Proofs.Lint.Order
import Steward.Proofs.Lint.Reported
import Steward.Proofs.Lint.Single
import Steward.Proofs.Lint.Source
import Steward.Proofs.Lint.Traversal
import Steward.Proofs.Lint.Tree
import Steward.Proofs.Lint.Validation
import Steward.Proofs.Lint.Walk
import Steward.Proofs.Output.Blocks
import Steward.Proofs.Output.Diagnostics
import Steward.Proofs.Output.Gathered
import Steward.Proofs.Output.PanicLines
import Steward.Proofs.Output.Panics
import Steward.Proofs.Output.RustcBlocks
import Steward.Proofs.Output.RustcLines
import Steward.Proofs.Output.TraceLines
import Steward.Proofs.Output.Traces
import Steward.Proofs.Secret
import Steward.Proofs.Settings
import Steward.Proofs.Snowflake
import Steward.Proofs.Sorting
import Steward.Proofs.Store.Grounds
import Steward.Proofs.Store.Operations
import Steward.Proofs.Store.Order
import Steward.Proofs.Store.Players
import Steward.Proofs.Store.Row
import Steward.Proofs.Store.Runs
import Steward.Proofs.Store.Tables
import Steward.Proofs.Text.Regex
import Steward.Proofs.Text.Replace
import Steward.Proofs.Text.Trim
import Steward.Proofs.Time.Civil
import Steward.Proofs.Time.Clock
import Steward.Proofs.Time.Stamp
import Steward.Proofs.Tool.Past
import Steward.Proofs.Tool.SameFile
import Steward.Refusal
import Steward.Secret
import Steward.Settings.Basic
import Steward.Shell.Arithmetic
import Steward.Shell.Disk
import Steward.Shell.Filter
import Steward.Shell.Intrinsic
import Steward.Shell.Pattern
import Steward.Shell.Printed
import Steward.Shell.Program
import Steward.Shell.Reader
import Steward.Shell.Run
import Steward.Shell.Script
import Steward.Shell.State
import Steward.Shell.Utility
import Steward.Shell.Word
import Steward.Snowflake
import Steward.Store.Basic
import Steward.Store.Row
import Steward.Store.Script
import Steward.Text.Blank
import Steward.Text.Classes
import Steward.Text.Cut
import Steward.Text.Decimal
import Steward.Text.Lines
import Steward.Text.Quoted
import Steward.Text.Regex
import Steward.Text.Search
import Steward.Text.Utf8
import Steward.Time.Civil
import Steward.Time.Instant
import Steward.Time.Stamp
import Steward.Toml.Basic
import Steward.Toml.Decode
import Steward.Toml.Document
import Steward.Toml.Overlay
import Steward.Toml.Quoted
import Steward.Toml.Reader
import Steward.Toml.Scalar
import Steward.Toml.Table
import Steward.Tool.Cache
import Steward.Tool.Fault
import Steward.Tool.Report
import Steward.Tool.Runner
import Steward.Word
