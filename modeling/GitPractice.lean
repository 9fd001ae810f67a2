import GitPractice.Action
import GitPractice.Author
import GitPractice.Calendar
import GitPractice.Command
import GitPractice.Command.Parser
import GitPractice.Command.Printer
import GitPractice.CommandLine
import GitPractice.CommandLine.Arguments
import GitPractice.CommandLine.Script
import GitPractice.Commit
import GitPractice.Config
import GitPractice.Diff
import GitPractice.Error
import GitPractice.Guarded.Checks
import GitPractice.Guarded.Parser
import GitPractice.Guarded.Session
import GitPractice.Ids
import GitPractice.Json.Basic
import GitPractice.Json.Decoding
import GitPractice.Json.Printer
import GitPractice.Json.Reader
import GitPractice.Json.Records
import GitPractice.Line.Spelling
import GitPractice.Line.Token
import GitPractice.Loading
import GitPractice.Main
import GitPractice.Manual
import GitPractice.Outcome
import GitPractice.Plan
import GitPractice.Report.Answer
import GitPractice.Report.Listing
import GitPractice.Report.Log
import GitPractice.Repository
import GitPractice.Seed
import GitPractice.Server
import GitPractice.Server.MediaType
import GitPractice.Server.Path
import GitPractice.Server.SessionId
import GitPractice.Session
import GitPractice.Session.Event
import GitPractice.Settings
import GitPractice.Text.Blank
import GitPractice.Text.Digits
import GitPractice.Text.Order
import GitPractice.Text.Slice
import GitPractice.Toml.DateTime
import GitPractice.Toml.Document
import GitPractice.Toml.Number
import GitPractice.Toml.Quoted
import GitPractice.Toml.Records
import GitPractice.Toml.Table
import GitPractice.Transcript
import GitPractice.Proofs.Acceptance
import GitPractice.Proofs.AddReports
import GitPractice.Proofs.Addresses
import GitPractice.Proofs.Atomicity
import GitPractice.Proofs.Author
import GitPractice.Proofs.BranchNames
import GitPractice.Proofs.ByteOrder
import GitPractice.Proofs.Chronology
import GitPractice.Proofs.CommitOptions
import GitPractice.Proofs.Configuration
import GitPractice.Proofs.DateLines
import GitPractice.Proofs.DateReading
import GitPractice.Proofs.DayCount
import GitPractice.Proofs.DefaultSeed
import GitPractice.Proofs.FailFast
import GitPractice.Proofs.Frame
import GitPractice.Proofs.FrontEnds
import GitPractice.Proofs.Grammar
import GitPractice.Proofs.GuardedActions
import GitPractice.Proofs.GuardedParser
import GitPractice.Proofs.GuardedSessions
import GitPractice.Proofs.Help
import GitPractice.Proofs.History
import GitPractice.Proofs.Hunk
import GitPractice.Proofs.Identities
import GitPractice.Proofs.Isolation
import GitPractice.Proofs.JsonFields
import GitPractice.Proofs.JsonLeaves
import GitPractice.Proofs.JsonPrinted
import GitPractice.Proofs.JsonText
import GitPractice.Proofs.Lifecycle
import GitPractice.Proofs.LineEnds
import GitPractice.Proofs.Listings
import GitPractice.Proofs.LogLines
import GitPractice.Proofs.Lookup
import GitPractice.Proofs.MergeNames
import GitPractice.Proofs.Merging
import GitPractice.Proofs.Numbering
import GitPractice.Proofs.Planned
import GitPractice.Proofs.Provenance
import GitPractice.Proofs.Quoting
import GitPractice.Proofs.Records
import GitPractice.Proofs.Replay
import GitPractice.Proofs.Revisions
import GitPractice.Proofs.Scripts
import GitPractice.Proofs.Seed
import GitPractice.Proofs.Seeding
import GitPractice.Proofs.Signatures
import GitPractice.Proofs.Staging
import GitPractice.Proofs.Step
import GitPractice.Proofs.TrimmedLines
import GitPractice.Proofs.Unbroken
import GitPractice.Proofs.Verbatim
import GitPractice.Proofs.WellFormed
