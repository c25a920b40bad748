import LintGate.Address.Basic
import LintGate.Address.Host
import LintGate.Address.Name
import LintGate.Address.Name.Compose
import LintGate.Address.Name.Direction
import LintGate.Address.Name.Fold
import LintGate.Address.Name.Mark
import LintGate.Address.Page
import LintGate.Address.Path
import LintGate.Address.Percent
import LintGate.Address.Punycode
import LintGate.Address.Read
import LintGate.AllowList
import LintGate.CommandLine
import LintGate.Config
import LintGate.Config.Read
import LintGate.Discovery
import LintGate.Discovery.Git
import LintGate.Fault
import LintGate.Glob
import LintGate.Json
import LintGate.Judgement
import LintGate.Lint.Outcome
import LintGate.Lint.Problems
import LintGate.Lint.Run
import LintGate.Machine.FileSystem
import LintGate.Machine.Process
import LintGate.Machine.Scripted
import LintGate.Machine.Web
import LintGate.Main
import LintGate.Path
import LintGate.Program.Basic
import LintGate.Registry
import LintGate.Report
import LintGate.Rules
import LintGate.Sandbox
import LintGate.Script
import LintGate.Strategy
import LintGate.Text.Blank
import LintGate.Text.CodeTable
import LintGate.Text.Digit
import LintGate.Text.Lines
import LintGate.Text.Ordered
import LintGate.Text.Style
import LintGate.Text.Utf8
import LintGate.Toml.Document
import LintGate.Toml.Scalar
import LintGate.Toml.Token
import LintGate.Toml.Value
import LintGate.Tool.Detect
import LintGate.Tool.Install
import LintGate.Tool.Release
import LintGate.Tool.Source
import LintGate.Tool.StatusReport
import LintGate.Tool.Surroundings
import LintGate.Tool.Version
import LintGate.Verify
import LintGate.Proofs.Lint.Partition
import LintGate.Proofs.Lint.Schedule
import LintGate.Proofs.Judgement
import LintGate.Proofs.Discovery.Identity
import LintGate.Proofs.Discovery.Pruning
import LintGate.Proofs.Program.Pool
import LintGate.Proofs.Registry
import LintGate.Proofs.Sandbox.Account
import LintGate.Proofs.Sandbox.Balance
import LintGate.Proofs.Sandbox.Names
import LintGate.Proofs.Sandbox.Teardown
import LintGate.Proofs.Text.ByteOrder
import LintGate.Proofs.Text.Sort
import LintGate.Proofs.AllowList.Remedy
import LintGate.Proofs.Program.Trace
import LintGate.Proofs.Verify.Stages
import LintGate.Proofs.Verify.Tool
import LintGate.Proofs.Verify.Course
import LintGate.Proofs.Verify.Process
import LintGate.Proofs.Json.Reader
import LintGate.Proofs.Json.RoundTrip
import LintGate.Proofs.Report
import LintGate.Proofs.Program.Exchange
import LintGate.Proofs.Lint.Shift
import LintGate.Proofs.Strategy.Path
import LintGate.Proofs.Strategy.Independence
import LintGate.Proofs.Verify.Order
import LintGate.Proofs.Verify.Sandboxed
import LintGate.Proofs.Verify.Commands
import LintGate.Proofs.Interrupt.Custody
import LintGate.Proofs.Interrupt.Process
import LintGate.Proofs.Interrupt.Patience
import LintGate.Proofs.Interrupt.Calm
import LintGate.Proofs.Interrupt.Exit
import LintGate.Proofs.Strategy.Operand
import LintGate.Proofs.AllowList.Advice
import LintGate.Proofs.Tool.Status
import LintGate.Proofs.Toml.Lexer
import LintGate.Proofs.Toml.Number
import LintGate.Proofs.Toml.Written
import LintGate.Proofs.Toml.Growth
import LintGate.Proofs.Toml.Additions
import LintGate.Proofs.Config.Document
import LintGate.Proofs.Script.Spelling
import LintGate.Proofs.AllowList.Order
import LintGate.Proofs.AllowList.Repetition
import LintGate.Proofs.Discovery.Narrowing
import LintGate.Proofs.Discovery.Order
import LintGate.Proofs.Discovery.Inquiry
import LintGate.Proofs.Machine.Node
import LintGate.Proofs.Machine.Resolve
import LintGate.Proofs.Machine.Place
import LintGate.Proofs.Machine.Change
import LintGate.Proofs.Machine.Files
import LintGate.Proofs.Tool.Course
import LintGate.Proofs.Tool.Depot
import LintGate.Proofs.Tool.Replacing
import LintGate.Proofs.Tool.Clearing
import LintGate.Proofs.Tool.Verified
import LintGate.Proofs.Tool.Failure
import LintGate.Proofs.Text.Faults
import LintGate.Proofs.Lint.Outcome
import LintGate.Proofs.Tool.Agreement
import LintGate.Proofs.Path.Below
import LintGate.Proofs.Tool.Inside
import LintGate.Proofs.Program.Leads
import LintGate.Proofs.Sandbox.Ledger
import LintGate.Proofs.Sandbox.Ways
import LintGate.Proofs.Interrupt.Beside
import LintGate.Proofs.Strategy.Final
import LintGate.Proofs.Rules.Literal
import LintGate.Proofs.Text.Search
import LintGate.Proofs.Tool.Version
import LintGate.Proofs.Text.Style
import LintGate.Proofs.Report.Writing
import LintGate.Proofs.Report.Human
import LintGate.Proofs.Config.Reading
import LintGate.Proofs.Config.Layers
import LintGate.Proofs.AllowList.Spelling
import LintGate.Proofs.CommandLine.Number
import LintGate.Proofs.CommandLine.Words
import LintGate.Proofs.CommandLine.Reading
import LintGate.Proofs.CommandLine.Choices
import LintGate.Proofs.CommandLine.Line
import LintGate.Proofs.CommandLine.Arrangement
