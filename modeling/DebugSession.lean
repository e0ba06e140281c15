import DebugSession.CommandLine.Help
import DebugSession.CommandLine.Options
import DebugSession.CommandLine.Parse
import DebugSession.Config
import DebugSession.Console.Command
import DebugSession.Console.Dialogue
import DebugSession.Console.Reply
import DebugSession.Context
import DebugSession.Duration
import DebugSession.Endpoint
import DebugSession.Engine
import DebugSession.Fault
import DebugSession.Files
import DebugSession.Host.Basic
import DebugSession.Host.Child
import DebugSession.Host.Disk
import DebugSession.Host.Services
import DebugSession.InitScript
import DebugSession.Log.Event
import DebugSession.Log.Filter
import DebugSession.Lookup
import DebugSession.Main
import DebugSession.Options
import DebugSession.Path.Absolute
import DebugSession.Path.Basic
import DebugSession.Program
import DebugSession.Proofs.CommandLine.ScriptArguments
import DebugSession.Proofs.Console.Color
import DebugSession.Proofs.Config.Keys
import DebugSession.Proofs.Console.CommandFile
import DebugSession.Proofs.Console.Dialogue
import DebugSession.Proofs.Console.Frame
import DebugSession.Proofs.Console.Limit
import DebugSession.Proofs.Console.Prompted
import DebugSession.Proofs.Host.Check
import DebugSession.Proofs.Host.Links
import DebugSession.Proofs.Host.Run
import DebugSession.Proofs.Host.Wait
import DebugSession.Proofs.InitScript.Candidates
import DebugSession.Proofs.InitScript.Commands
import DebugSession.Proofs.Lookup.Home
import DebugSession.Proofs.Lookup.Script
import DebugSession.Proofs.Path.Absolute
import DebugSession.Proofs.Path.Join
import DebugSession.Proofs.Path.NormalForm
import DebugSession.Proofs.Path.SameText
import DebugSession.Proofs.Rehearsal.Ends
import DebugSession.Proofs.Rehearsal.OutputLimit
import DebugSession.Proofs.Rehearsal.Rounds
import DebugSession.Proofs.Remote.Endpoint
import DebugSession.Proofs.Remote.Limit
import DebugSession.Proofs.Remote.LineEnds
import DebugSession.Proofs.Remote.Relay
import DebugSession.Proofs.Session.CallOrder
import DebugSession.Proofs.Session.Calls
import DebugSession.Proofs.Session.Checks
import DebugSession.Proofs.Session.Course
import DebugSession.Proofs.Session.Induction
import DebugSession.Proofs.Session.Modes
import DebugSession.Proofs.Session.Opening
import DebugSession.Proofs.Session.Outcomes
import DebugSession.Proofs.Session.Output
import DebugSession.Proofs.Session.Phases
import DebugSession.Proofs.Session.Replay
import DebugSession.Proofs.Session.Report
import DebugSession.Proofs.Session.Targets
import DebugSession.Proofs.Text.Decimal
import DebugSession.Proofs.Text.Lines
import DebugSession.Proofs.Text.Utf8
import DebugSession.Proofs.Text.Words
import DebugSession.Proofs.Toml.Table
import DebugSession.Rehearsal.Journal
import DebugSession.Rehearsal.Stage
import DebugSession.Rehearsal.World
import DebugSession.Remote.Connection
import DebugSession.Remote.Relay
import DebugSession.Session.Launch
import DebugSession.Session.Machine
import DebugSession.Session.Notice
import DebugSession.Session.Services
import DebugSession.Shell.Arithmetic
import DebugSession.Shell.Command
import DebugSession.Shell.Condition
import DebugSession.Shell.Format
import DebugSession.Shell.Pattern
import DebugSession.Shell.Process
import DebugSession.Shell.Reader
import DebugSession.Shell.Run
import DebugSession.Shell.Search
import DebugSession.Shell.Tools
import DebugSession.Shell.Word
import DebugSession.Sink
import DebugSession.Termination
import DebugSession.Text.Blank
import DebugSession.Text.Cut
import DebugSession.Text.Decimal
import DebugSession.Text.Quoted
import DebugSession.Text.Unprintable
import DebugSession.Text.Utf8
import DebugSession.Toml.Document
import DebugSession.Toml.Lexeme
import DebugSession.Toml.Scalar
import DebugSession.Toml.Table
import DebugSession.Verdict
import DebugSession.Proofs.Config.Load
import DebugSession.Proofs.Toml.Quoted
import DebugSession.Proofs.Toml.Written
import DebugSession.Proofs.Host.Write
import DebugSession.Proofs.Rehearsal.World
import DebugSession.Proofs.Duration
import DebugSession.Proofs.Rehearsal.Journal
import DebugSession.Proofs.Rehearsal.SearchPath
