import Conch.Builtin
import Conch.Bytes
import Conch.Command
import Conch.Command.Draft
import Conch.Command.Parser
import Conch.Command.Printer
import Conch.Command.Tree
import Conch.Context
import Conch.Fault
import Conch.Interpreter
import Conch.Launch
import Conch.Lookup
import Conch.Main
import Conch.Options
import Conch.Path
import Conch.Pattern
import Conch.Pattern.Notation
import Conch.Pipeline.Network
import Conch.Pipeline.Run
import Conch.Program
import Conch.Program.Act
import Conch.Program.Arguments
import Conch.Program.Binary
import Conch.Program.Cat
import Conch.Program.Charset
import Conch.Program.Conversion
import Conch.Program.Count
import Conch.Program.Directories
import Conch.Program.Echo
import Conch.Program.Edit
import Conch.Program.Edit.Command
import Conch.Program.Edit.Reader
import Conch.Program.Ends
import Conch.Program.Env
import Conch.Program.Execution
import Conch.Program.FileName
import Conch.Program.Filter
import Conch.Program.Installed
import Conch.Program.Lines
import Conch.Program.Link
import Conch.Program.Move
import Conch.Program.Number
import Conch.Program.Order
import Conch.Program.Plain
import Conch.Program.Printf
import Conch.Program.Quote
import Conch.Program.Remove
import Conch.Program.Search
import Conch.Program.Sequence
import Conch.Program.Sort
import Conch.Program.Unique
import Conch.Quoting
import Conch.Raw
import Conch.Relay
import Conch.Repl
import Conch.Script.Arithmetic
import Conch.Script.Commands
import Conch.Script.Coupling
import Conch.Script.Expansion
import Conch.Script.Format
import Conch.Script.Lookup
import Conch.Script.Matching
import Conch.Script.Options
import Conch.Script.Reader
import Conch.Script.Redirection
import Conch.Script.Run
import Conch.Script.Shell
import Conch.Script.Signals
import Conch.Script.Start
import Conch.Script.Test
import Conch.Script.Tree
import Conch.Segment
import Conch.Session.Machine
import Conch.Session.Record
import Conch.Session.Start
import Conch.Stage
import Conch.Streams
import Conch.System.Canonical
import Conch.System.Errno
import Conch.System.FileSystem
import Conch.System.Job
import Conch.System.World
import Conch.Text.Blank
import Conch.Text.Digit
import Conch.Text.Numeral
import Conch.Text.Printable
import Conch.Text.Quoted
import Conch.Token
import Conch.Proofs.Reading.Segments
import Conch.Proofs.Reading.Stages
import Conch.Proofs.Reading.Pipelines
import Conch.Proofs.Reading.Grammar
import Conch.Proofs.Reading.Building
import Conch.Proofs.Interpreter.Boundary
import Conch.Proofs.Reading.RoundTrip
import Conch.Proofs.Reading.Precedence
import Conch.Proofs.Reading.StageGrammar
import Conch.Proofs.System.WeakestPre
import Conch.Proofs.Pipeline.Starting
import Conch.Proofs.Pipeline.Invariant
import Conch.Proofs.Pipeline.Conservation
import Conch.Proofs.Pipeline.Progress
import Conch.Proofs.Pipeline.Beside
import Conch.Proofs.Session.Paths
import Conch.Proofs.Session.Turns
import Conch.Proofs.System.Tracking
import Conch.Proofs.Stage.Requests
import Conch.Proofs.Pipeline.Serving
import Conch.Proofs.Pipeline.Wiring
import Conch.Proofs.Pipeline.Subshell
import Conch.Proofs.System.Writing
import Conch.Proofs.Stage.Echo
import Conch.Proofs.Session.Appending
import Conch.Proofs.Reading.Construction
import Conch.Proofs.Interpreter.Console
import Conch.Proofs.Reading.Joining
import Conch.Proofs.Session.Loop
import Conch.Proofs.Reading.Splitting
import Conch.Proofs.System.Exchanges
import Conch.Proofs.Stage.Uses
import Conch.Proofs.Stage.Ownership
import Conch.Proofs.System.Running
import Conch.Proofs.System.Elsewhere
import Conch.Proofs.System.Outlets
import Conch.Proofs.Stage.Output
import Conch.Proofs.Stage.Copying
import Conch.Proofs.Reading.Rejoining
import Conch.Proofs.Reading.Trimming
import Conch.Proofs.Pipeline.Relaying
import Conch.Proofs.Stage.Telling
import Conch.Proofs.Stage.Beginning
import Conch.Proofs.Pipeline.Chronicle
import Conch.Proofs.Pipeline.Unbegun
import Conch.Proofs.Session.Resolving
import Conch.Proofs.Session.Searching
import Conch.Proofs.Stage.Moving
import Conch.Proofs.Stage.Exiting
import Conch.Proofs.Reading.Drawing
import Conch.Proofs.Session.Debugging
