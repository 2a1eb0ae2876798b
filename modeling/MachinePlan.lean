import MachinePlan.Backend.Basic
import MachinePlan.Backend.Plugins
import MachinePlan.Backend.Preview
import MachinePlan.Backend.Scripted
import MachinePlan.Backend.Vagrant
import MachinePlan.Backend.Version
import MachinePlan.Calendar
import MachinePlan.Command
import MachinePlan.CommandLine.Basic
import MachinePlan.CommandLine.Grammar
import MachinePlan.CommandLine.Invocation
import MachinePlan.CommandLine.Runtime
import MachinePlan.CommandLine.Session
import MachinePlan.CommandLine.Transcript
import MachinePlan.Compile.Arguments
import MachinePlan.Compile.Document
import MachinePlan.Compile.Node
import MachinePlan.Document.Basic
import MachinePlan.Document.Load
import MachinePlan.Document.Node
import MachinePlan.Failure
import MachinePlan.Files.Basic
import MachinePlan.Files.Change
import MachinePlan.Hook.Basic
import MachinePlan.Hook.Directory
import MachinePlan.Hook.Readers
import MachinePlan.Hook.Registry
import MachinePlan.Hook.Script
import MachinePlan.Hook.Source
import MachinePlan.Hook.Standing
import MachinePlan.Journal
import MachinePlan.Json.Basic
import MachinePlan.Json.Reader
import MachinePlan.Main
import MachinePlan.Merge
import MachinePlan.Number.Binary64
import MachinePlan.Number.Decimal
import MachinePlan.Operation
import MachinePlan.Origin
import MachinePlan.Path
import MachinePlan.Preflight.Basic
import MachinePlan.Preflight.Boxes
import MachinePlan.Preflight.Report
import MachinePlan.Printout
import MachinePlan.Proofs.Backend.Accepting
import MachinePlan.Proofs.Backend.Ensuring
import MachinePlan.Proofs.Backend.Installing
import MachinePlan.Proofs.Backend.Layout
import MachinePlan.Proofs.Backend.Listing
import MachinePlan.Proofs.Backend.Lossless
import MachinePlan.Proofs.Backend.Noted
import MachinePlan.Proofs.Backend.Previewing
import MachinePlan.Proofs.Backend.Reasons
import MachinePlan.Proofs.Backend.Traced
import MachinePlan.Proofs.Backend.Writing
import MachinePlan.Proofs.CommandLine.Asking
import MachinePlan.Proofs.CommandLine.DryRun
import MachinePlan.Proofs.CommandLine.ErrorLine
import MachinePlan.Proofs.CommandLine.FilesKept
import MachinePlan.Proofs.CommandLine.Logged
import MachinePlan.Proofs.CommandLine.Plain
import MachinePlan.Proofs.CommandLine.Reported
import MachinePlan.Proofs.CommandLine.SameNodes
import MachinePlan.Proofs.CommandLine.SamePlan
import MachinePlan.Proofs.CommandLine.Sessions
import MachinePlan.Proofs.Compile.Blocks
import MachinePlan.Proofs.Compile.Explained
import MachinePlan.Proofs.Compile.FirstFailure
import MachinePlan.Proofs.Compile.Flattening
import MachinePlan.Proofs.Compile.Keywords
import MachinePlan.Proofs.Compile.Nodewise
import MachinePlan.Proofs.Compile.Problems
import MachinePlan.Proofs.Compile.Shape
import MachinePlan.Proofs.Compile.Traced
import MachinePlan.Proofs.Document.Acceptance
import MachinePlan.Proofs.Document.Entrywise
import MachinePlan.Proofs.Document.Explained
import MachinePlan.Proofs.Document.Layered
import MachinePlan.Proofs.Document.Nodes
import MachinePlan.Proofs.Document.Renamed
import MachinePlan.Proofs.Document.Texts
import MachinePlan.Proofs.Document.Traced
import MachinePlan.Proofs.Entries
import MachinePlan.Proofs.Files.Changing
import MachinePlan.Proofs.Finite
import MachinePlan.Proofs.Hook.Dispatching
import MachinePlan.Proofs.Hook.Naming
import MachinePlan.Proofs.Hook.Overlay
import MachinePlan.Proofs.Hook.Prefix
import MachinePlan.Proofs.Hook.Registering
import MachinePlan.Proofs.Hook.Traced
import MachinePlan.Proofs.Json.Ascii
import MachinePlan.Proofs.Json.Grammar
import MachinePlan.Proofs.Json.Reading
import MachinePlan.Proofs.Json.Writing
import MachinePlan.Proofs.KeyEquality
import MachinePlan.Proofs.Layer
import MachinePlan.Proofs.Merge.Absorbing
import MachinePlan.Proofs.Merge.Assoc
import MachinePlan.Proofs.Merge.Entries
import MachinePlan.Proofs.Merge.Itself
import MachinePlan.Proofs.Merge.Kept
import MachinePlan.Proofs.Merge.Laying
import MachinePlan.Proofs.Merge.PathLaw
import MachinePlan.Proofs.Outcome
import MachinePlan.Proofs.OverrideLocality
import MachinePlan.Proofs.Pairs
import MachinePlan.Proofs.Path
import MachinePlan.Proofs.Preflight.Asking
import MachinePlan.Proofs.Preflight.Foretelling
import MachinePlan.Proofs.Preflight.Reading
import MachinePlan.Proofs.Preflight.Views
import MachinePlan.Proofs.Records
import MachinePlan.Proofs.Run.Calls
import MachinePlan.Proofs.Run.Stages
import MachinePlan.Proofs.Settings
import MachinePlan.Proofs.Text.Breaks
import MachinePlan.Proofs.Text.CodeOrder
import MachinePlan.Proofs.Text.Digits
import MachinePlan.Proofs.Text.Encoding
import MachinePlan.Proofs.Text.Half
import MachinePlan.Proofs.Text.Lines
import MachinePlan.Proofs.Text.Pieces
import MachinePlan.Proofs.Value.Initial
import MachinePlan.Proofs.Value.Jsonable
import MachinePlan.Proofs.Value.Renamed
import MachinePlan.Proofs.Value.Shown
import MachinePlan.Proofs.Version.Dotted
import MachinePlan.Proofs.Version.Meaning
import MachinePlan.Proofs.Wording
import MachinePlan.Proofs.Wordless
import MachinePlan.Proofs.Yaml.Keys
import MachinePlan.Run
import MachinePlan.Settings
import MachinePlan.Shell.Basic
import MachinePlan.Shell.Job
import MachinePlan.Shell.Program
import MachinePlan.Shell.Syntax
import MachinePlan.Text.Blank
import MachinePlan.Text.Charset
import MachinePlan.Text.Digit
import MachinePlan.Text.Half
import MachinePlan.Text.Line
import MachinePlan.Text.Numeral
import MachinePlan.Text.Printable
import MachinePlan.Text.Quoted
import MachinePlan.Value.Alike
import MachinePlan.Value.Basic
import MachinePlan.Value.Elements
import MachinePlan.Value.Key
import MachinePlan.Value.Mapping
import MachinePlan.Value.Remade
import MachinePlan.Value.Ring
import MachinePlan.Value.Text
import MachinePlan.Version.Basic
import MachinePlan.Version.Constraint
import MachinePlan.Yaml.Atom
import MachinePlan.Yaml.Cursor
import MachinePlan.Yaml.Excerpt
import MachinePlan.Yaml.Grammar
import MachinePlan.Yaml.Graph
import MachinePlan.Yaml.Making
import MachinePlan.Yaml.Scalar
import MachinePlan.Yaml.Stream
import MachinePlan.Yaml.Tag
import MachinePlan.Yaml.Token
import MachinePlan.Yaml.Value
