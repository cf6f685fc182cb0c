import EngineTrials.Bench.Record
import EngineTrials.Bench.Result
import EngineTrials.Bench.Runner
import EngineTrials.Bench.Script
import EngineTrials.Bench.Suite
import EngineTrials.Bench.Template
import EngineTrials.CommandLine.Arguments
import EngineTrials.CommandLine.Command
import EngineTrials.CommandLine.FixtureBench
import EngineTrials.CommandLine.FixtureRunner
import EngineTrials.Decimal.Binary64
import EngineTrials.Decimal.Fixed
import EngineTrials.Decimal.Shortest
import EngineTrials.Engine.Basic
import EngineTrials.Engine.Outcome
import EngineTrials.Engine.Process
import EngineTrials.Engine.Record
import EngineTrials.Engine.Transcript
import EngineTrials.FileSystem.Basic
import EngineTrials.FileSystem.Edit
import EngineTrials.Fixture.Basic
import EngineTrials.Fixture.Declaration
import EngineTrials.Fixture.Directive
import EngineTrials.Fixture.Expectation
import EngineTrials.Fixture.Header
import EngineTrials.Glob
import EngineTrials.Json.Basic
import EngineTrials.Json.Decode
import EngineTrials.Json.Numeral
import EngineTrials.Json.Reader
import EngineTrials.Load.Basic
import EngineTrials.Load.Loader
import EngineTrials.Path
import EngineTrials.Pattern.Basic
import EngineTrials.Pattern.Reader
import EngineTrials.Program.Basic
import EngineTrials.Program.Driver
import EngineTrials.Program.Lines
import EngineTrials.Program.Prelude
import EngineTrials.Proofs.Bench.Assembly
import EngineTrials.Proofs.Bench.Driver
import EngineTrials.Proofs.Bench.Merging
import EngineTrials.Proofs.Bench.Records
import EngineTrials.Proofs.Bench.Repetition
import EngineTrials.Proofs.Bench.Results
import EngineTrials.Proofs.Bench.Suites
import EngineTrials.Proofs.CommandLine.FixtureRuns
import EngineTrials.Proofs.Engine.Output
import EngineTrials.Proofs.Engine.Records
import EngineTrials.Proofs.Engine.Streams
import EngineTrials.Proofs.Except
import EngineTrials.Proofs.FileSystem.Below
import EngineTrials.Proofs.FileSystem.Canonical
import EngineTrials.Proofs.FileSystem.Components
import EngineTrials.Proofs.FileSystem.Following
import EngineTrials.Proofs.FileSystem.Lookup
import EngineTrials.Proofs.FileSystem.Parent
import EngineTrials.Proofs.FileSystem.Spelling
import EngineTrials.Proofs.FileSystem.Tree
import EngineTrials.Proofs.Fixture.Capabilities
import EngineTrials.Proofs.Fixture.Declarations
import EngineTrials.Proofs.Fixture.Directives
import EngineTrials.Proofs.Fixture.EntryPoints
import EngineTrials.Proofs.Fixture.Sentinel
import EngineTrials.Proofs.Glob.Expression
import EngineTrials.Proofs.Glob.Language
import EngineTrials.Proofs.Glob.Plain
import EngineTrials.Proofs.Json.Decoding
import EngineTrials.Proofs.Json.Grammar
import EngineTrials.Proofs.Json.Members
import EngineTrials.Proofs.Json.Printing
import EngineTrials.Proofs.Json.Reading
import EngineTrials.Proofs.List
import EngineTrials.Proofs.Load.Bounds
import EngineTrials.Proofs.Load.Faults
import EngineTrials.Proofs.Load.Frame
import EngineTrials.Proofs.Load.Graph
import EngineTrials.Proofs.Load.HelperFolders
import EngineTrials.Proofs.Load.Order
import EngineTrials.Proofs.Load.Runs
import EngineTrials.Proofs.Load.Search
import EngineTrials.Proofs.Load.Segments
import EngineTrials.Proofs.Load.Success
import EngineTrials.Proofs.Load.Tracking
import EngineTrials.Proofs.Load.Trail
import EngineTrials.Proofs.Pattern.Places
import EngineTrials.Proofs.Program.Attribution
import EngineTrials.Proofs.Program.Driver
import EngineTrials.Proofs.Program.Lines
import EngineTrials.Proofs.Program.Literal
import EngineTrials.Proofs.Program.Tiling
import EngineTrials.Proofs.Report.Lines
import EngineTrials.Proofs.Report.RoundTrip
import EngineTrials.Proofs.Report.Summaries
import EngineTrials.Proofs.Report.Tally
import EngineTrials.Proofs.Run.Discovery
import EngineTrials.Proofs.Run.Gates
import EngineTrials.Proofs.Run.HelperFiles
import EngineTrials.Proofs.Run.Pool
import EngineTrials.Proofs.Run.Trial
import EngineTrials.Proofs.SkipList.Reading
import EngineTrials.Proofs.Text.Lines
import EngineTrials.Proofs.Text.Replacement
import EngineTrials.Proofs.Text.Searching
import EngineTrials.Proofs.Text.Trimming
import EngineTrials.Proofs.Text.Utf8
import EngineTrials.Proofs.Verdict.RoundTrip
import EngineTrials.Proofs.Verdict.Transcript
import EngineTrials.Report.Basic
import EngineTrials.Report.Json
import EngineTrials.Report.Render
import EngineTrials.Run.Basic
import EngineTrials.Run.Pool
import EngineTrials.Run.Runner
import EngineTrials.Settings.Basic
import EngineTrials.Settings.Json
import EngineTrials.Settings.Yaml
import EngineTrials.SkipList
import EngineTrials.Text.Blank
import EngineTrials.Text.Extending
import EngineTrials.Text.Quote
import EngineTrials.Text.Search
import EngineTrials.Text.Shown
import EngineTrials.Text.Unprintable
import EngineTrials.Text.Utf8
import EngineTrials.Verdict.Basic
import EngineTrials.Verdict.Grade
import EngineTrials.Verdict.Json
import EngineTrials.Yaml.Cursor
import EngineTrials.Yaml.Decode
import EngineTrials.Yaml.Node
import EngineTrials.Yaml.Scalar
import EngineTrials.Yaml.Token
