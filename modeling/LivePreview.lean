import LivePreview.Application.Commands
import LivePreview.Application.Fault
import LivePreview.Application.HostSession
import LivePreview.Application.Opening
import LivePreview.Application.Report
import LivePreview.Application.Run
import LivePreview.Application.Startup
import LivePreview.Application.Watch
import LivePreview.Backend.Call
import LivePreview.Backend.Mapping
import LivePreview.Backend.Scripted
import LivePreview.Blake3.Compress
import LivePreview.Blake3.Hash
import LivePreview.Cache.Recent
import LivePreview.Cache.Render
import LivePreview.CommandLine.Command
import LivePreview.CommandLine.Draft
import LivePreview.CommandLine.OptionName
import LivePreview.CommandLine.Reader
import LivePreview.CommandLine.Usage
import LivePreview.Compiler.Answer
import LivePreview.Compiler.Page
import LivePreview.Compiler.Stage
import LivePreview.Compiler.State
import LivePreview.Config.Basic
import LivePreview.Config.Locate
import LivePreview.Config.Reader
import LivePreview.Console.Line
import LivePreview.Console.Notice
import LivePreview.Console.Status
import LivePreview.Diagnostic.Basic
import LivePreview.Diagnostic.Marker
import LivePreview.Diagnostic.ShortForm
import LivePreview.Disk.Basic
import LivePreview.Document.Buffer
import LivePreview.Document.Kind
import LivePreview.Event
import LivePreview.Export.Format
import LivePreview.Export.PageRange
import LivePreview.Failure
import LivePreview.Gate.Debouncer
import LivePreview.Gate.Loop
import LivePreview.Host.Program
import LivePreview.Host.Request
import LivePreview.Interchange
import LivePreview.Json.Basic
import LivePreview.Json.Decode
import LivePreview.Json.Printer
import LivePreview.Json.Reader
import LivePreview.Json.Record
import LivePreview.Link.Host
import LivePreview.Link.Target
import LivePreview.Main
import LivePreview.Number.Dyadic
import LivePreview.Number.Shortest
import LivePreview.Page.Decoder
import LivePreview.Page.Image
import LivePreview.Page.Key
import LivePreview.Path.Basic
import LivePreview.Png.Chunk
import LivePreview.Png.Image
import LivePreview.Png.Inflate
import LivePreview.Position
import LivePreview.Preview.Click
import LivePreview.Preview.Cycle
import LivePreview.Preview.Splice
import LivePreview.Preview.State
import LivePreview.Preview.Ticket
import LivePreview.Proofs.Application.Acceptance
import LivePreview.Proofs.Cache.History
import LivePreview.Proofs.Cache.Kept
import LivePreview.Proofs.Cache.Recency
import LivePreview.Proofs.Compiler.BusyCompiler
import LivePreview.Proofs.Compiler.Folder
import LivePreview.Proofs.Compiler.Generations
import LivePreview.Proofs.Compiler.Holding
import LivePreview.Proofs.Compiler.Listing
import LivePreview.Proofs.Compiler.OwnPages
import LivePreview.Proofs.Compiler.Publication
import LivePreview.Proofs.Compiler.Ranking
import LivePreview.Proofs.Compiler.Reading
import LivePreview.Proofs.Compiler.Selection
import LivePreview.Proofs.Compiler.Service
import LivePreview.Proofs.Compiler.Serving
import LivePreview.Proofs.Compiler.Verdict
import LivePreview.Proofs.Compiler.WithFiles
import LivePreview.Proofs.Config.Search
import LivePreview.Proofs.Console.Screen
import LivePreview.Proofs.Custody
import LivePreview.Proofs.Diagnostic.Collection
import LivePreview.Proofs.Diagnostic.Header
import LivePreview.Proofs.Diagnostic.Lookalikes
import LivePreview.Proofs.Diagnostic.Outline
import LivePreview.Proofs.Diagnostic.Projection
import LivePreview.Proofs.Diagnostic.Report
import LivePreview.Proofs.Diagnostic.RoundTrip
import LivePreview.Proofs.Diagnostic.Rows
import LivePreview.Proofs.Export.OutputPath
import LivePreview.Proofs.Export.PageRange
import LivePreview.Proofs.Files.Basic
import LivePreview.Proofs.Files.CompiledText
import LivePreview.Proofs.Files.Service
import LivePreview.Proofs.Gate.Deliveries
import LivePreview.Proofs.Gate.Readiness
import LivePreview.Proofs.Host.Runs
import LivePreview.Proofs.Interchange
import LivePreview.Proofs.Json.Layout
import LivePreview.Proofs.Json.Scalars
import LivePreview.Proofs.Number.Equality
import LivePreview.Proofs.Path.Ancestors
import LivePreview.Proofs.Path.Components
import LivePreview.Proofs.Path.FileName
import LivePreview.Proofs.Preview.Agreement
import LivePreview.Proofs.Preview.BusyEngine
import LivePreview.Proofs.Preview.Calls
import LivePreview.Proofs.Preview.Coupling
import LivePreview.Proofs.Preview.Courses
import LivePreview.Proofs.Preview.Following
import LivePreview.Proofs.Preview.Frame
import LivePreview.Proofs.Preview.Images
import LivePreview.Proofs.Preview.Keys
import LivePreview.Proofs.Preview.Ledger
import LivePreview.Proofs.Preview.Mirroring
import LivePreview.Proofs.Preview.Outcomes
import LivePreview.Proofs.Preview.Outlook
import LivePreview.Proofs.Preview.Phases
import LivePreview.Proofs.Preview.Placement
import LivePreview.Proofs.Preview.Range
import LivePreview.Proofs.Preview.Retention
import LivePreview.Proofs.Preview.Scene
import LivePreview.Proofs.Preview.Showing
import LivePreview.Proofs.Preview.Succession
import LivePreview.Proofs.Preview.Telling
import LivePreview.Proofs.Preview.TicketOrder
import LivePreview.Proofs.Preview.View
import LivePreview.Proofs.Run
import LivePreview.Proofs.Session.Alone
import LivePreview.Proofs.Session.BusySession
import LivePreview.Proofs.Session.Clicks
import LivePreview.Proofs.Session.Cursor
import LivePreview.Proofs.Session.Driving
import LivePreview.Proofs.Session.Editing
import LivePreview.Proofs.Session.Frame
import LivePreview.Proofs.Session.Markers
import LivePreview.Proofs.Session.Notices
import LivePreview.Proofs.Session.Record
import LivePreview.Proofs.Session.Saved
import LivePreview.Proofs.Session.Saving
import LivePreview.Proofs.Session.Selections
import LivePreview.Proofs.Session.WithFiles
import LivePreview.Proofs.Text.Columns
import LivePreview.Proofs.Text.Cuts
import LivePreview.Proofs.Text.Digits
import LivePreview.Proofs.Text.LineIndex
import LivePreview.Proofs.Text.Lines
import LivePreview.Proofs.Text.Offset
import LivePreview.Proofs.Texts
import LivePreview.Proofs.Toy.Drawn
import LivePreview.Proofs.Toy.Edits
import LivePreview.Proofs.Toy.Feed
import LivePreview.Proofs.Toy.LastFetch
import LivePreview.Proofs.Toy.Lone
import LivePreview.Proofs.Toy.Overlap
import LivePreview.Proofs.Toy.OwnText
import LivePreview.Proofs.Toy.Place
import LivePreview.Proofs.Toy.Repeat
import LivePreview.Proofs.Toy.Script
import LivePreview.Proofs.Toy.Service
import LivePreview.Proofs.Watch.ExternalWrite
import LivePreview.Proofs.Watch.Relevance
import LivePreview.Proofs.Watch.Watching
import LivePreview.Session.Operation
import LivePreview.Session.Rank
import LivePreview.Session.State
import LivePreview.Simulation.CompilerScript
import LivePreview.Simulation.Machine
import LivePreview.Simulation.Overtake
import LivePreview.Simulation.Scenario
import LivePreview.Simulation.Script
import LivePreview.Simulation.StandIn
import LivePreview.Simulation.Transcript
import LivePreview.Simulation.WatchScript
import LivePreview.Simulation.World
import LivePreview.Text.Basic
import LivePreview.Text.Digits
import LivePreview.Text.Duration
import LivePreview.Text.Hex
import LivePreview.Text.LineIndex
import LivePreview.Text.Offset
import LivePreview.Text.Utf8
import LivePreview.Toml.Assembly
import LivePreview.Toml.Quoted
import LivePreview.Toml.Reader
import LivePreview.Toml.Scalar
import LivePreview.Toml.Value
import LivePreview.Toy.Backend
import LivePreview.Toy.Layout
import LivePreview.Watch.Change
import LivePreview.Watch.Reload
