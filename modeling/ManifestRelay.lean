import ManifestRelay.Binary.Width
import ManifestRelay.Cache.Entry
import ManifestRelay.Cache.Flight
import ManifestRelay.CommandLine.Address
import ManifestRelay.CommandLine.Flag
import ManifestRelay.CommandLine.Launch
import ManifestRelay.CommandLine.LogFilter
import ManifestRelay.CommandLine.Options
import ManifestRelay.Configuration.File
import ManifestRelay.Configuration.Schema
import ManifestRelay.Configuration.Settings
import ManifestRelay.Decimal.Binary64
import ManifestRelay.Digest.Sha256
import ManifestRelay.Document.Reader
import ManifestRelay.Document.Token
import ManifestRelay.Document.Value
import ManifestRelay.Document.Writer
import ManifestRelay.Fetch.Error
import ManifestRelay.Fetch.Visitor
import ManifestRelay.Glob.Braces
import ManifestRelay.Glob.Matcher
import ManifestRelay.Glob.Matching
import ManifestRelay.Glob.Pattern
import ManifestRelay.Glob.Scan
import ManifestRelay.Glob.Scope
import ManifestRelay.HostName.CombiningTable
import ManifestRelay.HostName.Composition
import ManifestRelay.HostName.Mapping
import ManifestRelay.HostName.MappingTable
import ManifestRelay.HostName.Name
import ManifestRelay.HostName.Punycode
import ManifestRelay.HostName.Ranges
import ManifestRelay.HostName.Script
import ManifestRelay.HostName.ScriptTable
import ManifestRelay.Hosting.Interface
import ManifestRelay.Http.Authority
import ManifestRelay.Http.Body
import ManifestRelay.Http.Escape
import ManifestRelay.Http.Exchange
import ManifestRelay.Http.Head
import ManifestRelay.Http.Host
import ManifestRelay.Http.Location
import ManifestRelay.Http.Login
import ManifestRelay.Http.Response
import ManifestRelay.Http.Status
import ManifestRelay.Main
import ManifestRelay.Metadata.Error
import ManifestRelay.Metadata.Info
import ManifestRelay.Metadata.Token
import ManifestRelay.Polling.Jitter
import ManifestRelay.Polling.Loop
import ManifestRelay.Polling.Timetable
import ManifestRelay.Rehearsal.Backend
import ManifestRelay.Rehearsal.CacheTrial
import ManifestRelay.Rehearsal.HostingTrial
import ManifestRelay.Rehearsal.LookupTrial
import ManifestRelay.Rehearsal.SelectionTrial
import ManifestRelay.Rehearsal.SessionTrial
import ManifestRelay.Rehearsal.Shelf
import ManifestRelay.Rehearsal.StreamTrial
import ManifestRelay.Rehearsal.UsageTrial
import ManifestRelay.Rehearsal.WalkTrial
import ManifestRelay.Rehearsal.World
import ManifestRelay.Relay.Lookup
import ManifestRelay.Relay.Note
import ManifestRelay.Service.Authorization
import ManifestRelay.Service.Call
import ManifestRelay.Service.Serving
import ManifestRelay.Session.ConfigurationStream
import ManifestRelay.Session.Dialogue
import ManifestRelay.Session.ManifestStream
import ManifestRelay.Session.Plan
import ManifestRelay.Session.Settings
import ManifestRelay.Snapshot.Disk
import ManifestRelay.Snapshot.Fetcher
import ManifestRelay.Snapshot.Location
import ManifestRelay.Snapshot.Ref
import ManifestRelay.Stream.Channel
import ManifestRelay.Stream.Status
import ManifestRelay.Text.Blank
import ManifestRelay.Text.Octet
import ManifestRelay.Text.Quoted
import ManifestRelay.Text.Utf8
import ManifestRelay.Text.Visible
import ManifestRelay.Turn.Frame
import ManifestRelay.Turn.Selection
import ManifestRelay.Usage.Counters
import ManifestRelay.Usage.Reporter
import ManifestRelay.Wire.Field
import ManifestRelay.Wire.Message
import ManifestRelay.Yaml.Cursor
import ManifestRelay.Yaml.Event
import ManifestRelay.Yaml.Layout
import ManifestRelay.Yaml.Plain
import ManifestRelay.Yaml.Scalar
import ManifestRelay.Yaml.Token
import ManifestRelay.Yaml.Value
import ManifestRelay.Proofs.Glob.Expansion
import ManifestRelay.Proofs.Glob.Tokens
import ManifestRelay.Proofs.Outcome
import ManifestRelay.Proofs.Glob.Reach
import ManifestRelay.Proofs.Cache.Interleaving
import ManifestRelay.Proofs.Cache.SingleFlight
import ManifestRelay.Proofs.Cache.Operations
import ManifestRelay.Proofs.Session.Run
import ManifestRelay.Proofs.Session.Framing
import ManifestRelay.Proofs.Fetch.Pieces
import ManifestRelay.Proofs.Snapshot.Tree
import ManifestRelay.Proofs.Text.ByteOrder
import ManifestRelay.Proofs.Session.Replay
import ManifestRelay.Proofs.Snapshot.Listing
import ManifestRelay.Proofs.Turn.Admission
import ManifestRelay.Proofs.Session.Delivery
import ManifestRelay.Proofs.Cache.Ledger
import ManifestRelay.Proofs.Snapshot.Narrowing
import ManifestRelay.Proofs.Session.Interruption
import ManifestRelay.Proofs.Session.Judging
import ManifestRelay.Proofs.Session.Ticks
import ManifestRelay.Proofs.Session.Timekeeping
import ManifestRelay.Proofs.Rehearsal.World
import ManifestRelay.Proofs.Session.Deadline
import ManifestRelay.Proofs.Snapshot.Restraint
import ManifestRelay.Proofs.Session.Spending
import ManifestRelay.Proofs.Session.Settling
import ManifestRelay.Proofs.Session.Comparison
import ManifestRelay.Proofs.Session.Tolerance
import ManifestRelay.Proofs.Usage.Conservation
import ManifestRelay.Proofs.Cache.Likeness
import ManifestRelay.Proofs.Cache.Attempts
import ManifestRelay.Proofs.Cache.Separation
import ManifestRelay.Proofs.Cache.Provenance
import ManifestRelay.Proofs.Rehearsal.Lookups
import ManifestRelay.Proofs.Text.Reading
import ManifestRelay.Proofs.Wire.Fields
import ManifestRelay.Proofs.Wire.Messages
import ManifestRelay.Proofs.Service.Serving
import ManifestRelay.Proofs.Service.Ending
import ManifestRelay.Proofs.Session.Spelling
import ManifestRelay.Proofs.Polling.Jitter
import ManifestRelay.Proofs.Polling.Timetable
import ManifestRelay.Proofs.Turn.Limits
import ManifestRelay.Proofs.Turn.Rechunking
import ManifestRelay.Proofs.Stream.Halting
import ManifestRelay.Proofs.Session.Capturing
import ManifestRelay.Proofs.Fetch.Course
import ManifestRelay.Proofs.Snapshot.Handover
import ManifestRelay.Proofs.Snapshot.Location
import ManifestRelay.Proofs.Snapshot.Absence
import ManifestRelay.Proofs.Snapshot.Resolution
import ManifestRelay.Proofs.Snapshot.Containment
import ManifestRelay.Proofs.Cache.Line
import ManifestRelay.Proofs.Cache.Withdrawal
import ManifestRelay.Proofs.Cache.Sweeping
import ManifestRelay.Proofs.Glob.Alternatives
import ManifestRelay.Proofs.Glob.Rewriting
import ManifestRelay.Proofs.Glob.Quoting
import ManifestRelay.Proofs.Glob.Classes
import ManifestRelay.Proofs.Glob.Cutting
import ManifestRelay.Proofs.Configuration.NormalForm
import ManifestRelay.Proofs.Glob.Depth
import ManifestRelay.Proofs.Snapshot.Agreement
import ManifestRelay.Proofs.Snapshot.Enumeration
import ManifestRelay.Proofs.Snapshot.Inventory
