import MarkerBoard.Block.Edit
import MarkerBoard.Block.Parse
import MarkerBoard.Board.Defaults
import MarkerBoard.Board.Load
import MarkerBoard.Board.Merge
import MarkerBoard.Board.Override
import MarkerBoard.Board.Priority
import MarkerBoard.Board.Record
import MarkerBoard.Board.Settings
import MarkerBoard.Checked.Basic
import MarkerBoard.Checked.Read
import MarkerBoard.Command.Arguments
import MarkerBoard.Command.Console
import MarkerBoard.Command.Reporting
import MarkerBoard.Command.Request
import MarkerBoard.Command.Run
import MarkerBoard.Command.Scanning
import MarkerBoard.Comment
import MarkerBoard.Digest.Sha256
import MarkerBoard.Disk.Basic
import MarkerBoard.Disk.Change
import MarkerBoard.Disk.Locate
import MarkerBoard.EnvFile.Load
import MarkerBoard.EnvFile.Read
import MarkerBoard.Failure
import MarkerBoard.Git
import MarkerBoard.Git.Repository
import MarkerBoard.Grammar.Basic
import MarkerBoard.Grammar.Line
import MarkerBoard.History.Basic
import MarkerBoard.History.Changes
import MarkerBoard.History.Overview
import MarkerBoard.History.Scanned
import MarkerBoard.History.Store
import MarkerBoard.History.Task
import MarkerBoard.History.Trends
import MarkerBoard.Ignore.Match
import MarkerBoard.Ignore.Pattern
import MarkerBoard.Item
import MarkerBoard.Json.Basic
import MarkerBoard.Json.Printer
import MarkerBoard.Json.Reader
import MarkerBoard.Json.Token
import MarkerBoard.Keyed
import MarkerBoard.Line
import MarkerBoard.Main
import MarkerBoard.Moment.Basic
import MarkerBoard.Moment.Calendar
import MarkerBoard.Moment.Iso
import MarkerBoard.Moment.Minute
import MarkerBoard.Moment.Timestamp
import MarkerBoard.Move
import MarkerBoard.Number.Binary64
import MarkerBoard.Path
import MarkerBoard.Project
import MarkerBoard.Proofs.Block.Commute
import MarkerBoard.Proofs.Block.Edit
import MarkerBoard.Proofs.Block.Endings
import MarkerBoard.Proofs.Block.Extent
import MarkerBoard.Proofs.Block.Form
import MarkerBoard.Proofs.Block.Frame
import MarkerBoard.Proofs.Block.Items
import MarkerBoard.Proofs.Block.Marker
import MarkerBoard.Proofs.Block.Noteless
import MarkerBoard.Proofs.Block.Pieces
import MarkerBoard.Proofs.Block.Recorded
import MarkerBoard.Proofs.Block.Repeat
import MarkerBoard.Proofs.Block.Reread
import MarkerBoard.Proofs.Block.Terminator
import MarkerBoard.Proofs.Board.Extend
import MarkerBoard.Proofs.Board.Layers
import MarkerBoard.Proofs.Board.Load
import MarkerBoard.Proofs.Checked.Read
import MarkerBoard.Proofs.Command.Console
import MarkerBoard.Proofs.Command.Move
import MarkerBoard.Proofs.Command.Run
import MarkerBoard.Proofs.Disk.Fresh
import MarkerBoard.Proofs.Disk.Leads
import MarkerBoard.Proofs.Disk.Make
import MarkerBoard.Proofs.Disk.Project
import MarkerBoard.Proofs.Disk.Put
import MarkerBoard.Proofs.Disk.Remake
import MarkerBoard.Proofs.Disk.Replace
import MarkerBoard.Proofs.Disk.Sound
import MarkerBoard.Proofs.Disk.Temporary
import MarkerBoard.Proofs.Disk.Tree
import MarkerBoard.Proofs.Disk.Unread
import MarkerBoard.Proofs.Disk.Unseen
import MarkerBoard.Proofs.Entered
import MarkerBoard.Proofs.Grammar.Lines
import MarkerBoard.Proofs.Grammar.Marker
import MarkerBoard.Proofs.Grammar.Note
import MarkerBoard.Proofs.Grammar.Opening
import MarkerBoard.Proofs.Grammar.Silent
import MarkerBoard.Proofs.Grammar.Transition
import MarkerBoard.Proofs.Grammar.Words
import MarkerBoard.Proofs.History.Again
import MarkerBoard.Proofs.History.Agree
import MarkerBoard.Proofs.History.Cleanup
import MarkerBoard.Proofs.History.Columns
import MarkerBoard.Proofs.History.Counts
import MarkerBoard.Proofs.History.Cutoff
import MarkerBoard.Proofs.History.Extra
import MarkerBoard.Proofs.History.Failed
import MarkerBoard.Proofs.History.Fingerprint
import MarkerBoard.Proofs.History.Frame
import MarkerBoard.Proofs.History.Held
import MarkerBoard.Proofs.History.Patch
import MarkerBoard.Proofs.History.Queries
import MarkerBoard.Proofs.History.Read
import MarkerBoard.Proofs.History.Record
import MarkerBoard.Proofs.History.Reload
import MarkerBoard.Proofs.History.Replay
import MarkerBoard.Proofs.History.Run
import MarkerBoard.Proofs.History.Saved
import MarkerBoard.Proofs.History.Store
import MarkerBoard.Proofs.History.Text
import MarkerBoard.Proofs.History.Unseen
import MarkerBoard.Proofs.History.Visits
import MarkerBoard.Proofs.Json.Floats
import MarkerBoard.Proofs.Json.Lines
import MarkerBoard.Proofs.Json.Regular
import MarkerBoard.Proofs.Json.RoundTrip
import MarkerBoard.Proofs.Json.Tokens
import MarkerBoard.Proofs.Keyed
import MarkerBoard.Proofs.Line.Cut
import MarkerBoard.Proofs.Moment.Iso
import MarkerBoard.Proofs.Moment.Minute
import MarkerBoard.Proofs.Moment.Span
import MarkerBoard.Proofs.Move
import MarkerBoard.Proofs.Number.Nearest
import MarkerBoard.Proofs.Number.Shortest
import MarkerBoard.Proofs.Path
import MarkerBoard.Proofs.Project
import MarkerBoard.Proofs.Scan
import MarkerBoard.Proofs.Session.Coherent
import MarkerBoard.Proofs.Session.Conserved
import MarkerBoard.Proofs.Session.Entries
import MarkerBoard.Proofs.Session.InPlace
import MarkerBoard.Proofs.Session.Located
import MarkerBoard.Proofs.Session.Moved
import MarkerBoard.Proofs.Session.Refine
import MarkerBoard.Proofs.Session.Refused
import MarkerBoard.Proofs.Session.Renamed
import MarkerBoard.Proofs.Session.Sightings
import MarkerBoard.Proofs.Steps
import MarkerBoard.Proofs.Stripped
import MarkerBoard.Proofs.Tally
import MarkerBoard.Proofs.Text.Decimal
import MarkerBoard.Proofs.Text.Ends
import MarkerBoard.Proofs.Text.Pieces
import MarkerBoard.Proofs.Text.Utf8
import MarkerBoard.Proofs.Walk
import MarkerBoard.Proofs.Walk.Selected
import MarkerBoard.Proofs.World
import MarkerBoard.Render.Lines
import MarkerBoard.Render.Markup
import MarkerBoard.Render.Table
import MarkerBoard.Render.Width
import MarkerBoard.Scan
import MarkerBoard.Session
import MarkerBoard.Text.Basic
import MarkerBoard.Text.Digit
import MarkerBoard.Text.Printable
import MarkerBoard.Text.Quoted
import MarkerBoard.Text.Ranges
import MarkerBoard.Text.Upper
import MarkerBoard.Text.Utf8
import MarkerBoard.Text.WordChar
import MarkerBoard.Walk
import MarkerBoard.World
