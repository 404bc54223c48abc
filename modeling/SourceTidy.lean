import SourceTidy.Calendar.Cleaning
import SourceTidy.Calendar.Date
import SourceTidy.Calendar.Layout
import SourceTidy.Calendar.Value
import SourceTidy.Change
import SourceTidy.CommandLine.Arguments
import SourceTidy.CommandLine.Help
import SourceTidy.CommandLine.Session
import SourceTidy.Comment
import SourceTidy.Config.Basic
import SourceTidy.Config.Discovery
import SourceTidy.Config.Layer
import SourceTidy.DocBlock.KeyTable
import SourceTidy.DocBlock.Line
import SourceTidy.DocBlock.Normal
import SourceTidy.DocBlock.Span
import SourceTidy.Document
import SourceTidy.Files.Disk
import SourceTidy.Files.Glob
import SourceTidy.Files.Listing
import SourceTidy.Files.Path
import SourceTidy.Files.Walk
import SourceTidy.Indent
import SourceTidy.Main
import SourceTidy.Run.Batch
import SourceTidy.Run.Report
import SourceTidy.Run.Summary
import SourceTidy.Tabs
import SourceTidy.Text.Basic
import SourceTidy.Text.Blank
import SourceTidy.Text.Bytes
import SourceTidy.Text.Decimal
import SourceTidy.Text.Dictionary
import SourceTidy.Text.WordChar
import SourceTidy.Tidy
import SourceTidy.Toml.Document
import SourceTidy.Toml.Lexeme
import SourceTidy.Toml.Number
import SourceTidy.Toml.Reader
import SourceTidy.Toml.Value
import SourceTidy.Proofs.Files.Location
import SourceTidy.Proofs.Files.Enumeration
import SourceTidy.Proofs.Run.Refinement
import SourceTidy.Proofs.Run.Simulation
import SourceTidy.Proofs.Calendar.Written
import SourceTidy.Proofs.Calendar.Canonical
import SourceTidy.Proofs.DocBlock.Lines
import SourceTidy.Proofs.DocBlock.Content
import SourceTidy.Proofs.DocBlock.Edges
import SourceTidy.Proofs.DocBlock.Blocks
import SourceTidy.Proofs.DocBlock.Convergence
import SourceTidy.Proofs.Comment.Toggling
import SourceTidy.Proofs.Indent.Runs
import SourceTidy.Proofs.Indent.Inference
import SourceTidy.Proofs.Indent.Windows
import SourceTidy.Proofs.Indent.Change
import SourceTidy.Proofs.DocBlock.Characters
import SourceTidy.Proofs.DocBlock.Estimate
import SourceTidy.Proofs.Tidy.SecondPass
import SourceTidy.Proofs.DocBlock.EarlyStop
import SourceTidy.Proofs.Tidy.Records
import SourceTidy.Proofs.Calendar.Unread
import SourceTidy.Proofs.DocBlock.ReadBack
import SourceTidy.Proofs.DocBlock.Clean
import SourceTidy.Proofs.DocBlock.Spellings
import SourceTidy.Proofs.DocBlock.Structure
import SourceTidy.Proofs.DocBlock.Scan
import SourceTidy.Proofs.DocBlock.Segmentation
import SourceTidy.Proofs.Tidy.Tokens
import SourceTidy.Proofs.Config.Precedence
import SourceTidy.Proofs.Document.RoundTrip
import SourceTidy.Proofs.Run.Persistence
import SourceTidy.Proofs.Files.Ancestors
import SourceTidy.Proofs.Config.Nearest
import SourceTidy.Proofs.CommandLine.Contract
import SourceTidy.Proofs.DocBlock.Frame
import SourceTidy.Proofs.Text.Runs
import SourceTidy.Proofs.Calendar.Cleaning
import SourceTidy.Proofs.Calendar.SameDate
import SourceTidy.Proofs.Calendar.Cosmetics
import SourceTidy.Proofs.Calendar.Readings
import SourceTidy.Proofs.Run.Totals
import SourceTidy.Proofs.Comment.Reading
import SourceTidy.Proofs.Files.Display
import SourceTidy.Proofs.Files.Exclusion
