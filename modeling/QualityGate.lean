import QualityGate.Main
import QualityGate.Proofs.Args.Listing
import QualityGate.Proofs.Args.Options
import QualityGate.Proofs.Args.Order
import QualityGate.Proofs.Args.Repeated
import QualityGate.Proofs.Args.Token
import QualityGate.Proofs.Args.Words
import QualityGate.Proofs.Environment.NulSeparated
import QualityGate.Proofs.Environment.Venv
import QualityGate.Proofs.Failure.Causes
import QualityGate.Proofs.Host.FileTree
import QualityGate.Proofs.Host.Lookup
import QualityGate.Proofs.Host.Path
import QualityGate.Proofs.Host.SearchPath
import QualityGate.Proofs.Run.Accepted
import QualityGate.Proofs.Run.Announced
import QualityGate.Proofs.Run.Capture
import QualityGate.Proofs.Run.Course
import QualityGate.Proofs.Run.Modes
import QualityGate.Proofs.Run.Shown
import QualityGate.Proofs.Run.Summary
import QualityGate.Proofs.Session.Content
import QualityGate.Proofs.Session.Excerpt
import QualityGate.Proofs.Session.ExitStatus
import QualityGate.Proofs.Session.Fallback
import QualityGate.Proofs.Session.LineLength
import QualityGate.Proofs.Session.Listing
import QualityGate.Proofs.Session.Report
import QualityGate.Proofs.Session.Selection
import QualityGate.Proofs.Session.Upkeep
import QualityGate.Proofs.Session.Verbosity
import QualityGate.Proofs.Settings.Acceptance
import QualityGate.Proofs.Settings.Decoding
import QualityGate.Proofs.Text.Lossy
import QualityGate.Proofs.Text.Utf8
import QualityGate.Proofs.Toml.Document
import QualityGate.Proofs.Plan.Arguments
import QualityGate.Proofs.Toml.Text
import QualityGate.Proofs.Toml.Array
import QualityGate.Proofs.Toml.Inline
import QualityGate.Proofs.Toml.Blocks
import QualityGate.Proofs.Settings.Assignment
import QualityGate.Proofs.Settings.Written
import QualityGate.Proofs.Session.Layouts
import QualityGate.Proofs.Session.Handover
import QualityGate.Proofs.Toml.Statements
import QualityGate.Proofs.Toml.Redefinition
import QualityGate.Proofs.Session.Redefinition
import QualityGate.Proofs.Environment.Changes
import QualityGate.Proofs.Settings.Timeouts
import QualityGate.Proofs.Session.Quiet
