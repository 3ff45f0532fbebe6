import Replication.Cleanup
import Replication.Listing.File
import Replication.Listing.Writer
import Replication.Notification.Notifier
import Replication.Placement
import Replication.Settings.Sources
import Replication.Proofs.Listing.Delivery
import Replication.Proofs.Listing.Standing
import Replication.Proofs.Listing.Cutting
import Replication.Proofs.Listing.Written
import Replication.Proofs.Listing.Coverage
import Replication.Proofs.Listing.Balance
import Replication.Proofs.Json.Lexeme
import Replication.Proofs.Json.Reader
import Replication.Proofs.Json.Shape
import Replication.Proofs.Notification.History
import Replication.Proofs.Notification.Report
import Replication.Proofs.Notification.Wire
import Replication.Proofs.Listing.Grammar
import Replication.Proofs.Listing.Acceptance
import Replication.Proofs.Listing.RoundTrip
import Replication.Proofs.Listing.Arrival
import Replication.Proofs.Listing.CutOff
import Replication.Proofs.Listing.Breakdown
import Replication.Proofs.Notification.Observation
import Replication.Proofs.Notification.Meetings
import Replication.Proofs.Notification.Delivery
import Replication.Proofs.Notification.Reading
import Replication.Proofs.Notification.Ledger
import Replication.Proofs.Notification.Verdict
import Replication.Proofs.Cleanup.Handover
import Replication.Proofs.Cleanup.Flushes
import Replication.Proofs.Location.Below
import Replication.Proofs.Location.Isolation
import Replication.Proofs.Listing.Count
import Replication.Proofs.Listing.Planning
import Replication.Proofs.Listing.Range
import Replication.Proofs.Json.Size
import Replication.Proofs.Notification.SizeGuard
import Replication.Proofs.Notification.OpenRuns
import Replication.Proofs.Location.Stripping
import Replication.Proofs.Location.Mirror
import Replication.Proofs.Listing.Session
import Replication.Proofs.Listing.Room
import Replication.Proofs.Partition.Sides
import Replication.Proofs.Failure.Leaves
import Replication.Proofs.Failure.Agreement
import Replication.Proofs.Failure.Wrapping
import Replication.Proofs.Location.Grouping
import Replication.Proofs.Location.Stems
import Replication.Proofs.Settings.ReadBack
import Replication.Proofs.Settings.Layering
import Replication.Proofs.Text.Lowercase
import Replication.Proofs.Settings.Spelling
import Replication.Proofs.Settings.Naming
import Replication.Proofs.Settings.Override
import Replication.Proofs.Listing.Scan
