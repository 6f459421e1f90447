import LocalPlay.Main
import LocalPlay.Overlay.Guest
import LocalPlay.Overlay.Service
import LocalPlay.Worker.Forwarder
import LocalPlay.Proofs.Wire.Layout
import LocalPlay.Proofs.Wire.Packet
import LocalPlay.Proofs.Wire.Canonical
import LocalPlay.Proofs.Wire.Acceptance
import LocalPlay.Proofs.Wire.Bounds
import LocalPlay.Proofs.Wire.Reassembly
import LocalPlay.Proofs.Wire.RoundTrip
import LocalPlay.Proofs.Wire.Resending
import LocalPlay.Proofs.Text.Utf8
import LocalPlay.Proofs.Wire.Passphrase
import LocalPlay.Proofs.Net.Field
import LocalPlay.Proofs.Net.Interface
import LocalPlay.Proofs.Timing.Latch
import LocalPlay.Proofs.Timing.Schedule
import LocalPlay.Proofs.Timing.WaitingRoom
import LocalPlay.Proofs.Timing.Countdown
import LocalPlay.Proofs.Timing.Actions
import LocalPlay.Proofs.Timing.Timers
import LocalPlay.Proofs.Numbering
import LocalPlay.Proofs.Splits
import LocalPlay.Proofs.Overlay.Turn
import LocalPlay.Proofs.Overlay.Move
import LocalPlay.Proofs.Overlay.Sending
import LocalPlay.Proofs.Overlay.Ledger
import LocalPlay.Proofs.Overlay.Applicants
import LocalPlay.Proofs.Overlay.Failures
import LocalPlay.Proofs.Overlay.Reach
import LocalPlay.Proofs.Overlay.Seating
import LocalPlay.Proofs.Overlay.Addresses
import LocalPlay.Proofs.Overlay.Confinement
import LocalPlay.Proofs.Overlay.Workers
import LocalPlay.Proofs.Overlay.Forwarding
import LocalPlay.Proofs.Overlay.Losses
import LocalPlay.Proofs.Overlay.Corruption
import LocalPlay.Proofs.Overlay.Transparency
import LocalPlay.Proofs.Overlay.Routing
import LocalPlay.Proofs.Overlay.Service
import LocalPlay.Proofs.Overlay.Window
import LocalPlay.Proofs.Overlay.Bearers
import LocalPlay.Proofs.Overlay.Visit
import LocalPlay.Proofs.Overlay.Readiness
import LocalPlay.Proofs.Worker.Journal
import LocalPlay.Proofs.Worker.Stopping
import LocalPlay.Proofs.Session.History
import LocalPlay.Proofs.Session.Plain
import LocalPlay.Proofs.Session.Moves
import LocalPlay.Proofs.Session.Streams
import LocalPlay.Proofs.Session.Separation
import LocalPlay.Proofs.Session.Provenance
import LocalPlay.Proofs.Session.Steps
import LocalPlay.Proofs.Session.Stretches.Moves
import LocalPlay.Proofs.Session.Course
import LocalPlay.Proofs.Session.Moment
import LocalPlay.Proofs.Session.Link
import LocalPlay.Proofs.Session.Announcement
import LocalPlay.Proofs.Session.Confirmation
import LocalPlay.Proofs.Session.Departure
import LocalPlay.Proofs.Session.Standing
import LocalPlay.Proofs.Session.Hosting
import LocalPlay.Proofs.Session.Coherence
import LocalPlay.Proofs.Session.Stretches.Watch
import LocalPlay.Proofs.Session.Idling
import LocalPlay.Proofs.Session.Passphrases
import LocalPlay.Proofs.Session.Residue
import LocalPlay.Proofs.Session.Confinement
import LocalPlay.Proofs.Session.Patience
import LocalPlay.Proofs.Session.Errors
import LocalPlay.Proofs.Session.Creation
import LocalPlay.Proofs.Session.Advertising
import LocalPlay.Proofs.Session.Placement
import LocalPlay.Proofs.Session.Admission
import LocalPlay.Proofs.Session.Reopening
import LocalPlay.Proofs.Session.Stretches.Findings
import LocalPlay.Proofs.Session.Waiting
import LocalPlay.Proofs.Session.WaitingRoom
import LocalPlay.Proofs.Session.Answers
import LocalPlay.Proofs.Session.Scanning
import LocalPlay.Proofs.Session.Removals
import LocalPlay.Proofs.Settings.Rendering
