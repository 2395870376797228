import PathControl.CommandLine.Files
import PathControl.CommandLine.Invocation
import PathControl.CommandLine.Launch
import PathControl.CommandLine.Option
import PathControl.Decimal.Binary64
import PathControl.Decimal.Fixed
import PathControl.Decimal.Reading
import PathControl.Decimal.Shortest
import PathControl.Delay.Estimator
import PathControl.Delay.Trigger
import PathControl.Endpoint.ActivePath
import PathControl.Endpoint.Basic
import PathControl.Endpoint.Control
import PathControl.Endpoint.Emission
import PathControl.Endpoint.Event
import PathControl.Error
import PathControl.Fault
import PathControl.Main
import PathControl.Negotiation.Coordinator
import PathControl.Negotiation.TimerWheel
import PathControl.Net.Address
import PathControl.Path
import PathControl.Path.Port
import PathControl.Proofs.Delay.Estimator
import PathControl.Proofs.Delay.Offset
import PathControl.Proofs.Delay.SampleLog
import PathControl.Proofs.Delay.Trigger
import PathControl.Proofs.Endpoint.Accounting
import PathControl.Proofs.Endpoint.Bookkeeping
import PathControl.Proofs.Endpoint.Copies
import PathControl.Proofs.Endpoint.Custody
import PathControl.Proofs.Endpoint.Effects
import PathControl.Proofs.Endpoint.Faultless
import PathControl.Proofs.Endpoint.Ledger
import PathControl.Proofs.Endpoint.Lockstep
import PathControl.Proofs.Endpoint.Provenance
import PathControl.Proofs.Endpoint.Spending
import PathControl.Proofs.Endpoint.Stimulus
import PathControl.Proofs.Endpoint.Switching
import PathControl.Proofs.Handshake.Agreement
import PathControl.Proofs.Handshake.Correspondence
import PathControl.Proofs.Handshake.Crossing
import PathControl.Proofs.Handshake.Endpoints
import PathControl.Proofs.Handshake.Exchange
import PathControl.Proofs.Handshake.LateCopies
import PathControl.Proofs.Handshake.Party
import PathControl.Proofs.Handshake.Spending
import PathControl.Proofs.Negotiation.Coupling
import PathControl.Proofs.Negotiation.Lifecycle
import PathControl.Proofs.Negotiation.Pacing
import PathControl.Proofs.Negotiation.Run
import PathControl.Proofs.Negotiation.Wheel
import PathControl.Proofs.Negotiation.WheelHistory
import PathControl.Proofs.Text.Numeral
import PathControl.Proofs.Time.Throttle
import PathControl.Proofs.Transport.Custody
import PathControl.Proofs.Transport.Flow
import PathControl.Proofs.Transport.Handover
import PathControl.Proofs.Transport.Loans
import PathControl.Proofs.Transport.Losses
import PathControl.Proofs.Transport.Passage
import PathControl.Proofs.Transport.Passes
import PathControl.Proofs.Transport.Queueing
import PathControl.Proofs.Transport.Recording
import PathControl.Proofs.Wire.AddressText
import PathControl.Proofs.Wire.Checksum
import PathControl.Proofs.Wire.Field
import PathControl.Proofs.Wire.Grammar
import PathControl.Proofs.Wire.HeaderInverse
import PathControl.Proofs.Wire.InPlace
import PathControl.Proofs.Wire.Residue
import PathControl.Proofs.Wire.RoundTrip
import PathControl.Proofs.Wire.Verification
import PathControl.Report.Invocation
import PathControl.Report.Record
import PathControl.Report.State
import PathControl.Session.Basic
import PathControl.Session.Schedule
import PathControl.Session.Timed
import PathControl.Settings.Addressing
import PathControl.Settings.Basic
import PathControl.Settings.Text
import PathControl.Stats
import PathControl.Text.Blank
import PathControl.Text.Digits
import PathControl.Time.Clock
import PathControl.Time.DelayText
import PathControl.Time.Duration
import PathControl.Time.DurationText
import PathControl.Time.Throttle
import PathControl.Toml.Document
import PathControl.Toml.Grammar
import PathControl.Toml.Lexical
import PathControl.Toml.Number
import PathControl.Toml.Quoted
import PathControl.Toml.Value
import PathControl.Transport.Buffer
import PathControl.Transport.Filters
import PathControl.Transport.FrameQueue
import PathControl.Transport.Link
import PathControl.Transport.Nic
import PathControl.Transport.Pool
import PathControl.Transport.Pump
import PathControl.Transport.ScriptedNic
import PathControl.Wire.Bytes
import PathControl.Wire.Checksum
import PathControl.Wire.ControlFrame
import PathControl.Wire.Datagram
import PathControl.Wire.Envelope
import PathControl.Wire.HardwareAddress
import PathControl.Wire.Header
