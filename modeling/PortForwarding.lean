import PortForwarding.Address.Basic
import PortForwarding.Address.Reader
import PortForwarding.Backoff
import PortForwarding.Certificate.Anchor
import PortForwarding.Certificate.Base64
import PortForwarding.Certificate.Bundle
import PortForwarding.Certificate.Element
import PortForwarding.Desired
import PortForwarding.Http.Authority
import PortForwarding.Http.Target
import PortForwarding.Json.Basic
import PortForwarding.Json.Parser
import PortForwarding.Json.Printer
import PortForwarding.Json.Row
import PortForwarding.KeyLocks
import PortForwarding.Limiter
import PortForwarding.Mapping
import PortForwarding.Memory
import PortForwarding.Notification
import PortForwarding.Pass.Cleanup
import PortForwarding.Pass.Failure
import PortForwarding.Pass.Fleet
import PortForwarding.Pass.Reconcile
import PortForwarding.Plan.Adjustment
import PortForwarding.Plan.Drift
import PortForwarding.Plan.Execution
import PortForwarding.Plan.Operation
import PortForwarding.Plan.Outcome
import PortForwarding.Probe
import PortForwarding.Record.Change
import PortForwarding.Record.Cleanup
import PortForwarding.Record.Failure
import PortForwarding.Reservations
import PortForwarding.Router.Error
import PortForwarding.Router.Rest
import PortForwarding.Router.Url
import PortForwarding.Router.Wire
import PortForwarding.Rule
import PortForwarding.Script
import PortForwarding.Service.Mark
import PortForwarding.Service.Marking
import PortForwarding.Service.Object
import PortForwarding.Service.View
import PortForwarding.Settings
import PortForwarding.Simulation.Cluster
import PortForwarding.Simulation.LockDesk
import PortForwarding.Simulation.Preparation
import PortForwarding.Simulation.Report
import PortForwarding.Simulation.Router
import PortForwarding.Simulation.Timeline
import PortForwarding.Simulation.World
import PortForwarding.Table
import PortForwarding.Text.Blank
import PortForwarding.Text.Clip
import PortForwarding.Text.Decimal
import PortForwarding.Text.Hidden
import PortForwarding.Text.Quoted
import PortForwarding.Time.Date
import PortForwarding.Time.Reader
import PortForwarding.Time.Timestamp
import PortForwarding.Proofs.Listing
import PortForwarding.Proofs.Plan.Balance
import PortForwarding.Proofs.Reservations.Holders
import PortForwarding.Proofs.Script.Leads
import PortForwarding.Proofs.Rule.Owner
import PortForwarding.Proofs.Rule.Wanted
import PortForwarding.Proofs.Desired
import PortForwarding.Proofs.Pass.Reconcile
import PortForwarding.Proofs.Plan.Drift
import PortForwarding.Proofs.Text.Decimal
import PortForwarding.Proofs.Json.RoundTrip
import PortForwarding.Proofs.Record.Cleanup
import PortForwarding.Proofs.Script.Ensures
import PortForwarding.Proofs.Service.Stored
import PortForwarding.Proofs.Pass.Cleanup
import PortForwarding.Proofs.Pass.Budget
import PortForwarding.Proofs.Pass.Release
import PortForwarding.Proofs.Plan.Agreement
import PortForwarding.Proofs.Plan.Territory
import PortForwarding.Proofs.Script.Interleaved
import PortForwarding.Proofs.Shared
import PortForwarding.Proofs.Pass.Overlap
import PortForwarding.Proofs.Pass.LastHolder
import PortForwarding.Proofs.Plan.WellFormed
import PortForwarding.Proofs.Plan.Occupancy
import PortForwarding.Proofs.Record.Change
import PortForwarding.Proofs.Scene
import PortForwarding.Proofs.Pass.Convergence
import PortForwarding.Proofs.Pass.Fixpoint
import PortForwarding.Proofs.Reservations.Acts
import PortForwarding.Proofs.Script.Amid
import PortForwarding.Proofs.Plan.Fading
import PortForwarding.Proofs.Plan.Exposure
import PortForwarding.Proofs.Plan.Vanishing
import PortForwarding.Proofs.Plan.Contested
import PortForwarding.Proofs.Plan.Revalidation
import PortForwarding.Proofs.Plan.Isolation
import PortForwarding.Proofs.Limiter
import PortForwarding.Proofs.Script.Recorded
import PortForwarding.Proofs.Pass.Anatomy
import PortForwarding.Proofs.Pass.Aftermath
import PortForwarding.Proofs.Record.Failure
import PortForwarding.Proofs.Pass.Tally
import PortForwarding.Proofs.Pass.Failing
import PortForwarding.Proofs.Text.Blank
import PortForwarding.Proofs.Address.RoundTrip
import PortForwarding.Proofs.Json.Row
import PortForwarding.Proofs.Plan.Idle
import PortForwarding.Proofs.Router.InMemory
import PortForwarding.Proofs.Router.Wire
import PortForwarding.Proofs.Pass.Removal
import PortForwarding.Proofs.Pass.Report
import PortForwarding.Proofs.Simulation.Fairness
import PortForwarding.Proofs.Record.Persistence
import PortForwarding.Proofs.Service.Contention
import PortForwarding.Proofs.Script.Runs
import PortForwarding.Proofs.Pass.Guard
import PortForwarding.Proofs.Plan.Account
import PortForwarding.Proofs.Pass.Tracking
import PortForwarding.Proofs.Rule.Naming
import PortForwarding.Proofs.Mapping
import PortForwarding.Proofs.Pass.Parting
import PortForwarding.Proofs.Pass.Visits
import PortForwarding.Proofs.Record.PortPatch
import PortForwarding.Proofs.Wishes
import PortForwarding.Proofs.Sweeping
import PortForwarding.Proofs.Pass.Moments
import PortForwarding.Proofs.Pass.Cadence
import PortForwarding.Proofs.Text.Clip
import PortForwarding.Proofs.Plan.Reordering
import PortForwarding.Proofs.Router.Legible
