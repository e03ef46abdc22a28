import ClusterControl.Api.Request
import ClusterControl.Codec.Inventory
import ClusterControl.Codec.Jobs
import ClusterControl.Codec.Planning
import ClusterControl.Codec.Preview
import ClusterControl.Codec.Reports
import ClusterControl.Codec.Script
import ClusterControl.Codec.Settings
import ClusterControl.CommandLine.Arguments
import ClusterControl.CommandLine.Directory
import ClusterControl.CommandLine.Failure
import ClusterControl.CommandLine.Help
import ClusterControl.CommandLine.Preferences
import ClusterControl.CommandLine.Program
import ClusterControl.CommandLine.Rendering
import ClusterControl.Configuration.Controller
import ClusterControl.Configuration.Layers
import ClusterControl.Controller.Builder
import ClusterControl.Controller.Intake
import ClusterControl.Controller.Routine
import ClusterControl.Controller.State
import ClusterControl.Controller.Step
import ClusterControl.Decimal.Binary64
import ClusterControl.Decimal.Fixed
import ClusterControl.Decimal.Reading
import ClusterControl.Decimal.Shortest
import ClusterControl.Demand.Classification
import ClusterControl.Demand.Estimator
import ClusterControl.Demand.Ranking
import ClusterControl.Enforcement.Engine
import ClusterControl.Enforcement.Watch
import ClusterControl.Health.Registry
import ClusterControl.Inventory.History
import ClusterControl.Inventory.Host
import ClusterControl.Inventory.Observation
import ClusterControl.Inventory.Request
import ClusterControl.Inventory.Store
import ClusterControl.Inventory.VirtualMachine
import ClusterControl.Json.Decode
import ClusterControl.Json.Dialect
import ClusterControl.Json.Printer
import ClusterControl.Json.Reader
import ClusterControl.Json.Value
import ClusterControl.Main
import ClusterControl.Network.Address
import ClusterControl.Network.Http
import ClusterControl.Network.MediaType
import ClusterControl.Network.Url
import ClusterControl.Planning.Consolidation
import ClusterControl.Planning.Migration
import ClusterControl.Planning.Placement
import ClusterControl.Planning.Preview
import ClusterControl.Planning.Relocation
import ClusterControl.Proofs.Codec.Documents
import ClusterControl.Proofs.Codec.Inventory
import ClusterControl.Proofs.Codec.Reports
import ClusterControl.Proofs.Controller.Alone
import ClusterControl.Proofs.Controller.Capacity
import ClusterControl.Proofs.Controller.Chronicle
import ClusterControl.Proofs.Controller.Control
import ClusterControl.Proofs.Controller.Detection
import ClusterControl.Proofs.Controller.Dormant
import ClusterControl.Proofs.Controller.Duplicates
import ClusterControl.Proofs.Controller.Endings
import ClusterControl.Proofs.Controller.Enforced
import ClusterControl.Proofs.Controller.Engines
import ClusterControl.Proofs.Controller.Gate
import ClusterControl.Proofs.Controller.Guarded
import ClusterControl.Proofs.Controller.Handovers
import ClusterControl.Proofs.Controller.Monitoring
import ClusterControl.Proofs.Controller.Outcomes
import ClusterControl.Proofs.Controller.Power
import ClusterControl.Proofs.Controller.Previews
import ClusterControl.Proofs.Controller.Releases
import ClusterControl.Proofs.Controller.Reserve
import ClusterControl.Proofs.Controller.Resolutions
import ClusterControl.Proofs.Controller.SingleFlight
import ClusterControl.Proofs.Controller.Submissions
import ClusterControl.Proofs.Controller.Tasks
import ClusterControl.Proofs.Demand.Classification
import ClusterControl.Proofs.Demand.Ranked
import ClusterControl.Proofs.Demand.Remaining
import ClusterControl.Proofs.Demand.Sorting
import ClusterControl.Proofs.Demand.Trimming
import ClusterControl.Proofs.Enforcement.Accounts
import ClusterControl.Proofs.Enforcement.Batches
import ClusterControl.Proofs.Enforcement.Calls
import ClusterControl.Proofs.Enforcement.Decisions
import ClusterControl.Proofs.Enforcement.Endings
import ClusterControl.Proofs.Enforcement.Handovers
import ClusterControl.Proofs.Enforcement.Reports
import ClusterControl.Proofs.Enforcement.Session
import ClusterControl.Proofs.Enforcement.Turns
import ClusterControl.Proofs.Health.Registry
import ClusterControl.Proofs.Inventory.Window
import ClusterControl.Proofs.Json.Restoring
import ClusterControl.Proofs.Planning.Agreement
import ClusterControl.Proofs.Planning.Assignments
import ClusterControl.Proofs.Planning.Batch
import ClusterControl.Proofs.Planning.Consolidation
import ClusterControl.Proofs.Planning.Departures
import ClusterControl.Proofs.Planning.Evacuation
import ClusterControl.Proofs.Planning.Execution
import ClusterControl.Proofs.Planning.Filling
import ClusterControl.Proofs.Planning.Growth
import ClusterControl.Proofs.Planning.NetEffect
import ClusterControl.Proofs.Planning.Overload
import ClusterControl.Proofs.Planning.Relief
import ClusterControl.Proofs.Planning.Room
import ClusterControl.Proofs.Planning.Rotation
import ClusterControl.Proofs.Planning.Savings
import ClusterControl.Proofs.Planning.Views
import ClusterControl.Proofs.Program.Alone
import ClusterControl.Proofs.Program.Chronicle
import ClusterControl.Proofs.Program.Contract
import ClusterControl.Proofs.Program.Control
import ClusterControl.Proofs.Program.Counts
import ClusterControl.Proofs.Program.Deliveries
import ClusterControl.Proofs.Program.Detection
import ClusterControl.Proofs.Program.Duplicates
import ClusterControl.Proofs.Program.Enforced
import ClusterControl.Proofs.Program.Outcomes
import ClusterControl.Proofs.Program.Power
import ClusterControl.Proofs.Program.Releases
import ClusterControl.Proofs.Program.Relocations
import ClusterControl.Proofs.Program.Requests
import ClusterControl.Proofs.Program.Reserve
import ClusterControl.Proofs.Program.Resolutions
import ClusterControl.Proofs.Program.Submissions
import ClusterControl.Proofs.Program.Tallies
import ClusterControl.Proofs.Program.Workflows
import ClusterControl.Proofs.Resource.Exact
import ClusterControl.Proofs.Resource.Faithful
import ClusterControl.Proofs.SortedMap
import ClusterControl.Proofs.Store.Changes
import ClusterControl.Proofs.Store.Consistency
import ClusterControl.Proofs.Store.Entries
import ClusterControl.Proofs.Store.Histories
import ClusterControl.Proofs.Store.Keyed
import ClusterControl.Proofs.Store.Listing
import ClusterControl.Proofs.Store.OnePlace
import ClusterControl.Proofs.Store.Outcomes
import ClusterControl.Proofs.Store.Power
import ClusterControl.Proofs.Store.Registration
import ClusterControl.Proofs.Store.Samples
import ClusterControl.Proofs.Store.Switches
import ClusterControl.Proofs.Store.Traffic
import ClusterControl.Quantity
import ClusterControl.Rehearsal.Cues
import ClusterControl.Rehearsal.Script
import ClusterControl.Rehearsal.Serving
import ClusterControl.Rehearsal.State
import ClusterControl.Rehearsal.Timeline
import ClusterControl.Rehearsal.Transcript
import ClusterControl.Resource.Norm
import ClusterControl.Resource.Vector
import ClusterControl.Schedule.Calendar
import ClusterControl.Schedule.Cron
import ClusterControl.Settings
import ClusterControl.SortedMap
import ClusterControl.Telemetry.Event
import ClusterControl.Telemetry.Metric
import ClusterControl.Terminal.Paint
import ClusterControl.Terminal.Table
import ClusterControl.Text.Glyph
import ClusterControl.Text.Quoted
import ClusterControl.Workflow.Commit
import ClusterControl.Workflow.Control
import ClusterControl.Workflow.Detection
import ClusterControl.Workflow.Error
import ClusterControl.Workflow.Job
import ClusterControl.Workflow.Monitoring
import ClusterControl.Workflow.Outcome
import ClusterControl.Workflow.Power
import ClusterControl.Workflow.Program
import ClusterControl.Workflow.Reconfiguration
import ClusterControl.Workflow.Remote
import ClusterControl.Workflow.Resolution
import ClusterControl.Workflow.Status
import ClusterControl.Workflow.Submission
