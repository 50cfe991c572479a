import EventStaging.Doubles.Bench
import EventStaging.Fleet
import EventStaging.Json.Compact
import EventStaging.Json.Reports
import EventStaging.Proofs.Engine.Containment
import EventStaging.Proofs.Engine.Custody
import EventStaging.Proofs.Engine.Erasure
import EventStaging.Proofs.Ring.Backlog
import EventStaging.Pump
import EventStaging.Proofs.History
import EventStaging.Proofs.Shared.Calls
import EventStaging.Proofs.Shared.Closing
import EventStaging.Proofs.Registry.Entries
import EventStaging.Proofs.Fleet.Commands
import EventStaging.Proofs.Fleet.Identifiers
import EventStaging.Proofs.Fleet.Teardown
import EventStaging.Proofs.Metrics.Series
import EventStaging.Proofs.Service.Commands
import EventStaging.Proofs.Service.Metering
import EventStaging.Proofs.Pump.Pumping
import EventStaging.Proofs.Ring.Growth
import EventStaging.Proofs.Engine.Logging
import EventStaging.Proofs.Engine.AuditTrail
import EventStaging.Proofs.Engine.Transitions
import EventStaging.Proofs.Engine.Intake
import EventStaging.Proofs.Engine.Gate
import EventStaging.Proofs.Engine.Exhaustion
import EventStaging.Proofs.Metrics.Durations
import EventStaging.Proofs.Decimal.Order
import EventStaging.Proofs.Service.Threshold
import EventStaging.Proofs.Engine.Reporting
import EventStaging.Proofs.Service.Batches
import EventStaging.Proofs.Metrics.Marks
import EventStaging.Proofs.Pump.Coalescing
import EventStaging.Proofs.Service.Gauge
import EventStaging.Proofs.Decimal.Rounding
import EventStaging.Proofs.Service.Health
import EventStaging.Proofs.Text.Bytes
import EventStaging.Proofs.Metrics.Buckets
import EventStaging.Proofs.Text.Trimming
import EventStaging.Proofs.Settings.Loading
import EventStaging.Proofs.Ring.Draining
import EventStaging.Proofs.Json.Tokens
import EventStaging.Proofs.Json.Values
import EventStaging.Proofs.Json.Requests
