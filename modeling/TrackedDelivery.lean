import TrackedDelivery.TextMap
import TrackedDelivery.Bytes
import TrackedDelivery.Text.Blank
import TrackedDelivery.Text.Printable
import TrackedDelivery.Text.Quoted
import TrackedDelivery.Number.Unsigned
import TrackedDelivery.Number.Binary64
import TrackedDelivery.Number.Shortest
import TrackedDelivery.Duration
import TrackedDelivery.Base64
import TrackedDelivery.Json.Numeral
import TrackedDelivery.Json.Quote
import TrackedDelivery.Json.Token
import TrackedDelivery.Json.Passing
import TrackedDelivery.MessageId
import TrackedDelivery.Position
import TrackedDelivery.Config.Key
import TrackedDelivery.Config.Basic
import TrackedDelivery.Subscription
import TrackedDelivery.Record
import TrackedDelivery.Pending
import TrackedDelivery.Broker
import TrackedDelivery.Event
import TrackedDelivery.Failure
import TrackedDelivery.Tracker
import TrackedDelivery.Deployment.Basic
import TrackedDelivery.Deployment.Session
import TrackedDelivery.Deployment.Step
import TrackedDelivery.Memory.Id
import TrackedDelivery.Memory.Store
import TrackedDelivery.Memory.Broker
import TrackedDelivery.Scripted.Broker
import TrackedDelivery.Proofs.Deployment.Guarantees
import TrackedDelivery.Proofs.Deployment.Acknowledgment
import TrackedDelivery.Proofs.Deployment.Redelivery
import TrackedDelivery.Proofs.Memory.Remaining
import TrackedDelivery.Proofs.Deployment.Turn
import TrackedDelivery.Proofs.Deployment.Resuming
import TrackedDelivery.Proofs.Deployment.Ordering
import TrackedDelivery.Proofs.Deployment.Acts
import TrackedDelivery.Proofs.Deployment.Calls
import TrackedDelivery.Proofs.Deployment.Ownership
import TrackedDelivery.Proofs.Deployment.Waiting
import TrackedDelivery.Proofs.Deployment.WakeUps
import TrackedDelivery.Proofs.Deployment.Cancellation
import TrackedDelivery.Proofs.Deployment.Exclusivity
import TrackedDelivery.Proofs.Deployment.Sessions
import TrackedDelivery.Proofs.Deployment.Fencing
import TrackedDelivery.Proofs.Deployment.FailedOpens
import TrackedDelivery.Proofs.Deployment.Reopening
import TrackedDelivery.Proofs.Deployment.Restarts
import TrackedDelivery.Proofs.Deployment.Settling
import TrackedDelivery.Proofs.Deployment.Interleaving
import TrackedDelivery.Proofs.Json.Grammar
import TrackedDelivery.Proofs.Json.Lexing
import TrackedDelivery.Proofs.Json.Skipping
import TrackedDelivery.Proofs.Position.Documents
import TrackedDelivery.Proofs.Base64.Canonical
import TrackedDelivery.Proofs.Position.Canonical
import TrackedDelivery.Proofs.Memory.Isolation
import TrackedDelivery.Proofs.Deployment.Isolation
import TrackedDelivery.Proofs.Deployment.Provenance
import TrackedDelivery.Proofs.Deployment.Balance
import TrackedDelivery.Proofs.Deployment.Leaks
import TrackedDelivery.Proofs.Deployment.Refusals
import TrackedDelivery.Proofs.Deployment.Draining
import TrackedDelivery.Proofs.Deployment.Collisions
import TrackedDelivery.Proofs.Number.Numeral
import TrackedDelivery.Proofs.Record.CreationTime
import TrackedDelivery.Proofs.Duration.Grammar
import TrackedDelivery.Proofs.Duration.Scan
import TrackedDelivery.Proofs.Config.Keys
import TrackedDelivery.Proofs.Config.Modular
import TrackedDelivery.Proofs.Memory.Attachments
import TrackedDelivery.Proofs.Deployment.Handles
import TrackedDelivery.Proofs.Deployment.Attachments
import TrackedDelivery.Proofs.Number.Exact
import TrackedDelivery.Proofs.Duration.Exact
import TrackedDelivery.Proofs.Deployment.Naming
import TrackedDelivery.Proofs.Pending.Balance
import TrackedDelivery.Proofs.Pending.Conservation
