import ContractHost.Boundary.Callbacks
import ContractHost.Config.OfJson
import ContractHost.Config.OfToml
import ContractHost.Host.InMemory
import ContractHost.Script.Engine
import ContractHost.Proofs.Effect
import ContractHost.Proofs.Registry.Handle
import ContractHost.Proofs.Registry.Consistency
import ContractHost.Proofs.Registry.Restoration
import ContractHost.Proofs.Registry.Map
import ContractHost.Proofs.Registry.Linked
import ContractHost.Proofs.Registry.Counts
import ContractHost.Proofs.Chain.Meters
import ContractHost.Proofs.Store.Prefixes
import ContractHost.Proofs.Store.Under
import ContractHost.Proofs.Store.Stack
import ContractHost.Proofs.Store.Walk
import ContractHost.Proofs.Host.Requests
import ContractHost.Proofs.Host.Nested
import ContractHost.Proofs.Host.Cursors
import ContractHost.Proofs.Host.Walk
import ContractHost.Proofs.Host.Sweep
import ContractHost.Proofs.Host.Inquiry
import ContractHost.Proofs.Host.Refusals
import ContractHost.Proofs.Host.Resolution
import ContractHost.Proofs.Host.Priced
import ContractHost.Proofs.Host.Exhaustion
import ContractHost.Proofs.Host.Share
import ContractHost.Proofs.Host.Interference
import ContractHost.Proofs.Host.Queries
import ContractHost.Proofs.Host.Answers
import ContractHost.Proofs.Boundary.Callback
import ContractHost.Proofs.Boundary.Gas
import ContractHost.Proofs.Run.Moments
import ContractHost.Proofs.Run.Release
import ContractHost.Proofs.Run.Points
import ContractHost.Proofs.Run.Dialogue
import ContractHost.Proofs.Run.Billing
import ContractHost.Proofs.Run.Scope
import ContractHost.Proofs.Run.Depth
import ContractHost.Proofs.Run.Active
import ContractHost.Proofs.Run.Blame
import ContractHost.Proofs.Run.Chained
import ContractHost.Proofs.Store.First
import ContractHost.Proofs.Store.Isolation
import ContractHost.Proofs.Code.Cache
import ContractHost.Proofs.Document.Json
import ContractHost.Proofs.Document.Reader
import ContractHost.Proofs.Document.Wire
import ContractHost.Proofs.Document.Opening
import ContractHost.Proofs.Run.Output
import ContractHost.Proofs.Run.Reencoding
import ContractHost.Proofs.Run.Abort
import ContractHost.Proofs.Chain.Payments
import ContractHost.Proofs.Run.Allowance
import ContractHost.Proofs.Run.Funds
import ContractHost.Proofs.Boundary.Malformed
import ContractHost.Proofs.Chain.Conservation
import ContractHost.Proofs.Chain.Enrolment
import ContractHost.Proofs.Run.Attached
import ContractHost.Proofs.Run.Scan
import ContractHost.Proofs.Text.Hex
import ContractHost.Proofs.Host.Addresses
import ContractHost.Proofs.Gas.Prices
import ContractHost.Proofs.Config.LogLevel
import ContractHost.Proofs.Config.Capability
import ContractHost.Proofs.Host.Records
import ContractHost.Proofs.Boundary.Lent
