import FerrumGate.Adapters.Egress
import FerrumGate.Adapters.ExpectedStatuses
import FerrumGate.Adapters.SqliteRecovery
import FerrumGate.Audit.CheckpointPayload
import FerrumGate.Audit.Listing
import FerrumGate.Firewall.Sanitize
import FerrumGate.Gateway.ApprovalList
import FerrumGate.Gateway.Behavioral
import FerrumGate.Gateway.CredentialList
import FerrumGate.Gateway.Inference
import FerrumGate.Gateway.LineageQuery
import FerrumGate.Gateway.PolicyCreate
import FerrumGate.Safety.Compensate
import FerrumGate.Safety.Coverage
import FerrumGate.Safety.Export
import FerrumGate.Safety.Kept
import FerrumGate.Safety.Leases
import FerrumGate.Safety.MfaRequests
import FerrumGate.Safety.OneEvent
import FerrumGate.Safety.Outcome
import FerrumGate.Safety.Policy
import FerrumGate.Safety.PolicyContent
import FerrumGate.Safety.Rotation
import FerrumGate.Safety.SessionReplay
import FerrumGate.Store.EdgeAppend
import FerrumGate.Store.Ledger
import FerrumGate.Store.MerkleRoot
import FerrumGate.Store.NonceCache
import FerrumGate.Store.ReconcileRun
import FerrumGate.Store.TimeColumns
import FerrumGate.Store.WriteQueue
import FerrumGate.Sync.Decision
