import FerrumGate.Gateway.Recovery
import FerrumGate.Gateway.Authorize
import FerrumGate.Gateway.Governance
import FerrumGate.Store.Reconciliation

/-!
# The gateway as a system

Any number of processes share the store: each one serves a request, runs a pass of a background
task, or renews a lease. `run` interleaves their operations as a schedule says; what the
environment decides (clock, store failures, answers of policy engine and adapter) is part of the
schedule, and so is a crash: a process that is not scheduled again.

The operator's two handlers on outbox records (`ferrum-gateway/src/admin/lifecycle_outbox.rs`) are
here too, since one of them starts a reconciliation run.
-/

namespace FerrumGate

open Interleave

/-! ## The operator's handlers -/

def outboxRecordNotFound : ApiProblem := .missing "lifecycle outbox record not found"

/-- A store routine whose error is reported under a fixed message. -/
def storeReporting {α : Type} (message : String) (x : StoreM α) : Handler α :=
  ExceptT.adapt (fun _ => ApiProblem.internal message) x

/-- **`retry_lifecycle_outbox`**: reset the record, then reconcile at once. -/
def retryLifecycleOutbox (state : AppState) (id : LifecycleOutboxId) :
    Handler LifecycleOutboxRecord := do
  match ← storeReporting "failed to reset lifecycle outbox record" (resetForRetry id) with
  | none => throw outboxRecordNotFound
  | some record =>
    let _ ← attempt (reconcileLifecycleOutbox 1000)
    let refreshed ← call (.getOutbox id)
    appendAuditChecked state
    pure (refreshed.toOption.join.getD record)

/-- **`resolve_lifecycle_outbox`**; `reasonBlank` says that the trimmed reason is empty. -/
def resolveLifecycleOutbox (state : AppState) (id : LifecycleOutboxId) (reasonBlank : Bool) :
    Handler LifecycleOutboxRecord := do
  demand (reasonBlank = false) ⟨.badRequest, .validationError,
    "reason is required to resolve lifecycle outbox operator review"⟩
  match ← storeReporting "failed to resolve lifecycle outbox record" (markOperatorResolved id) with
  | none => throw outboxRecordNotFound
  | some record =>
    appendAuditChecked state
    pure record

/-! ## Requests and background tasks -/

/-- What a process of the gateway can be started with. -/
inductive Request where
  | compileIntent (actor : Option AuthActor) (request : IntentCompileRequest)
  | evaluateProposal (proposal : ActionProposal)
  /-- An approval is filed from outside the gateway. -/
  | requestApproval (approval : ApprovalRequest)
  | resolveApproval (actor : Option AuthActor) (id : ApprovalId) (request : ResolveRequest)
  | resolveHold (actor : Option AuthActor) (id : QuarantineHoldId) (request : ResolveRequest)
  | mintCapability (actor : Option AuthActor) (request : CapabilityMintRequest)
  | revokeCapability (actor : Option AuthActor) (id : CapabilityId)
  | authorize (actor : Option AuthActor) (request : AuthorizeExecutionRequest)
  | prepare (actor : Option AuthActor) (id : ExecutionId)
  | execute (actor : Option AuthActor) (id : ExecutionId) (payload : Json)
  | verify (actor : Option AuthActor) (id : ExecutionId)
  | commit (actor : Option AuthActor) (id : ExecutionId)
  | compensate (actor : Option AuthActor) (id : ExecutionId)
  | cancel (actor : Option AuthActor) (id : ExecutionId)
  | ingestProvenance (request : ProvenanceIngestRequest)
  | haReconcilerPass
  | approvalTimeouts
  | quarantineTimeouts
  | reconcileOutbox (limit : Nat)
  /-- The background renewal of a lease, for as many ticks as it lives. -/
  | renewLease (lease : LifecycleOutboxLease) (ticks : Nat)
  | retryOutbox (id : LifecycleOutboxId)
  | resolveOutbox (id : LifecycleOutboxId) (reasonBlank : Bool)

/-- What a process ends with. -/
inductive Response where
  | intent (r : Except ApiProblem IntentEnvelope)
  | evaluated (r : Except ApiProblem PolicyVerdict)
  | filed (r : StoreResult Unit)
  | approval (r : Except ApiProblem ApprovalRequest)
  | hold (r : Except ApiProblem QuarantineHold)
  | capability (r : Except ApiProblem CapabilityLease)
  | authorized (r : Except ApiProblem ExecutionRecord)
  | prepared (r : Except ApiProblem PrepareExecutionResponse)
  | executed (r : Except ApiProblem ExecuteExecutionResponse)
  | verified (r : Except ApiProblem VerifyExecutionResponse)
  | committed (r : Except ApiProblem RollbackContract)
  | compensated (r : Except ApiProblem CompensateExecutionResponse)
  | canceled (r : Except ApiProblem CancelExecutionResponse)
  | ingested (r : Except ApiProblem EventId)
  | haReport (r : HaReport)
  | approvalsExpired (r : List ApprovalRequest)
  | holdsExpired (r : List QuarantineHold)
  | reconciled (r : StoreResult LifecycleReconciliationReport)
  | renewalOver
  | outboxRecord (r : Except ApiProblem LifecycleOutboxRecord)

/-- The program of a process. -/
def serve (state : AppState) : Request → Gw Response
  | .compileIntent actor request => do return .intent (← (compileIntent actor request).run)
  | .evaluateProposal proposal => do return .evaluated (← (evaluateProposal state proposal).run)
  | .requestApproval approval => do return .filed (← perform (.insertApproval approval))
  | .resolveApproval actor id request => do
    return .approval (← (resolveApproval state actor id request).run)
  | .resolveHold actor id request => do
    return .hold (← (resolveQuarantineHold state actor id request).run)
  | .mintCapability actor request => do
    return .capability (← (mintCapability state actor request).run)
  | .revokeCapability actor id => do return .capability (← (revokeCapability state actor id).run)
  | .authorize actor request => do
    return .authorized (← (authorizeExecution state actor request).run)
  | .prepare actor id => do return .prepared (← (prepareExecution state actor id).run)
  | .execute actor id payload => do
    return .executed (← (executeExecution state actor id payload).run)
  | .verify actor id => do return .verified (← (verifyExecution state actor id).run)
  | .commit actor id => do return .committed (← (commitExecution state actor id).run)
  | .compensate actor id => do return .compensated (← (compensateExecution state actor id).run)
  | .cancel actor id => do return .canceled (← (cancelExecution state actor id).run)
  | .ingestProvenance request => do return .ingested (← (ingestProvenance request).run)
  | .haReconcilerPass => do return .haReport (← runHaReconcilerPass state)
  | .approvalTimeouts => do return .approvalsExpired (← reconcileApprovalTimeoutsOnce state)
  | .quarantineTimeouts => do return .holdsExpired (← reconcileQuarantineTimeoutsOnce state)
  | .reconcileOutbox limit => do return .reconciled (← (reconcileLifecycleOutbox limit).run)
  | .renewLease lease ticks => do
    renewalTask lease reconciliationLeaseTtl ticks
    return .renewalOver
  | .retryOutbox id => do return .outboxRecord (← (retryLifecycleOutbox state id).run)
  | .resolveOutbox id reasonBlank => do
    return .outboxRecord (← (resolveLifecycleOutbox state id reasonBlank).run)

/-! ## Runs -/

/-- Who performs the next operation, and what the environment decides in that step. -/
abbrev Schedule := List (Nat × Input)

/-- The gateway in the middle of a run. -/
abbrev Gateway := Config Op Op.Result World Response

/-- The log of a run: who performed which operation with which reply, newest first. -/
abbrev GatewayLog := Log Op Op.Result

/-- Process `p` is about to serve `requests p`. -/
def Gateway.start (state : AppState) (requests : Nat → Request) (w : World) : Gateway :=
  Config.start w fun p => serve state (requests p)

/-- **The run of a schedule.** -/
def run (state : AppState) (requests : Nat → Request) (w : World) (s : Schedule) : Gateway :=
  (Gateway.start state requests w).run Op.exec s

theorem run_append (state : AppState) (requests : Nat → Request) (w : World) (s₁ s₂ : Schedule) :
    run state requests w (s₁ ++ s₂) = (run state requests w s₁).run Op.exec s₂ :=
  Config.run_append _ _ _ _

/-! ## A sample workflow

A write to one file, from the intent to the executed side effect, one request after the other. The
runs that show where a property fails start with it. -/

namespace Sample

/-- A server without authentication whose checks on payloads and scopes let everything pass. -/
def state : AppState where
  authMode := .disabled
  legacyObjectCompatAllowUntil := none
  haReconcilerStaleThresholdSecs := 300
  haReconcilerBatchSize := 100
  approvalTimeoutSeconds := 3600
  quarantineTimeoutSeconds := 3600
  approvalMfaRequired := false
  auditFailClosed := false
  validateArgumentConstraints _ _ := .ok ()
  validateResourceBindingsSubsetOfScope _ _ := .ok ()
  canonicalActionDigest _ := "digest"
  inferActionTypeAndAdapter _ _ := .ok (.fileWrite, "fs")
  inferTargetFromScope _ _ _ := .filePath "report.txt" none none

def proposal : ActionProposal where
  proposalId := ⟨0⟩
  intentId := ⟨0⟩
  toolName := "write_file"
  serverName := "fs"
  rawArguments := .str "content"
  requestedRollbackClass := .r1SnapshotRecoverable
  metadata := []
  createdAt := 0
  ownerActorId := none

def mintRequest : CapabilityMintRequest where
  intentId := ⟨0⟩
  proposalId := ⟨0⟩
  toolBinding := ⟨"fs", "write_file", none⟩
  resourceBindings := []
  argumentConstraints := []
  taintBudget := ⟨100, true, true, true⟩
  approvalBinding := none
  requestedTtlSecs := 300
  metadata := []

/-- The execution that the workflow authorizes. -/
def executionId : ExecutionId := ⟨5⟩

/-- The workflow is served by the processes 0 to 5, and `more` by the others. -/
def requests (more : Nat → Request) : Nat → Request
  | 0 => .compileIntent none ⟨[], none⟩
  | 1 => .evaluateProposal proposal
  | 2 => .mintCapability none mintRequest
  | 3 => .authorize none ⟨⟨0⟩, ⟨2⟩, false⟩
  | 4 => .prepare none executionId
  | 5 => .execute none executionId .null
  | n + 6 => more n

/-- Everything outside the store answers at once and with success. -/
def input : Input where
  policy := some ⟨.allow, "allowed", false⟩
  prepareReply := some ⟨true, []⟩
  executeReply := some ⟨none, []⟩
  verifyReply := some ⟨.applied, []⟩
  compensateReply := some ⟨true, []⟩

/-- Process `p` performs its next `n` operations, or all it has left. -/
def steps (p n : Nat) : Schedule := List.replicate n (p, input)

/-- The workflow up to the prepared side effect. -/
def prepared : Schedule := steps 0 10 ++ steps 1 10 ++ steps 2 20 ++ steps 3 30 ++ steps 4 40

/-- The workflow up to the executed side effect. -/
def executed : Schedule := prepared ++ steps 5 40

end Sample

end FerrumGate
