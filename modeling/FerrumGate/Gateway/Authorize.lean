import FerrumGate.Gateway.Capabilities
import FerrumGate.Gateway.Executions

/-!
# Authorizing an execution

`ferrum-gateway/src/execution/authorize.rs`: the handler checks a preloaded lease, and then one
transaction consumes the capability and inserts the execution with its outbox record.
-/

namespace FerrumGate

open Interleave

/-- `get_capability_for_authorize`: the service, then the store. -/
def getCapabilityForAuthorize (id : CapabilityId) : CapM CapabilityLease := do
  match ← attempt (capServiceGet id) with
  | .ok lease => pure lease
  | .error .notFound =>
    -- a store error counts as a miss here
    let lease ← ExceptT.adapt (fun _ : StoreError => CapabilityError.notFound)
      (statement (perform (.getCapability id)))
    match lease with
    | none => throw .notFound
    | some lease =>
      checkConsumable lease
      pure lease
  | .error e => throw e

/-- `classify_capability_after_cas_loss`. -/
def classifyCapabilityAfterCasLoss (lease : Option CapabilityLease) (now : Timestamp) :
    CapabilityError :=
  match lease with
  | none => .notFound
  | some lease =>
    if lease.status = .used then .alreadyUsed
    else if lease.status = .revoked then .revoked
    else if lease.expiresAt ≤ now then .expired
    else .alreadyUsed

/-- `classify_authorization_cas_failure`. -/
def classifyAuthorizationCasFailure (id : CapabilityId) : Gw CapabilityError := do
  let lease ← perform (.getCapability id)
  let now ← perform .readClock
  pure (classifyCapabilityAfterCasLoss (lease.toOption.join) now)

/-- How a capability error is answered: a missing capability looks like a guarded object. -/
def authorizeProblem (e : CapabilityError) : ApiProblem :=
  if e = .notFound then .objectNotFound else .fromCapability e

structure AuthorizeExecutionRequest where
  proposalId : ProposalId
  capabilityId : CapabilityId
  dryRun : Bool

/-- The execution an authorization creates. -/
def authorizedExecution (executionId : ExecutionId) (now : Timestamp)
    (request : AuthorizeExecutionRequest) (lease : CapabilityLease) : ExecutionRecord :=
  { executionId
    proposalId := request.proposalId
    intentId := lease.intentId
    capabilityId := lease.capabilityId
    rollbackContractId := none
    decision := .allow
    state := if request.dryRun then .authorized else .prepared
    startedAt := now
    finishedAt := none
    resultDigest := none
    ownerActorId := lease.ownerActorId }

/-- The outbox record of an authorization. -/
def authorizationRecord (outboxId : LifecycleOutboxId) (now : Timestamp)
    (execution : ExecutionRecord) : LifecycleOutboxRecord :=
  .pendingWithObligations outboxId now execution.executionId none none execution.state none none
    [.actionProposalSubmitted] (.authorize execution.executionId)

/-- The checks of `authorize_execution` on the preloaded lease. -/
def checkAuthorize (state : AppState) (actor : Option AuthActor)
    (request : AuthorizeExecutionRequest) : Handler CapabilityLease := do
  let lease ← ExceptT.adapt authorizeProblem (getCapabilityForAuthorize request.capabilityId)
  ownerGuard state actor lease.ownerActorId
  demand (request.proposalId = lease.proposalId)
    (.integrityMismatch "request proposal_id does not match capability lease proposal_id")
  let proposal ← require (perform (.getProposal request.proposalId))
    (.missing "proposal not found for capability")
  demandOk (validateCapabilityProposalBinding lease proposal) .integrityMismatch
  let intent ← require (perform (.getIntent lease.intentId))
    (.missing "intent not found for capability")
  demandOk (state.validateResourceBindingsSubsetOfScope lease.resourceBindings
    intent.resourceScope) .policyDenied
  match lease.approvalBinding with
  | none => pure lease
  | some binding =>
    validateApprovalBindingDigest state binding request.proposalId
    pure lease

/-- The event and the marks after the transaction. -/
def closeAuthorization (execution : ExecutionRecord) (outbox : LifecycleOutboxRecord) :
    StoreM Unit := do
  let eventId ← appendExecutionEvent .actionProposalSubmitted execution none
    (lifecycleEventMetadata outbox {})
  markLifecycleTransitionReconciled outbox eventId

/-- **`authorize_execution`**. -/
def authorizeExecution (state : AppState) (actor : Option AuthActor)
    (request : AuthorizeExecutionRequest) : Handler ExecutionRecord := do
  let lease ← checkAuthorize state actor request
  let executionId : ExecutionId := ⟨← call .newUuid⟩
  let startedAt ← call .readClock
  let execution := authorizedExecution executionId startedAt request lease
  let outboxId : LifecycleOutboxId := ⟨← call .newUuid⟩
  let recordedAt ← call .readClock
  let outbox := authorizationRecord outboxId recordedAt execution
  let now ← call .readClock
  if ← store (statement (perform (.recordAuthorization lease execution outbox now))) then
    let _ ← attempt (capMarkUsed request.capabilityId)
    store (closeAuthorization execution outbox)
    pure execution
  else
    throw (authorizeProblem
      (← ExceptT.lift (classifyAuthorizationCasFailure request.capabilityId)))

end FerrumGate
